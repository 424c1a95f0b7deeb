import HifiApi.ApiKeys.State
import HifiApi.Base.AppError
import HifiApi.Lib.System

/-!
# Counting the uses of a key

The uses of one key are counted in memory, in its SQLite row and in a Redis
counter, each by a step of its own.  A call of {lit}`check_and_consume` holds
the roster for reading until its update is written, so a merge that takes over
a definition, which holds it for writing, falls between calls.
-/

namespace HifiApi

/-- What the first part of {lit}`check_and_consume` makes of a call. -/
inductive Verdict where
  | refused (e : AppError)
  /-- The key has no quota, and the call is answered at once. -/
  | unmetered (label : String)
  /-- The use is counted in memory, and the count goes to SQLite. -/
  | counted (used : U64)
  deriving DecidableEq

namespace ApiKeyState

/-- The key a text with the given hash is accepted for. -/
def admits (k : ApiKeyState) (hash : String) : Bool :=
  decide (k.keyHash = hash) && k.isActive

def invalidKey : AppError :=
  .unauthorized "Invalid or inactive API key"

def quotaExhausted : AppError :=
  .unauthorized "API key quota exhausted"

/-- The part of {lit}`check_and_consume` before its first await. -/
def consume (hash : String) (k : ApiKeyState) : ApiKeyState × Verdict :=
  if k.admits hash = false then
    (k, .refused invalidKey)
  else if k.quota.val = 0 then
    (k, .unmetered k.label)
  else
    let used := k.used.wrappingAdd 1
    let k' := { k with used := used }
    if k.quota.val < used.val then
      (k', .refused quotaExhausted)
    else
      (k', .counted used)

/-- {lit}`fetch_max` with a count read from Redis. -/
def raiseUsed (k : ApiKeyState) (count : U64) : ApiKeyState :=
  { k with used := if k.used.val < count.val then count else k.used }

theorem raiseUsed_of_le {k : ApiKeyState} {count : U64}
    (h : count.val ≤ k.used.val) : k.raiseUsed count = k := by
  unfold raiseUsed
  rw [if_neg (Nat.not_lt.mpr h)]

/-- A call is refused without a count, answered without a count, refused with
a count, or counted. -/
theorem consume_cases (hash : String) (k : ApiKeyState) :
    (k.admits hash = false ∧
      k.consume hash = (k, .refused invalidKey)) ∨
    (k.admits hash = true ∧ k.quota.val = 0 ∧
      k.consume hash = (k, .unmetered k.label)) ∨
    (k.admits hash = true ∧ 0 < k.quota.val ∧
      k.quota.val < (k.used.wrappingAdd 1).val ∧
      k.consume hash =
        ({ k with used := k.used.wrappingAdd 1 },
          .refused quotaExhausted)) ∨
    (k.admits hash = true ∧ 0 < k.quota.val ∧
      (k.used.wrappingAdd 1).val ≤ k.quota.val ∧
      k.consume hash =
        ({ k with used := k.used.wrappingAdd 1 },
          .counted (k.used.wrappingAdd 1))) := by
  cases hadmits : k.admits hash with
  | false =>
      exact Or.inl ⟨rfl, by simp [consume, hadmits]⟩
  | true =>
      rcases Nat.eq_zero_or_pos k.quota.val with hquota | hquota
      · exact Or.inr (Or.inl ⟨rfl, hquota, by simp [consume, hadmits, hquota]⟩)
      · have hne : k.quota.val ≠ 0 := by omega
        by_cases hused : k.quota.val < (k.used.wrappingAdd 1).val
        · refine Or.inr (Or.inr (Or.inl ⟨rfl, hquota, hused, ?_⟩))
          simp [consume, hadmits, hne, hused]
        · refine Or.inr (Or.inr (Or.inr ⟨rfl, hquota, by omega, ?_⟩))
          simp [consume, hadmits, hne, hused]

end ApiKeyState

/-- A run of {lit}`sync_usage_from_redis` between its two loops. -/
inductive UsageSync where
  | asked
  | answered (count : Option U64)

/-- The counter of the key in Redis, and what is on its way. -/
structure UsageStore where
  counter : Option I64
  /-- Increments sent and not taken yet. -/
  increments : Nat
  syncs : List UsageSync

/-- One key of an instance: its record, its row, the counts that accepted calls
still have to write, and the Redis counter unless there is a single host. -/
structure KeyUse where
  key : ApiKeyState
  row : ApiKeyRow
  saving : List U64
  store : Option UsageStore

inductive UseAction where
  | consume (hash : String)
  /-- The update of a counted call is written, and the call answers. -/
  | save (i : Nat)
  | increment
  | dropIncrement
  | sync
  | answer (i : Nat)
  | raise (i : Nat)
  /-- A merge reads the definition of the key. -/
  | adopt (payload : Option Value)
  | restart

namespace UsageStore

/-- {lit}`INCRBY 1`; Redis refuses to leave the range. -/
def incrby (counter : Option I64) : Option I64 :=
  match I64.ofInt? ((counter.getD 0).val + 1) with
  | some c => some c
  | none => counter

/-- The count that {lit}`MGET` answers with. -/
def count (s : UsageStore) : Option U64 :=
  s.counter.map U64.ofColumn

end UsageStore

namespace KeyUse

/-- The key of {lit}`create` with its row, on a single host. -/
def created (d : NewKey) (now : I64) : KeyUse where
  key := d.record now
  row := .ofKey now (d.record now)
  saving := []
  store := none

/-- The state after the first part of a call. -/
def consume (hash : String) (s : KeyUse) : KeyUse :=
  match s.key.consume hash with
  | (k, .counted used) => { s with key := k, saving := s.saving ++ [used] }
  | (k, _) => { s with key := k }

/-- The update writes its count, whatever the row holds. -/
def save (i : Nat) (s : KeyUse) : Option KeyUse :=
  match s.saving[i]? with
  | none => none
  | some used =>
      some
        { s with
          row := { s.row with used := used.toI64 }
          saving := s.saving.eraseIdx i
          store := s.store.map fun r =>
            { r with increments := r.increments + 1 } }

def increment (taken : Bool) (s : KeyUse) : Option KeyUse :=
  match s.store with
  | none => none
  | some r =>
      if r.increments = 0 then none
      else
        some
          { s with
            store := some
              { r with
                counter :=
                  if taken then UsageStore.incrby r.counter else r.counter
                increments := r.increments - 1 } }

def sync (s : KeyUse) : KeyUse :=
  match s.store with
  | none => s
  | some r =>
      if s.key.quota.val = 0 then s
      else { s with store := some { r with syncs := r.syncs ++ [UsageSync.asked] } }

def answer (i : Nat) (s : KeyUse) : Option KeyUse :=
  match s.store with
  | none => none
  | some r =>
      match r.syncs[i]? with
      | some .asked =>
          some
            { s with
              store := some
                { r with syncs := r.syncs.set i (.answered r.count) } }
      | _ => none

def raise (i : Nat) (s : KeyUse) : Option KeyUse :=
  match s.store with
  | none => none
  | some r =>
      match r.syncs[i]? with
      | some (.answered count) =>
          some
            { s with
              key := (count.map s.key.raiseUsed).getD s.key
              store := some { r with syncs := r.syncs.eraseIdx i } }
      | _ => none

/-- Take over a newer definition; it waits for the calls that hold the roster. -/
def adopt (payload : Option Value) (s : KeyUse) : Option KeyUse :=
  if s.saving ≠ [] then none
  else
    match s.store with
    | none => some s
    | some _ =>
        match payload.bind (RemoteKey.adopt s.key) with
        | none => some s
        | some k => some { s with key := k, row := s.row.saveAdopted k }

/-- A restart after all calls have finished. -/
def restart (s : KeyUse) : Option KeyUse :=
  if s.saving ≠ [] then none
  else
    some
      { s with
        key := s.row.load
        store := s.store.map fun r => ⟨r.counter, 0, []⟩ }

def step (s : KeyUse) : UseAction -> Option KeyUse
  | .consume hash => some (s.consume hash)
  | .save i => s.save i
  | .increment => s.increment true
  | .dropIncrement => s.increment false
  | .sync => some s.sync
  | .answer i => s.answer i
  | .raise i => s.raise i
  | .adopt payload => s.adopt payload
  | .restart => s.restart

/-- The answers that calls get in a step. -/
def answers (s : KeyUse) : UseAction -> List (Except AppError String)
  | .consume hash =>
      match (s.key.consume hash).2 with
      | .refused e => [.error e]
      | .unmetered label => [.ok label]
      | .counted _ => []
  | .save _ => [.ok s.key.label]
  | _ => []

end KeyUse

/-- The uses of a key as a step system. -/
def useSystem : System KeyUse UseAction :=
  ⟨KeyUse.step⟩

namespace KeyUse

def isOk : Except AppError String -> Bool
  | .ok _ => true
  | .error _ => false

/-- The answer of a call that finds the quota used up. -/
def isExhausted : Except AppError String -> Bool
  | .error e => e = ApiKeyState.quotaExhausted
  | .ok _ => false

/-- The number of calls of a run that are answered with {lit}`Ok`. -/
def accepted (s : KeyUse) (actions : List UseAction) : Nat :=
  (useSystem.history answers s actions).countP isOk

/-- The number of calls of a run that find the quota used up. -/
def exhausted (s : KeyUse) (actions : List UseAction) : Nat :=
  (useSystem.history answers s actions).countP isExhausted

@[simp] theorem isOk_ok (label : String) : isOk (.ok label) = true := rfl

@[simp] theorem isOk_error (e : AppError) : isOk (.error e) = false := rfl

@[simp] theorem isExhausted_ok (label : String) :
    isExhausted (.ok label) = false := rfl

@[simp] theorem isExhausted_quotaExhausted :
    isExhausted (.error ApiKeyState.quotaExhausted) = true := rfl

@[simp] theorem isExhausted_invalidKey :
    isExhausted (.error ApiKeyState.invalidKey) = false := rfl

end KeyUse

end HifiApi
