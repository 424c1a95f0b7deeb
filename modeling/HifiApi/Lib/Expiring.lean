import Mathlib.Data.List.Induction
import Mathlib.Tactic.Common

/-!
# Expiring caches

A cache keeps at most one value a key, under the time it was put there, and answers
with it while its time to live lasts.  It may drop any key at any time.  What it
holds is read off the events of its past: the last value put under the key, unless
the key was dropped since.
-/

namespace HifiApi

/-- A value and the time since when it is kept. -/
structure KeptEntry (Value : Type) where
  value : Value
  since : Nat

/-- What happens to a cache. -/
inductive CacheEvent (Key Value : Type) where
  | kept (key : Key) (entry : KeptEntry Value)
  | dropped (key : Key)
  | cleared

def ExpiringCache (Key Value : Type) : Type := Key -> Option (KeptEntry Value)

namespace CacheEvent

variable {Key Value : Type}

/-- The event takes the value of the key away. -/
def Removes (key : Key) : CacheEvent Key Value -> Prop
  | kept _ _ => False
  | dropped key' => key' = key
  | cleared => True

/-- The event puts a value under the key. -/
def Puts (key : Key) : CacheEvent Key Value -> Prop
  | kept key' _ => key' = key
  | dropped _ => False
  | cleared => False

/-- The time of a value that is kept. -/
def since? : CacheEvent Key Value -> Option Nat
  | kept _ entry => some entry.since
  | dropped _ => none
  | cleared => none

end CacheEvent

namespace ExpiringCache

variable {Key Value : Type}

def empty : ExpiringCache Key Value := fun _ => none

/-- What is kept of the key, unless it has expired. -/
def get (c : ExpiringCache Key Value) (timeToLive now : Nat) (key : Key) : Option Value :=
  match c key with
  | none => none
  | some entry => if now < entry.since + timeToLive then some entry.value else none

theorem get_eq_some {c : ExpiringCache Key Value} {timeToLive now : Nat} {key : Key}
    {value : Value} (h : c.get timeToLive now key = some value) :
    exists since, c key = some ⟨value, since⟩ ∧ now < since + timeToLive := by
  unfold get at h
  split at h
  · cases h
  · rename_i entry hentry
    split at h
    · rename_i hlive
      rw [<- Option.some.inj h]
      exact ⟨entry.since, hentry, hlive⟩
    · cases h

theorem le_of_get_eq_none {c : ExpiringCache Key Value} {timeToLive now : Nat} {key : Key}
    {entry : KeptEntry Value} (h : c.get timeToLive now key = none) (hkey : c key = some entry) :
    entry.since + timeToLive ≤ now := by
  unfold get at h
  rw [hkey] at h
  by_contra hlive
  rw [Nat.not_le] at hlive
  simp only [if_pos hlive] at h
  cases h

variable [DecidableEq Key]

def apply (c : ExpiringCache Key Value) : CacheEvent Key Value -> ExpiringCache Key Value
  | .kept key entry => fun key' => if key' = key then some entry else c key'
  | .dropped key => fun key' => if key' = key then none else c key'
  | .cleared => fun _ => none

/-- The cache after its events. -/
def after (events : List (CacheEvent Key Value)) : ExpiringCache Key Value :=
  events.foldl apply empty

theorem after_append (events more : List (CacheEvent Key Value)) :
    after (events ++ more) = more.foldl apply (after events) :=
  List.foldl_append

theorem after_snoc (events : List (CacheEvent Key Value)) (e : CacheEvent Key Value) :
    after (events ++ [e]) = (after events).apply e :=
  after_append events [e]

/-- What is kept was put there last, and has not been taken away since. -/
theorem exists_kept_of_after {events : List (CacheEvent Key Value)} {key : Key}
    {entry : KeptEntry Value} (h : after events key = some entry) :
    exists before later, events = before ++ CacheEvent.kept key entry :: later ∧
      forall e, e ∈ later -> ¬ e.Puts key ∧ ¬ e.Removes key := by
  induction events using List.reverseRecOn with
  | nil =>
      cases h
  | append_singleton events e ih =>
      have hkeep (hputs : ¬ e.Puts key) (hremoves : ¬ e.Removes key)
          (hevents : after events key = some entry) :
          exists before later, events ++ [e] = before ++ CacheEvent.kept key entry :: later ∧
            forall e, e ∈ later -> ¬ e.Puts key ∧ ¬ e.Removes key := by
        rcases ih hevents with ⟨before, later, heq, hlater⟩
        refine ⟨before, later ++ [e], by rw [heq, List.append_assoc, List.cons_append], ?_⟩
        intro e' he'
        rcases List.mem_append.mp he' with hold | hnew
        · exact hlater e' hold
        · rw [List.mem_singleton.mp hnew]
          exact ⟨hputs, hremoves⟩
      rw [after_snoc] at h
      cases e with
      | kept key' entry' =>
          by_cases hkey : key = key'
          · subst hkey
            simp only [apply, if_true] at h
            refine ⟨events, [], ?_, fun e he => nomatch he⟩
            rw [Option.some.inj h]
          · simp only [apply, if_neg hkey] at h
            exact hkeep (Ne.symm hkey) id h
      | dropped key' =>
          by_cases hkey : key = key'
          · simp only [apply, if_pos hkey] at h
            cases h
          · simp only [apply, if_neg hkey] at h
            exact hkeep id (Ne.symm hkey) h
      | cleared =>
          cases h

/-- Where times do not go back, a value is kept until it is taken away, or for a newer
one. -/
theorem removed_or_kept {before later : List (CacheEvent Key Value)} {key : Key}
    {entry : KeptEntry Value}
    (hlater : forall t, t ∈ later.filterMap CacheEvent.since? -> entry.since ≤ t) :
    (exists e, e ∈ later ∧ e.Removes key) ∨
      exists newest, after (before ++ CacheEvent.kept key entry :: later) key = some newest ∧
        entry.since ≤ newest.since := by
  induction later using List.reverseRecOn with
  | nil =>
      refine Or.inr ⟨entry, ?_, Nat.le_refl _⟩
      rw [after_snoc]
      exact if_pos rfl
  | append_singleton later e ih =>
      rw [List.filterMap_append] at hlater
      rcases ih fun t ht => hlater t (List.mem_append_left _ ht) with
        ⟨e', he', hremoves⟩ | ⟨newest, hnewest, hle⟩
      · exact Or.inl ⟨e', List.mem_append_left _ he', hremoves⟩
      · by_cases hremoves : e.Removes key
        · exact Or.inl ⟨e, List.mem_append_right _ List.mem_cons_self, hremoves⟩
        · right
          rw [<- List.cons_append, <- List.append_assoc, after_snoc]
          cases e with
          | kept key' entry' =>
              by_cases hkey : key = key'
              · refine ⟨entry', if_pos hkey, ?_⟩
                exact hlater _ (List.mem_append_right _ List.mem_cons_self)
              · exact ⟨newest, (if_neg hkey).trans hnewest, hle⟩
          | dropped key' =>
              exact ⟨newest, (if_neg (Ne.symm hremoves)).trans hnewest, hle⟩
          | cleared =>
              exact absurd trivial hremoves

end ExpiringCache

end HifiApi
