import HifiApi.Accounts.BusySlots
import HifiApi.Lib.Window

/-!
# The hourly limit

A selection looks at the picks of the last hour, and the pick it makes is stamped
with a later reading of the clock.  Old entries are dropped from a log whenever it
is read, and a log is copied when its record is replaced.  The picks of an
account are kept here in full, by its id, next to the logs.
-/

namespace HifiApi

/-- The log of picks as {lit}`requests_last_hour` leaves it. -/
def AccountState.dropOldPicks (nowMs : Int) (a : AccountState) : AccountState :=
  { a with hourPicks := Window.prune (nowMs - 3600000) a.hourPicks }

theorem AccountState.requestsLastHour_dropOldPicks (nowMs : Int)
    (a : AccountState) :
    (a.dropOldPicks nowMs).requestsLastHour nowMs = a.requestsLastHour nowMs := by
  have hprune := Window.prune_prune (nowMs - 3600000) a.hourPicks
  exact congrArg List.length hprune

/-- The picks of the last hour are counted when no limit before it decides. -/
def AccountManager.LeaseRequest.countsPicks (q : AccountManager.LeaseRequest)
    (a : AccountState) : Bool :=
  q.usable a &&
    decide ((q.rules.concurrency = 0 ∨ a.poolInflight < q.rules.concurrency) ∧
      a.restUntilMs ≤ q.nowMs ∧ q.rules.perHour ≠ 0)

/-- The accounts of an instance, and all picks that were ever made. -/
structure HourlyRoster where
  roster : LeasedRoster
  now : Int
  /-- The selection lock: an account is chosen, its lease not yet counted. -/
  chosen : Option (AccountManager.LeaseRequest × Nat)
  picks : List (String × Int)

inductive HourlyAction where
  | wait (nowMs : Int)
  /-- {lit}`try_lease` up to its choice. -/
  | select (q : AccountManager.LeaseRequest)
  /-- The lease is counted, with a reading of the clock of its own. -/
  | lease (nowMs : Int)
  /-- The admin list counts the picks of an account, to a second read before. -/
  | list (p : Nat) (now : Int)
  | other (a : LeaseAction)

namespace HourlyRoster

open AccountManager

def start (rows : Table accounts.Row accounts.rowId) (now : Int) :
    HourlyRoster where
  roster := .start rows
  now := now
  chosen := none
  picks := []

/-- All picks of an account, in their order. -/
def picksOf (s : HourlyRoster) (id : String) : List Int :=
  (s.picks.filter fun pick => pick.1 = id).map Prod.snd

/-- The logs that a selection reads, without their old entries. -/
def counted (s : HourlyRoster) (q : LeaseRequest) : LeasedRoster :=
  { s.roster with
    memory := s.roster.memory.modify
      (fun p =>
        if p ∈ s.roster.memory.roster ∧ q.countsPicks (s.roster.memory.cells p)
        then (s.roster.memory.cells p).dropOldPicks q.nowMs
        else s.roster.memory.cells p)
      (by intro p; split <;> rfl) }

/-- The log of one record, without its old entries. -/
def listed (s : HourlyRoster) (p : Nat) (now : Int) : LeasedRoster :=
  { s.roster with
    memory := s.roster.memory.write p
      ((s.roster.memory.cells p).dropOldPicks (now * 1000)) rfl }

/-- Accounts are only picked by {lit}`try_lease`, and the roster does not change
while one is chosen. -/
def allows (s : HourlyRoster) : LeaseAction -> Bool
  | .tryLease _ | .claimCatalogSlot _ _ _ => false
  | .replace _ _ _ | .restore _ _ _ => s.chosen.isNone
  | .dropLease _ _ | .dropSlot _ | .install | .abandon => true

def step (perHour : Nat) (s : HourlyRoster) : HourlyAction -> Option HourlyRoster
  | .wait nowMs => if nowMs < s.now then none else some { s with now := nowMs }
  | .select q =>
      if s.chosen.isSome ∨ s.roster.replacing.isSome ∨ q.nowMs < s.now ∨
          q.rules.perHour ≠ perHour then
        none
      else
        let roster := s.counted q
        match tryLease q roster.memory.cells roster.memory.roster roster.rrSeq with
        | .ok (some p) =>
            some { s with roster := roster, now := q.nowMs, chosen := some (q, p) }
        | .ok none | .error _ =>
            some { s with roster := roster, now := q.nowMs }
  | .lease nowMs =>
      match s.chosen with
      | none => none
      | some (q, p) =>
          if nowMs < s.now then none
          else
            some
              { roster := s.roster.lease { q with nowMs := nowMs } p
                now := nowMs
                chosen := none
                picks := s.picks ++ [((s.roster.memory.cells p).id, nowMs)] }
  | .list p now =>
      if s.now < now * 1000 then none else some { s with roster := s.listed p now }
  | .other a =>
      if s.allows a then (s.roster.step a).map fun r => { s with roster := r }
      else none

end HourlyRoster

/-- The accounts of an instance where every request has one hourly limit. -/
def hourlySystem (perHour : Nat) : System HourlyRoster HourlyAction :=
  ⟨HourlyRoster.step perHour⟩

/-!
## Logs of records
-/

/-- A rebuilt record takes over the log of picks. -/
theorem Replacement.build_hourPicks {now : I64} {a r : AccountState}
    {how : Replacement} (h : how.build now a = some r) :
    r.hourPicks = a.hourPicks := by
  cases how with
  | update label clientId clientSecret refreshToken userId =>
      cases h
      exact AccountState.carryOver_hourPicks _ a
  | adopt remote =>
      simp only [build, RemoteAccount.adopt] at h
      split at h
      · cases h
      · cases h
        exact AccountState.carryOver_hourPicks _ a

theorem LeaseKind.count_hourPicks (kind : LeaseKind) (f : Nat -> Nat)
    (a : AccountState) : (kind.count f a).hourPicks = a.hourPicks := by
  cases kind <;> rfl

theorem PlaybackLease.release_hourPicks (l : PlaybackLease) (nowMs : Int)
    (a : AccountState) : (l.release nowMs a).hourPicks = a.hourPicks := by
  rw [release, LeaseKind.count_hourPicks]
  split <;> rfl

theorem AccountManager.leaseKind_hourPicks (kind : LeaseKind) (nowMs : Int)
    (a : AccountState) :
    (leaseKind kind nowMs a).hourPicks = a.hourPicks ++ [nowMs] := by
  show (kind.count (· + 1) a).hourPicks ++ [nowMs] = _
  rw [LeaseKind.count_hourPicks]

/-!
## Complete logs
-/

section Complete

variable {now now' : Int} {picks : String -> List Int}
  {memory memory' : Arena AccountState AccountState.id}

/-- The log of a record has all picks of its account that are not an hour old. -/
def AccountState.Complete (now : Int) (picks : String -> List Int)
    (a : AccountState) : Prop :=
  Window.Recent 3600000 now (picks a.id) a.hourPicks

/-- The records in the roster have complete logs, and no other account was ever
picked. -/
structure CompleteLogs (now : Int) (picks : String -> List Int)
    (memory : Arena AccountState AccountState.id) : Prop where
  complete : forall p, p ∈ memory.roster -> (memory.cells p).Complete now picks
  unknown : forall id, id ∉ memory.keys -> picks id = []

theorem CompleteLogs.later (h : CompleteLogs now picks memory)
    (hnow : now ≤ now') : CompleteLogs now' picks memory where
  complete := fun p hp => (h.complete p hp).later hnow
  unknown := h.unknown

/-- Records are changed in place, and their logs stay complete. -/
theorem CompleteLogs.change (h : CompleteLogs now picks memory)
    (hroster : memory'.roster = memory.roster)
    (hid : forall p, (memory'.cells p).id = (memory.cells p).id)
    (hlog : forall p, p ∈ memory.roster ->
      (memory.cells p).Complete now picks -> (memory'.cells p).Complete now picks) :
    CompleteLogs now picks memory' := by
  constructor
  · intro p hp
    rw [hroster] at hp
    exact hlog p hp (h.complete p hp)
  · intro id hunknown
    apply h.unknown
    intro hknown
    apply hunknown
    rcases Arena.mem_keys.mp hknown with ⟨p, hp, hkey⟩
    apply Arena.mem_keys.mpr
    refine ⟨p, ?_, (hid p).trans hkey⟩
    rw [hroster]
    exact hp

/-- The log of a record with the same picks is as complete. -/
theorem AccountState.Complete.congr {a r : AccountState}
    (h : a.Complete now picks) (hid : r.id = a.id)
    (hlog : r.hourPicks = a.hourPicks) : r.Complete now picks := by
  unfold Complete at h ⊢
  rw [hid, hlog]
  exact h

theorem AccountState.Complete.dropOldPicks {a : AccountState}
    (h : a.Complete now picks) {nowMs : Int} (hnow : nowMs ≤ now) :
    (a.dropOldPicks nowMs).Complete now picks :=
  Window.Recent.prune h (by omega)

/-- A new record takes the place of an old one, and has a complete log. -/
theorem CompleteLogs.swap (h : CompleteLogs now picks memory) {p : Nat}
    {a : AccountState} (hp : p ∈ memory.roster)
    (hid : a.id = (memory.cells p).id) (ha : a.Complete now picks) :
    CompleteLogs now picks (memory.swap p a hid) := by
  constructor
  · intro q hq
    have hcell : (memory.swap p a hid).cells = Function.update memory.cells
        memory.fresh a := rfl
    rcases List.mem_map.mp hq with ⟨q', hq', heq⟩
    rw [hcell]
    split at heq
    · rw [← heq, Function.update_self]
      exact ha
    · rw [← heq, Function.update_of_ne (Nat.ne_of_lt (memory.bounded q' hq'))]
      exact h.complete q' hq'
  · intro id hunknown
    apply h.unknown
    intro hknown
    apply hunknown
    rcases Arena.mem_keys_iff_lookup.mp hknown with ⟨r, hr⟩
    apply Arena.mem_keys_iff_lookup.mpr
    rw [Arena.lookup_swap hid hp]
    split
    · exact ⟨a, rfl⟩
    · exact ⟨r, hr⟩

/-- An account that was not known was never picked. -/
theorem CompleteLogs.insert (h : CompleteLogs now picks memory)
    {a : AccountState} (hnew : a.id ∉ memory.keys) (hempty : a.hourPicks = []) :
    CompleteLogs now picks (memory.insert a hnew) := by
  constructor
  · intro q hq
    have hcell : (memory.insert a hnew).cells = Function.update memory.cells
        memory.fresh a := rfl
    rw [hcell]
    rcases List.mem_append.mp hq with hold | hfresh
    · rw [Function.update_of_ne (Nat.ne_of_lt (memory.bounded q hold))]
      exact h.complete q hold
    · rw [List.mem_singleton.mp hfresh, Function.update_self]
      unfold AccountState.Complete
      rw [h.unknown a.id hnew, hempty]
      exact Window.recent_refl _ _ _
  · intro id hunknown
    apply h.unknown
    intro hknown
    apply hunknown
    rcases Arena.mem_keys.mp hknown with ⟨q, hq, hkey⟩
    apply Arena.mem_keys.mpr
    refine ⟨q, List.mem_append_left _ hq, ?_⟩
    show (Function.update memory.cells memory.fresh a q).id = id
    rw [Function.update_of_ne (Nat.ne_of_lt (memory.bounded q hq))]
    exact hkey

end Complete

/-!
## Steps
-/

namespace HourlyRoster

open AccountManager

/-- Every log is complete, the chosen account has a pick left, and no window has
more picks than the limit. -/
structure Limited (perHour : Nat) (s : HourlyRoster) : Prop where
  logs : CompleteLogs s.now s.picksOf s.roster.memory
  rebuilt : forall p a, s.roster.replacing = some (p, a) ->
    p ∈ s.roster.memory.roster ∧ a.id = (s.roster.memory.cells p).id ∧
      a.Complete s.now s.picksOf
  room : forall q p, s.chosen = some (q, p) ->
    s.roster.replacing = none ∧ p ∈ s.roster.memory.roster ∧
      Window.after (s.now - 3600000) (s.picksOf (s.roster.memory.cells p).id) <
        perHour
  windows : forall id, Window.Bounded 3600000 perHour (s.picksOf id)

section Limited

variable {perHour : Nat} {s s' : HourlyRoster} {nowMs : Int}

theorem Limited.wait (h : s.Limited perHour) (hnow : s.now ≤ nowMs) :
    Limited perHour { s with now := nowMs } := by
  constructor
  · exact h.logs.later hnow
  · intro p a hreplacing
    rcases h.rebuilt p a hreplacing with ⟨hp, hid, hcomplete⟩
    exact ⟨hp, hid, Window.Recent.later hcomplete hnow⟩
  · intro q p hchosen
    rcases h.room q p hchosen with ⟨hfree, hp, hless⟩
    refine ⟨hfree, hp, ?_⟩
    have hcutoff : s.now - 3600000 ≤ nowMs - 3600000 := by omega
    have hle := Window.after_le_of_le hcutoff
      (s.picksOf (s.roster.memory.cells p).id)
    exact Nat.lt_of_le_of_lt hle hless
  · exact h.windows

/-- Records are changed in place, and nothing is picked. -/
theorem Limited.change (h : s.Limited perHour)
    {memory : Arena AccountState AccountState.id} {leases : List PlaybackLease}
    {slots : List Nat} {restEnds : String -> Int}
    (hlogs : CompleteLogs s.now s.picksOf memory)
    (hroster : memory.roster = s.roster.memory.roster)
    (hid : forall p, (memory.cells p).id = (s.roster.memory.cells p).id) :
    Limited perHour
      { s with
        roster :=
          { s.roster with
            memory := memory
            leases := leases
            slots := slots
            restEnds := restEnds } } := by
  constructor
  · exact hlogs
  · intro p a hreplacing
    rcases h.rebuilt p a hreplacing with ⟨hp, ha, hcomplete⟩
    refine ⟨?_, ha.trans (hid p).symm, hcomplete⟩
    rw [hroster]
    exact hp
  · intro q p hchosen
    rcases h.room q p hchosen with ⟨hfree, hp, hless⟩
    refine ⟨hfree, ?_, ?_⟩
    · rw [hroster]
      exact hp
    · show Window.after (s.now - 3600000) (s.picksOf (memory.cells p).id) < perHour
      rw [hid]
      exact hless
  · exact h.windows

theorem Limited.counted (h : s.Limited perHour) (q : LeaseRequest)
    (hnow : q.nowMs ≤ s.now) :
    Limited perHour { s with roster := s.counted q } := by
  apply h.change
  · refine h.logs.change ?_ ?_ ?_
    · rfl
    · intro p
      show (if _ then _ else _ : AccountState).id = _
      split <;> rfl
    · intro p _ hcomplete
      show (if _ then _ else _ : AccountState).Complete _ _
      split
      · exact hcomplete.dropOldPicks hnow
      · exact hcomplete
  · rfl
  · intro p
    show (if _ then _ else _ : AccountState).id = _
    split <;> rfl

theorem id_write {memory : Arena AccountState AccountState.id} {p : Nat}
    {r : AccountState} (hid : r.id = (memory.cells p).id) (p' : Nat) :
    ((memory.write p r hid).cells p').id = (memory.cells p').id := by
  rw [Arena.cells_write]
  split
  · rename_i heq
    rw [heq]
    exact hid
  · rfl

/-- One record is changed in place, and its log stays complete. -/
theorem Limited.write (h : s.Limited perHour) {p : Nat} {r : AccountState}
    (hid : r.id = (s.roster.memory.cells p).id)
    (hlog : (s.roster.memory.cells p).Complete s.now s.picksOf ->
      r.Complete s.now s.picksOf)
    (leases : List PlaybackLease) (slots : List Nat) (restEnds : String -> Int) :
    Limited perHour
      { s with
        roster :=
          { s.roster with
            memory := s.roster.memory.write p r hid
            leases := leases
            slots := slots
            restEnds := restEnds } } := by
  refine h.change ?_ rfl (id_write hid)
  refine h.logs.change rfl (id_write hid) ?_
  intro p' _ hcomplete
  rw [Arena.cells_write]
  split
  · rename_i heq
    rw [heq] at hcomplete
    exact hlog hcomplete
  · exact hcomplete

theorem Limited.listed (h : s.Limited perHour) (p : Nat) {now : Int}
    (hnow : now * 1000 ≤ s.now) :
    Limited perHour { s with roster := s.listed p now } := by
  have hid : ((s.roster.memory.cells p).dropOldPicks (now * 1000)).id =
      (s.roster.memory.cells p).id := rfl
  exact h.write hid (fun hcomplete => hcomplete.dropOldPicks hnow) _ _ _

/-- A choice within the hourly limit leaves a pick of the last hour. -/
theorem Limited.choose (h : s.Limited perHour) (hpos : 0 < perHour)
    {q : LeaseRequest} {p : Nat} (hnow : q.nowMs = s.now)
    (hhour : q.rules.perHour = perHour) (hfree : s.roster.replacing = none)
    (hchoice : tryLease q s.roster.memory.cells s.roster.memory.roster
      s.roster.rrSeq = .ok (some p)) :
    Limited perHour { s with chosen := some (q, p) } := by
  rcases tryLease_eq_some hchoice with ⟨hp, _, hadmits, _⟩
  refine ⟨h.logs, h.rebuilt, ?_, h.windows⟩
  intro q' p' heq
  cases heq
  refine ⟨hfree, hp, ?_⟩
  simp only [LeaseRequest.admits, decide_eq_true_eq] at hadmits
  have hless : (s.roster.memory.cells p).requestsLastHour q.nowMs <
      q.rules.perHour := by
    rcases hadmits.right.right with hoff | hless
    · omega
    · exact hless
  have hafter := (h.logs.complete p hp).after_le
  rw [hnow, hhour] at hless
  exact Nat.lt_of_le_of_lt hafter hless

theorem picksOf_append (nowMs : Int) (s : HourlyRoster) (roster : LeasedRoster)
    (chosen : Option (LeaseRequest × Nat)) (id id' : String) :
    picksOf ⟨roster, nowMs, chosen, s.picks ++ [(id, nowMs)]⟩ id' =
      if id' = id then s.picksOf id ++ [nowMs] else s.picksOf id' := by
  unfold picksOf
  rw [List.filter_append, List.map_append]
  by_cases hid : id' = id
  · simp [hid]
  · have hne : ¬ id = id' := fun h => hid h.symm
    simp [hid, hne]

theorem Limited.lease (h : s.Limited perHour) {q : LeaseRequest} {p : Nat}
    (hchosen : s.chosen = some (q, p)) (hnow : s.now ≤ nowMs) :
    Limited perHour
      { roster := s.roster.lease { q with nowMs := nowMs } p
        now := nowMs
        chosen := none
        picks := s.picks ++ [((s.roster.memory.cells p).id, nowMs)] } := by
  rcases h.room q p hchosen with ⟨hfree, hp, hless⟩
  have hpicks := picksOf_append nowMs s
    (s.roster.lease { q with nowMs := nowMs } p) none (s.roster.memory.cells p).id
  have hkind := LeasedRoster.leaseKind_id q.kind nowMs (s.roster.memory.cells p)
  have hlater := h.logs.later hnow
  constructor
  · constructor
    · intro p' hp'
      show ((s.roster.memory.write p _ hkind).cells p').Complete _ _
      rw [Arena.cells_write]
      unfold AccountState.Complete
      rw [hpicks]
      by_cases heq : p' = p
      · rw [if_pos heq, LeasedRoster.leaseKind_id, if_pos rfl,
          leaseKind_hourPicks]
        exact (hlater.complete p hp).snoc nowMs
      · rw [if_neg heq, if_neg fun hid => heq (LeasedRoster.eq_of_id hp hp' hid)]
        exact hlater.complete p' hp'
    · intro id hunknown
      have hbefore : id ∉ s.roster.memory.keys := by
        intro hknown
        apply hunknown
        rcases Arena.mem_keys.mp hknown with ⟨p', hp', hkey⟩
        apply Arena.mem_keys.mpr
        exact ⟨p', hp', (id_write hkind p').trans hkey⟩
      rw [hpicks, if_neg]
      · exact h.logs.unknown id hbefore
      · intro heq
        apply hbefore
        exact Arena.mem_keys.mpr ⟨p, hp, heq.symm⟩
  · intro p' a hreplacing
    exact nomatch hfree.symm.trans hreplacing
  · intro q' p' heq
    cases heq
  · intro id
    rw [hpicks]
    split
    · exact (h.windows _).snoc hnow hless
    · exact h.windows id

/-- A step of the roster in which nothing is picked. -/
theorem Limited.other (h : s.Limited perHour) {a : LeaseAction}
    {roster : LeasedRoster} (hallowed : s.allows a = true)
    (hstep : s.roster.step a = some roster) :
    Limited perHour { s with roster := roster } := by
  cases a with
  | tryLease q | claimCatalogSlot limit now nowMs =>
      cases hallowed
  | dropLease i nowMs =>
      rcases Option.map_eq_some_iff.mp hstep with ⟨l, _, heq⟩
      rw [← heq]
      have hid := LeasedRoster.release_id l nowMs (s.roster.memory.cells l.account)
      have hlog := l.release_hourPicks nowMs (s.roster.memory.cells l.account)
      exact h.write hid (fun hcomplete => hcomplete.congr hid hlog) _ _ _
  | dropSlot i =>
      rcases Option.map_eq_some_iff.mp hstep with ⟨p, _, heq⟩
      rw [← heq]
      have hid : { s.roster.memory.cells p with
          catalogInflight := (s.roster.memory.cells p).catalogInflight - 1 }.id =
        (s.roster.memory.cells p).id := rfl
      exact h.write hid (fun hcomplete => hcomplete.congr hid rfl) _ _ _
  | replace id how now =>
      simp only [LeasedRoster.step] at hstep
      split at hstep
      · cases hstep
      · split at hstep
        · cases hstep
          exact h
        · rename_i p hfind
          split at hstep
          · cases hstep
            exact h
          · rename_i a hbuild
            cases hstep
            have hp := (Arena.find?_eq_some.mp hfind).left
            have hid := (Replacement.build_spec hbuild).left
            have hnone := Option.isNone_iff_eq_none.mp hallowed
            refine ⟨h.logs, ?_, ?_, h.windows⟩
            · intro q r heq
              cases heq
              refine ⟨hp, hid, ?_⟩
              have hcomplete := h.logs.complete p hp
              unfold AccountState.Complete at hcomplete ⊢
              rw [hid, Replacement.build_hourPicks hbuild]
              exact hcomplete
            · intro q r heq
              cases hnone.symm.trans heq
  | install =>
      simp only [LeasedRoster.step] at hstep
      split at hstep
      · cases hstep
      · rename_i p a hreplacing
        split at hstep
        · rename_i hid
          cases hstep
          rcases h.rebuilt p a hreplacing with ⟨hp, _, hcomplete⟩
          refine ⟨h.logs.swap hp hid hcomplete, ?_, ?_, h.windows⟩
          · intro q r heq
            cases heq
          · intro q r heq
            have hfree := (h.room q r heq).left
            cases hfree.symm.trans hreplacing
        · cases hstep
  | abandon =>
      simp only [LeasedRoster.step] at hstep
      split at hstep
      · rename_i hreplacing
        cases hstep
        refine ⟨h.logs, ?_, ?_, h.windows⟩
        · intro q r heq
          cases heq
        · intro q r heq
          have hfree := (h.room q r heq).left
          rw [hfree] at hreplacing
          cases hreplacing
      · cases hstep
  | restore id remote now =>
      simp only [LeasedRoster.step] at hstep
      split at hstep
      · cases hstep
      · rename_i hfree
        split at hstep
        · cases hstep
        · rename_i hunknown
          cases hstep
          have hnone := Option.isNone_iff_eq_none.mp hallowed
          refine ⟨h.logs.insert hunknown ?_, ?_, ?_, h.windows⟩
          · rfl
          · intro q r heq
            rw [Option.not_isSome_iff_eq_none.mp hfree] at heq
            cases heq
          · intro q r heq
            cases hnone.symm.trans heq

theorem Limited.step (hpos : 0 < perHour) (h : s.Limited perHour)
    {a : HourlyAction} (hstep : s.step perHour a = some s') :
    s'.Limited perHour := by
  cases a with
  | wait nowMs =>
      simp only [HourlyRoster.step] at hstep
      split at hstep
      · cases hstep
      · cases hstep
        exact h.wait (by omega)
  | select q =>
      simp only [HourlyRoster.step] at hstep
      split at hstep
      · cases hstep
      · rename_i hguard
        have hfree : s.roster.replacing = none := by
          apply Option.not_isSome_iff_eq_none.mp
          exact fun hbusy => hguard (Or.inr (Or.inl hbusy))
        have hnow : s.now ≤ q.nowMs := by
          by_contra hlate
          exact hguard (Or.inr (Or.inr (Or.inl (by omega))))
        have hhour : q.rules.perHour = perHour := by
          by_contra hother
          exact hguard (Or.inr (Or.inr (Or.inr hother)))
        have hcounted := (h.wait hnow).counted q (Int.le_refl _)
        split at hstep
        · rename_i p hchoice
          cases hstep
          exact hcounted.choose hpos rfl hhour hfree hchoice
        · cases hstep
          exact hcounted
        · cases hstep
          exact hcounted
  | lease nowMs =>
      simp only [HourlyRoster.step] at hstep
      split at hstep
      · cases hstep
      · rename_i q p hchosen
        split at hstep
        · cases hstep
        · cases hstep
          exact h.lease hchosen (by omega)
  | list p now =>
      simp only [HourlyRoster.step] at hstep
      split at hstep
      · cases hstep
      · cases hstep
        exact h.listed p (by omega)
  | other a =>
      simp only [HourlyRoster.step] at hstep
      split at hstep
      · rename_i hallowed
        rcases Option.map_eq_some_iff.mp hstep with ⟨roster, hroster, heq⟩
        rw [← heq]
        exact h.other hallowed hroster
      · cases hstep

theorem limited_start (perHour : Nat) (rows : Table accounts.Row accounts.rowId)
    (now : Int) : (start rows now).Limited perHour := by
  have hempty : (LeasedRoster.start rows).memory.Holds
      fun a => a.hourPicks = [] := by
    refine Arena.holds_ofRecords (Roster.nodup_loaded rows) ?_
    intro a ha
    rcases List.mem_map.mp ha with ⟨row, _, heq⟩
    rw [← heq]
    rfl
  constructor
  · constructor
    · intro p hp
      have hlog := hempty p ((LeasedRoster.start rows).memory.bounded p hp)
      unfold AccountState.Complete
      show Window.Recent _ _ [] ((LeasedRoster.start rows).memory.cells p).hourPicks
      rw [hlog]
      exact Window.recent_refl _ _ _
    · intro id _
      rfl
  · intro p a h
    cases h
  · intro q p h
    cases h
  · exact fun id => Window.bounded_nil _ _

end Limited

end HourlyRoster

open HourlyRoster

/-- No window of an hour has more picks of an account than the limit. -/
theorem hourlyLimit_every_window (perHour : Nat) (hpos : 0 < perHour)
    (rows : Table accounts.Row accounts.rowId) (now : Int)
    (actions : List HourlyAction) (s' : HourlyRoster)
    (hrun : (hourlySystem perHour).run (.start rows now) actions = some s')
    (id : String) (start : Int) :
    (s'.picksOf id).countP (fun t => start ≤ t ∧ t < start + 3600000) ≤
      perHour := by
  have hlimited : s'.Limited perHour :=
    System.run_invariant (I := Limited perHour)
      (fun _ _ _ h hstep => h.step hpos hstep)
      (limited_start perHour rows now) hrun
  exact hlimited.windows id start

/-- One request an hour. -/
def oneAnHour (nowMs : Int) : AccountManager.LeaseRequest where
  excludeIds := []
  kind := .metadata
  rules := ⟨0, 0, 1⟩
  now := .ofNat 100
  nowMs := nowMs
  lastUse := fun _ => 0

/-- The record is replaced after a pick, the next request finds no account, and
one after the hour does. -/
def picksTwice : List HourlyAction :=
  [.select (oneAnHour 100000),
    .lease 100005,
    .other (.replace "a" (.update (some "second") none none none none)
      (.ofNat 101)),
    .other .install,
    .select (oneAnHour 3700004),
    .list 1 3700,
    .select (oneAnHour 3700005),
    .lease 3700006]

theorem hourlyLimit_picksTwice :
    exists s', (hourlySystem 1).run (.start oneRow 0) picksTwice = some s' ∧
      s'.picksOf "a" = [100005, 3700006] ∧
      (s'.picksOf "a").countP
        (fun t => (100005 : Int) ≤ t ∧ t < 100005 + 3600000) ≤ 1 := by
  refine ⟨_, rfl, rfl, ?_⟩
  exact hourlyLimit_every_window 1 (by decide) oneRow 0 picksTwice _ rfl "a" 100005

end HifiApi
