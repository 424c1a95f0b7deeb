import HifiApi.Accounts.Leases

/-!
# The lease that is given

What {lit}`try_lease` answers, by conditions on single accounts: whether there is
a lease, on which account, and which error there is when no account can serve.
A lease moves the counters of its account and of no other one.
-/

namespace HifiApi
namespace AccountManager
namespace LeaseRequest

variable (q : LeaseRequest)

/-- An account that may serve the request, now or when it is free. -/
structure Serves (a : AccountState) : Prop where
  active : a.isActive = true
  playback : a.isCatalog = false
  included : a.id ∉ q.excludeIds
  unpaused : rateLimitRemaining q.now a = none
  warm : a.refreshCooldown q.now = none

/-- Below the concurrency limit, not resting, and below the hourly limit. -/
structure Free (a : AccountState) : Prop where
  slot : q.rules.concurrency = 0 ∨ a.poolInflight < q.rules.concurrency
  rested : a.restUntilMs ≤ q.nowMs
  hourly : q.rules.perHour = 0 ∨ a.requestsLastHour q.nowMs < q.rules.perHour

/-- An account of the pool that the request does not exclude is paused. -/
def Paused (a : AccountState) (seconds : Nat) : Prop :=
  a.isActive = true ∧ a.isCatalog = false ∧ a.id ∉ q.excludeIds ∧
    rateLimitRemaining q.now a = some seconds

/-- An account of the pool that is not paused waits for a token refresh. -/
def CoolsDown (a : AccountState) (seconds : Nat) : Prop :=
  a.isActive = true ∧ a.isCatalog = false ∧
    rateLimitRemaining q.now a = none ∧ a.refreshCooldown q.now = some seconds

/-- The shortest of the waits of some accounts. -/
structure Shortest (waits : AccountState -> Nat -> Prop)
    (accounts : List AccountState) (seconds : Nat) : Prop where
  mem : exists a, a ∈ accounts ∧ waits a seconds
  least : forall a n, a ∈ accounts -> waits a n -> seconds ≤ n

/-- What {lit}`try_lease` answers for a roster. -/
structure Specified (cells : Nat -> AccountState) (roster : List Nat)
    (answer : Except AppError (Option Nat)) : Prop where
  leases : (exists p, answer = .ok (some p)) <->
    exists p, p ∈ roster ∧ q.Serves (cells p) ∧ q.Free (cells p)
  least : forall p, answer = .ok (some p) ->
    p ∈ roster ∧ q.Serves (cells p) ∧ q.Free (cells p) ∧
      forall p', p' ∈ roster -> q.Serves (cells p') -> q.Free (cells p') ->
        q.rank (cells p) ≤ q.rank (cells p')
  waits : answer = .ok none <->
    (exists p, p ∈ roster ∧ q.Serves (cells p)) ∧
      forall p, p ∈ roster -> q.Serves (cells p) -> ¬ q.Free (cells p)
  fails : roster ≠ [] -> (forall p, p ∈ roster -> ¬ q.Serves (cells p)) ->
    (exists seconds, Shortest q.Paused (roster.map cells) seconds ∧
      answer = .error (.rateLimited seconds)) ∨
    (forall p n, p ∈ roster -> ¬ q.Paused (cells p) n) ∧
      ((exists seconds, Shortest q.CoolsDown (roster.map cells) seconds ∧
        answer = .error (.serviceUnavailableRetry
          "All accounts are waiting for a token refresh" seconds)) ∨
      (forall p n, p ∈ roster -> ¬ q.CoolsDown (cells p) n) ∧
        answer = .error (.serviceUnavailable
          "All accounts are inactive or have expired tokens"))

/-!
## One account
-/

theorem usable_iff {a : AccountState} : q.usable a = true <-> q.Serves a := by
  unfold usable pools excludes
  constructor
  · intro h
    simp only [Bool.and_eq_true, Bool.not_eq_true', Option.isNone_iff_eq_none,
      decide_eq_false_iff_not] at h
    exact ⟨h.left.left.left.left, h.left.left.left.right, h.right,
      h.left.left.right, h.left.right⟩
  · intro h
    simp [h.active, h.playback, h.included, h.unpaused, h.warm]

theorem admits_iff {a : AccountState} : q.admits a = true <-> q.Free a := by
  unfold admits
  constructor
  · intro h
    have hlimits := of_decide_eq_true h
    exact ⟨hlimits.left, hlimits.right.left, hlimits.right.right⟩
  · intro h
    exact decide_eq_true ⟨h.slot, h.rested, h.hourly⟩

/-- The least element of what a filter and a reading leave of a list. -/
theorem shortest_of_min? {waits : AccountState -> Nat -> Prop}
    {accounts : List AccountState} {waiting : AccountState -> Bool}
    {read : AccountState -> Option Nat}
    (hread : forall a n, (waiting a = true ∧ read a = some n) <-> waits a n) :
    (forall seconds,
      ((accounts.filter waiting).filterMap read).min? = some seconds ->
        Shortest waits accounts seconds) ∧
    (((accounts.filter waiting).filterMap read).min? = none ->
      forall a n, a ∈ accounts -> ¬ waits a n) := by
  have hmem : forall n, n ∈ (accounts.filter waiting).filterMap read <->
      exists a, a ∈ accounts ∧ waits a n := by
    intro n
    rw [List.mem_filterMap]
    constructor
    · rintro ⟨a, ha, hn⟩
      have hfiltered := List.mem_filter.mp ha
      exact ⟨a, hfiltered.left, (hread a n).mp ⟨hfiltered.right, hn⟩⟩
    · rintro ⟨a, ha, hwaits⟩
      have hboth := (hread a n).mpr hwaits
      exact ⟨a, List.mem_filter.mpr ⟨ha, hboth.left⟩, hboth.right⟩
  constructor
  · intro seconds hmin
    have hleast := List.min?_eq_some_iff.mp hmin
    constructor
    · exact (hmem seconds).mp hleast.left
    · intro a n ha hwaits
      exact hleast.right n ((hmem n).mpr ⟨a, ha, hwaits⟩)
  · intro hnone a n ha hwaits
    have hnil := List.min?_eq_none_iff.mp hnone
    have hin := (hmem n).mpr ⟨a, ha, hwaits⟩
    rw [hnil] at hin
    cases hin

theorem shortestPause_spec (accounts : List AccountState) :
    (forall seconds, q.shortestPause accounts = some seconds ->
      Shortest q.Paused accounts seconds) ∧
    (q.shortestPause accounts = none ->
      forall a n, a ∈ accounts -> ¬ q.Paused a n) := by
  apply shortest_of_min?
  intro a n
  simp [Paused, pools, excludes, and_assoc]

theorem shortestCooldown_spec (accounts : List AccountState) :
    (forall seconds, q.shortestCooldown accounts = some seconds ->
      Shortest q.CoolsDown accounts seconds) ∧
    (q.shortestCooldown accounts = none ->
      forall a n, a ∈ accounts -> ¬ q.CoolsDown a n) := by
  apply shortest_of_min?
  intro a n
  simp [CoolsDown, pools, and_assoc]

/-!
## The answer
-/

section Answer

variable {cells : Nat -> AccountState} {roster : List Nat}

/-- The accounts that a lease is chosen from. -/
theorem mem_eligible {p : Nat} :
    (p ∈ (roster.filter fun p => q.usable (cells p)).filter
      fun p => q.admits (cells p)) <->
      p ∈ roster ∧ q.Serves (cells p) ∧ q.Free (cells p) := by
  rw [List.mem_filter, List.mem_filter, usable_iff, admits_iff, and_assoc]

theorem eligible_ne_nil :
    ((roster.filter fun p => q.usable (cells p)).filter
      fun p => q.admits (cells p)) ≠ [] <->
      exists p, p ∈ roster ∧ q.Serves (cells p) ∧ q.Free (cells p) := by
  constructor
  · intro h
    rcases List.exists_mem_of_ne_nil _ h with ⟨p, hp⟩
    exact ⟨p, q.mem_eligible.mp hp⟩
  · rintro ⟨p, hp⟩
    exact List.ne_nil_of_mem (q.mem_eligible.mpr hp)

theorem usable_ne_nil :
    (roster.filter fun p => q.usable (cells p)) ≠ [] <->
      exists p, p ∈ roster ∧ q.Serves (cells p) := by
  constructor
  · intro h
    rcases List.exists_mem_of_ne_nil _ h with ⟨p, hp⟩
    have hmem := List.mem_filter.mp hp
    exact ⟨p, hmem.left, q.usable_iff.mp hmem.right⟩
  · rintro ⟨p, hp, hserves⟩
    exact List.ne_nil_of_mem
      (List.mem_filter.mpr ⟨hp, q.usable_iff.mpr hserves⟩)

/-- Some account can serve at once: there is a lease. -/
theorem tryLease_of_free {rrSeq : U64}
    (h : exists p, p ∈ roster ∧ q.Serves (cells p) ∧ q.Free (cells p)) :
    exists p, tryLease q cells roster rrSeq = .ok (some p) := by
  have heligible := q.eligible_ne_nil.mpr h
  have hroster : roster ≠ [] := by
    rcases h with ⟨p, hp, _⟩
    exact List.ne_nil_of_mem hp
  unfold tryLease
  rw [if_neg hroster]
  dsimp only
  rw [if_neg (fun hboth => heligible hboth.left), if_neg heligible]
  rcases Turns.exists_head? (fun p => q.rank (cells p)) rrSeq.val heligible with
    ⟨p, hp⟩
  exact ⟨p, congrArg Except.ok hp⟩

/-- Accounts can serve, but none of them at once: the request waits. -/
theorem tryLease_of_busy {rrSeq : U64}
    (hserves : exists p, p ∈ roster ∧ q.Serves (cells p))
    (hbusy : forall p, p ∈ roster -> q.Serves (cells p) ->
      ¬ q.Free (cells p)) : tryLease q cells roster rrSeq = .ok none := by
  have husable := q.usable_ne_nil.mpr hserves
  have heligible : ¬ ((roster.filter fun p => q.usable (cells p)).filter
      fun p => q.admits (cells p)) ≠ [] := by
    intro h
    rcases q.eligible_ne_nil.mp h with ⟨p, hp, hserve, hfree⟩
    exact hbusy p hp hserve hfree
  have hroster : roster ≠ [] := by
    rcases hserves with ⟨p, hp, _⟩
    exact List.ne_nil_of_mem hp
  unfold tryLease
  rw [if_neg hroster]
  exact if_pos ⟨not_not.mp heligible, husable⟩

/-- No account can serve: the error of the shortest wait. -/
theorem tryLease_of_none {rrSeq : U64} (hroster : roster ≠ [])
    (hnone : forall p, p ∈ roster -> ¬ q.Serves (cells p)) :
    tryLease q cells roster rrSeq =
      match q.shortestPause (roster.map cells) with
      | some seconds => .error (.rateLimited seconds)
      | none =>
          match q.shortestCooldown (roster.map cells) with
          | some seconds =>
              .error (.serviceUnavailableRetry
                "All accounts are waiting for a token refresh" seconds)
          | none =>
              .error (.serviceUnavailable
                "All accounts are inactive or have expired tokens") := by
  have husable : (roster.filter fun p => q.usable (cells p)) = [] := by
    by_contra h
    rcases q.usable_ne_nil.mp h with ⟨p, hp, hserves⟩
    exact hnone p hp hserves
  unfold tryLease
  rw [if_neg hroster, husable]
  rfl

theorem specified_tryLease (cells : Nat -> AccountState) (roster : List Nat)
    (rrSeq : U64) : q.Specified cells roster (tryLease q cells roster rrSeq) := by
  constructor
  · constructor
    · rintro ⟨p, hp⟩
      have hchosen := tryLease_eq_some hp
      exact ⟨p, hchosen.left, q.usable_iff.mp hchosen.right.left,
        q.admits_iff.mp hchosen.right.right.left⟩
    · exact q.tryLease_of_free
  · intro p hp
    have hchosen := tryLease_eq_some hp
    refine ⟨hchosen.left, q.usable_iff.mp hchosen.right.left,
      q.admits_iff.mp hchosen.right.right.left, ?_⟩
    intro p' hp' hserves hfree
    exact hchosen.right.right.right p' hp' (q.usable_iff.mpr hserves)
      (q.admits_iff.mpr hfree)
  · constructor
    · intro hwaits
      have hbusy : forall p, p ∈ roster -> q.Serves (cells p) ->
          ¬ q.Free (cells p) := by
        intro p hp hserves hfree
        have hpicked : exists p, tryLease q cells roster rrSeq = .ok (some p) :=
          q.tryLease_of_free ⟨p, hp, hserves, hfree⟩
        rcases hpicked with ⟨p', hp'⟩
        rw [hwaits] at hp'
        cases hp'
      by_contra hnot
      have hnone : forall p, p ∈ roster -> ¬ q.Serves (cells p) :=
        fun p hp hserves => hnot ⟨⟨p, hp, hserves⟩, hbusy⟩
      by_cases hroster : roster = []
      · rw [tryLease, if_pos hroster] at hwaits
        cases hwaits
      · rw [q.tryLease_of_none hroster hnone] at hwaits
        split at hwaits
        · cases hwaits
        · split at hwaits <;> cases hwaits
    · rintro ⟨hserves, hbusy⟩
      exact q.tryLease_of_busy hserves hbusy
  · intro hroster hnone
    rw [q.tryLease_of_none hroster hnone]
    have hpause := q.shortestPause_spec (roster.map cells)
    have hcooldown := q.shortestCooldown_spec (roster.map cells)
    split
    · rename_i seconds hseconds
      exact Or.inl ⟨seconds, hpause.left seconds hseconds, rfl⟩
    · rename_i hunpaused
      right
      constructor
      · intro p n hp
        exact hpause.right hunpaused _ n (List.mem_map_of_mem hp)
      · split
        · rename_i seconds hseconds
          exact Or.inl ⟨seconds, hcooldown.left seconds hseconds, rfl⟩
        · rename_i hwarm
          right
          constructor
          · intro p n hp
            exact hcooldown.right hwarm _ n (List.mem_map_of_mem hp)
          · rfl

end Answer

end LeaseRequest
end AccountManager

/-!
## The counters
-/

namespace LeasedRoster

open AccountManager

/-- A lease leaves the records of the other accounts alone, and its drop gives
its slot back. -/
structure Takes (s : LeasedRoster) (q : LeaseRequest) (s' : LeasedRoster) :
    Prop where
  others : forall p,
    tryLease q s.memory.cells s.memory.roster s.rrSeq ≠ .ok (some p) ->
    s'.memory.cells p = s.memory.cells p
  drop : forall p nowMs,
    tryLease q s.memory.cells s.memory.roster s.rrSeq = .ok (some p) ->
    exists s'', s'.step (.dropLease s.leases.length nowMs) = some s'' ∧
      forall p' kind, LeaseKind.counter kind (s''.memory.cells p') =
        kind.counter (s.memory.cells p')

theorem counter_release_leaseKind (kind kind' : LeaseKind) (p restMs : Nat)
    (nowMs dropMs : Int) (a : AccountState) :
    kind'.counter ((⟨p, kind, restMs⟩ : PlaybackLease).release dropMs
      (leaseKind kind nowMs a)) = kind'.counter a := by
  have hrest : forall b : AccountState, kind'.counter
      (if 0 < restMs then
        { b with restUntilMs := max b.restUntilMs (dropMs + restMs) }
      else b) = kind'.counter b := by
    intro b
    split
    · cases kind' <;> rfl
    · rfl
  unfold PlaybackLease.release leaseKind
  rw [LeaseKind.counter_count]
  dsimp only
  rw [hrest, LeaseKind.counter_noteSelection, LeaseKind.counter_count]
  split <;> rfl

theorem takes_of_step {s s' : LeasedRoster} {q : LeaseRequest}
    (hstep : s.step (.tryLease q) = some s') : s.Takes q s' := by
  simp only [step] at hstep
  split at hstep
  · cases hstep
  · split at hstep
    · rename_i p hchosen
      cases hstep
      constructor
      · intro p' hne
        have hother : p' ≠ p := by
          intro heq
          rw [heq] at hne
          exact hne hchosen
        exact Function.update_of_ne hother ..
      · intro p' nowMs hp'
        cases hchosen.symm.trans hp'
        have hlease : (s.leases ++ [⟨p, q.kind, q.rules.restMs⟩])[s.leases.length]? =
            some ⟨p, q.kind, q.rules.restMs⟩ := by
          simp
        refine ⟨_, congrArg (Option.map _) hlease, ?_⟩
        intro p' kind
        by_cases hp : p' = p
        · subst hp
          simp only [release, lease, Arena.write, Function.update_self]
          exact counter_release_leaseKind ..
        · simp only [release, lease, Arena.write, Function.update_of_ne hp]
    · rename_i hwaits
      cases hstep
      constructor
      · exact fun _ _ => rfl
      · intro p nowMs hp
        cases hwaits.symm.trans hp
    · rename_i error hfails
      cases hstep
      constructor
      · exact fun _ _ => rfl
      · intro p nowMs hp
        cases hfails.symm.trans hp

end LeasedRoster

/-- {lit}`try_lease` picks by its specification. -/
theorem tryLease_specified (s : LeasedRoster) (q : AccountManager.LeaseRequest) :
    q.Specified s.memory.cells s.memory.roster
      (AccountManager.tryLease q s.memory.cells s.memory.roster s.rrSeq) ∧
    forall s', s.step (.tryLease q) = some s' -> s.Takes q s' :=
  ⟨q.specified_tryLease _ _ _, fun _ hstep => LeasedRoster.takes_of_step hstep⟩

end HifiApi
