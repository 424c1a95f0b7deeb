import HifiApi.Failover.Journal
import HifiApi.Failover.PoolRules

/-!
# The bounds of a request to the pool

Between two accounts the leased ones are all excluded, and the number of leases
since the first 429 follows from the number of the try.  On an account the requests
sent are those of its attempts.  Every way to leave an account leads back there.
-/

namespace HifiApi

open Prog TidalCall FailoverJournal

/-- The leases since the first 429, by the number of the next try. -/
def RateLimitFallback.Counts (n : Nat) (since : Option Nat) (r : RateLimitFallback) :
    Prop :=
  match r.firstTry with
  | none => since = none
  | some first => first < n ∧ forall k, since = some k -> k + first < n

namespace Failover

/-- Between two accounts. -/
structure Ready (count n : Nat) (s : Failover) (g : FailoverJournal) : Prop where
  count : g.count = count
  tries : g.leases.length ≤ n
  excluded : forall l, l ∈ g.leases -> l.1 ∈ s.failedIds
  limits : s.rateLimits.Counts n g.sinceLimited

/-- On an account, on which no more requests have been sent than there have been
attempts.  When the preferred account was paused there is no other try. -/
structure Holding (count n attempts : Nat) (last : Bool) (id : String) (s : Failover)
    (g : FailoverJournal) : Prop where
  count : g.count = count
  tries : g.leases.length ≤ n + 1
  lease : exists sends rest, g.leases = (id, sends) :: rest ∧ sends ≤ attempts ∧
    forall l, l ∈ rest -> l.1 ∈ s.failedIds
  limits : last = false -> s.rateLimits.Counts (n + 1) g.sinceLimited

section Steps

variable {count n attempts : Nat} {last : Bool} {id : String} {s f : Failover}
  {g : FailoverJournal} {limit : Option Nat}

theorem ready_start (count : Nat) : Ready count 0 start ⟨count, [], none, []⟩ where
  count := rfl
  tries := Nat.le_refl 0
  excluded := fun _ h => nomatch h
  limits := rfl

/-- The next lease is within the bounds. -/
theorem Ready.mayLease (h : Ready count n s g)
    (hexhausted : s.rateLimits.exhausted n = false) (hroom : n < g.room limit) :
    g.MayLease limit s.failedIds where
  excluded := h.excluded
  room := h.tries.trans_lt hroom
  fallbacks := by
    intro k hk
    have hlimits := h.limits
    unfold RateLimitFallback.Counts at hlimits
    unfold RateLimitFallback.exhausted at hexhausted
    cases hfirst : s.rateLimits.firstTry with
    | none =>
        rw [hfirst] at hlimits
        rw [hlimits] at hk
        cases hk
    | some first =>
        rw [hfirst] at hlimits hexhausted
        have hbefore := hlimits.right k hk
        have hnear := of_decide_eq_false hexhausted
        omega

theorem Ready.leased (h : Ready count n s g) (id : String) :
    Holding count n 0 last id s ((g.missing s.failedIds).leased id) := by
  rw [missing_eq h.excluded]
  constructor
  · exact h.count
  · exact Nat.succ_le_succ h.tries
  · exact ⟨0, g.leases, rfl, Nat.le_refl 0, h.excluded⟩
  · intro _
    have hlimits := h.limits
    unfold RateLimitFallback.Counts at hlimits ⊢
    cases hfirst : s.rateLimits.firstTry with
    | none =>
        rw [hfirst] at hlimits
        exact congrArg (Option.map (· + 1)) hlimits
    | some first =>
        rw [hfirst] at hlimits
        constructor
        · exact Nat.lt_succ_of_lt hlimits.left
        · intro k hk
          rcases Option.map_eq_some_iff.mp hk with ⟨before, hbefore, rfl⟩
          have hlt := hlimits.right before hbefore
          omega

theorem Holding.maySend (h : Holding count n attempts last id s g) {perAccount : Nat}
    (hroom : attempts < perAccount) : g.MaySend perAccount := by
  intro id' sends rest hleases
  rcases h.lease with ⟨sends', rest', hleases', hle, _⟩
  rw [hleases'] at hleases
  cases hleases
  exact hle.trans_lt hroom

theorem Holding.sent (h : Holding count n attempts last id s g) :
    Holding count n (attempts + 1) last id s g.sent := by
  rcases h.lease with ⟨sends, rest, hleases, hle, hexcluded⟩
  have hsent : g.sent.leases = (id, sends + 1) :: rest := by
    unfold FailoverJournal.sent
    rw [hleases]
  have hlength := h.tries
  rw [hleases] at hlength
  constructor
  · exact h.count
  · rw [hsent]
    exact hlength
  · exact ⟨sends + 1, rest, hsent, Nat.succ_le_succ hle, hexcluded⟩
  · exact h.limits

/-- An attempt that sends nothing. -/
theorem Holding.later (h : Holding count n attempts last id s g) :
    Holding count n (attempts + 1) last id s g where
  count := h.count
  tries := h.tries
  lease := by
    rcases h.lease with ⟨sends, rest, hleases, hle, hexcluded⟩
    exact ⟨sends, rest, hleases, Nat.le_succ_of_le hle, hexcluded⟩
  limits := h.limits

/-- The account that is left is among those that are excluded then. -/
theorem Holding.excluded (h : Holding count n attempts last id s g) :
    forall l, l ∈ g.leases -> l.1 ∈ s.failedIds ++ [id] := by
  intro l hl
  rcases h.lease with ⟨sends, rest, hleases, _, hexcluded⟩
  rw [hleases] at hl
  rw [List.mem_append]
  rcases List.mem_cons.mp hl with hnew | hold
  · rw [hnew]
    exact Or.inr List.mem_cons_self
  · exact Or.inl (hexcluded l hold)

theorem Holding.fail (h : Holding count n attempts false id s g) (e : AppError) :
    Ready count (n + 1) (s.fail id e) g where
  count := h.count
  tries := h.tries
  excluded := h.excluded
  limits := h.limits rfl

theorem metIf_eq {limited : Bool} {k : Nat}
    (hk : (g.metIf limited).sinceLimited = some k) :
    k = 0 ∨ g.sinceLimited = some k := by
  cases limited with
  | false =>
      exact Or.inr hk
  | true =>
      change g.sinceLimited.or (some 0) = some k at hk
      cases hsince : g.sinceLimited with
      | none =>
          rw [hsince] at hk
          cases hk
          exact Or.inl rfl
      | some since =>
          rw [hsince] at hk
          cases hk
          exact Or.inr rfl

theorem metIf_leases (g : FailoverJournal) (limited : Bool) :
    (g.metIf limited).count = g.count ∧ (g.metIf limited).leases = g.leases := by
  cases limited <;> exact ⟨rfl, rfl⟩

/-- A 429 in this try counts from here, unless there was one before. -/
theorem Holding.schedule (h : Holding count n attempts false id s g) {e : AppError}
    (hschedule : s.schedule n id e = .ok f) (limited : Bool) :
    Ready count (n + 1) f (g.metIf limited) := by
  rcases metIf_leases g limited with ⟨hcount, hleases⟩
  unfold Failover.schedule at hschedule
  dsimp only at hschedule
  split at hschedule
  · cases hschedule
  · cases hschedule
    constructor
    · exact hcount.trans h.count
    · rw [hleases]
      exact h.tries
    · rw [hleases]
      exact h.excluded
    · have hlimits := h.limits rfl
      unfold RateLimitFallback.Counts at hlimits ⊢
      cases hfirst : s.rateLimits.firstTry with
      | none =>
          rw [hfirst] at hlimits
          constructor
          · exact Nat.lt_succ_self n
          · intro k hk
            rcases metIf_eq hk with hzero | hbefore
            · omega
            · rw [hlimits] at hbefore
              cases hbefore
      | some first =>
          rw [hfirst] at hlimits
          constructor
          · exact hlimits.left
          · intro k hk
            rcases metIf_eq hk with hzero | hbefore
            · rw [hzero, Nat.zero_add]
              exact hlimits.left
            · exact hlimits.right k hbefore

end Steps

end Failover

/-!
## The rules of the pool
-/

def poolWatch (q : PoolRequest) : Watch Answer FailoverJournal :=
  watch q.attempts q.accountLimit

namespace PoolTry

/-- Between two accounts. -/
structure Ready (count n : Nat) (s : PoolTry) (g : FailoverJournal) : Prop where
  ended : s.preferredCooldownConsumed = true -> 0 < n
  ready : s.preferredCooldownConsumed = false -> s.toFailover.Ready count n g

/-- On an account. -/
def Holding (count n attempts : Nat) (id : String) (s : PoolTry)
    (g : FailoverJournal) : Prop :=
  s.toFailover.Holding count n attempts s.preferredCooldownConsumed id g

section Steps

variable {count n attempts : Nat} {id : String} {s : PoolTry} {g : FailoverJournal}

theorem Holding.fail (h : s.Holding count n attempts id g) (e : AppError) :
    (s.fail id e).Ready count (n + 1) g where
  ended := fun _ => Nat.succ_pos n
  ready := by
    intro hmore
    change s.preferredCooldownConsumed = false at hmore
    unfold Holding at h
    rw [hmore] at h
    exact h.fail e

theorem Holding.schedule (h : s.Holding count n attempts id g) {e : AppError}
    {f : Failover} (hschedule : s.schedule n id e = .ok f) :
    ({ s with toFailover := f } : PoolTry).Ready count (n + 1) g.met where
  ended := fun _ => Nat.succ_pos n
  ready := by
    intro hmore
    change s.preferredCooldownConsumed = false at hmore
    unfold Holding at h
    rw [hmore] at h
    exact h.schedule hschedule true

end Steps

section Pool

variable {q : PoolRequest} {count n : Nat} {s : PoolTry} {g : FailoverJournal}

/-- Settling PREVIEW answers is nothing that is watched. -/
theorem settleFull_keeps (a : AccountRef) (data : Value) :
    (poolWatch q).Keeps g (settleFull q a s data) fun g' _ => g' = g := by
  apply Watch.keeps_of_only (P := Settles)
  · intro g c hc
    cases c with
    | clock | resetTrafficStreak | addTrafficStreak | premiumCheckedAt
    | premiumStatus | setPremiumStatus | setPremiumCheckedAt | swapPreviewStreak
    | savePreviewStreak => exact ⟨trivial, fun _ => rfl⟩
    | _ => exact hc.elim
  · unfold settleFull
    split
    · exact only_bind (confirmFull_only a) fun _ => noteTrafficPreviews_only _
    · trivial

/-- Another account may be tried, and so may be leased. -/
theorem Ready.tries (h : s.Ready count n g) (hn : n < q.accountAttempts count)
    (htry : s.MayTry n) :
    s.preferredCooldownConsumed = false ∧ s.toFailover.Ready count n g ∧
      g.MayLease q.accountLimit s.failedIds := by
  unfold PoolTry.MayTry at htry
  rw [not_or] at htry
  have hmore : s.preferredCooldownConsumed = false := by
    cases hconsumed : s.preferredCooldownConsumed with
    | false => rfl
    | true => exact absurd ⟨hconsumed, h.ended hconsumed⟩ htry.left
  have hready := h.ready hmore
  have hroom : n < g.room q.accountLimit := by
    have hcount := hready.count
    rw [← hcount] at hn
    exact hn
  exact ⟨hmore, hready,
    hready.mayLease (Bool.eq_false_of_not_eq_true htry.right) hroom⟩

/-- No account has been leased before the first try. -/
theorem first_try (h : s.toFailover.Ready count 0 g) :
    g.leases = [] ∧ g.sinceLimited = none := by
  constructor
  · exact List.eq_nil_of_length_eq_zero (Nat.le_zero.mp h.tries)
  · have hlimits := h.limits
    unfold RateLimitFallback.Counts at hlimits
    split at hlimits
    · exact hlimits
    · exact absurd hlimits.left (Nat.not_lt_zero _)

/-- The alternative to a paused preferred account. -/
theorem Ready.diverted (h : s.Ready count 0 g) (hn : 0 < q.accountAttempts count)
    (htry : s.MayTry 0) (f : Failover) :
    g.met.MayLease q.accountLimit f.failedIds ∧
      forall id, (s.divert f).Holding count 0 0 id ((g.met.missing f.failedIds).leased id) := by
  rcases h.tries hn htry with ⟨_, hready, hmay⟩
  rcases first_try hready with ⟨hleases, hsince⟩
  have hmet : g.met.MayLease q.accountLimit f.failedIds := by
    constructor
    · intro l hl
      change l ∈ g.leases at hl
      rw [hleases] at hl
      cases hl
    · exact hmay.room
    · intro k hk
      change g.sinceLimited.or (some 0) = some k at hk
      rw [hsince] at hk
      cases hk
      exact Nat.succ_pos 1
  constructor
  · exact hmet
  · intro id
    rw [missing_eq hmet.excluded]
    constructor
    · exact hready.count
    · exact Nat.succ_le_succ hready.tries
    · constructor
      · exact ⟨g.leases, rfl, Nat.le_refl 0, by rw [hleases]; exact fun _ hl => nomatch hl⟩
    · exact fun hlast => nomatch hlast

/-- What the bounds say of a request. -/
def boundedRules (q : PoolRequest) (count : Nat) : PoolRules (poolWatch q) q count where
  Ready n s g := s.Ready count n g
  Holding n i a s g := s.Holding count n i a.id g
  Asked n i a s g := s.Holding count n (i + 1) a.id g
  Done _ := True
  met := FailoverJournal.met
  sent _ := FailoverJournal.sent
  quiet g c hc := by
    cases c with
    | healthyCount | alertAllDown | alert403 | workingClientFor | rejectRefreshedToken
    | jitter | noteSuccessFor | noteFailureFor | markAccountError | pauseAccount =>
        exact ⟨trivial, fun _ => rfl⟩
    | _ => exact hc.elim
  pauses g c hc := by
    cases c with
    | rateLimitRemaining | getToken | refreshAfterUnauthorized =>
        exact ⟨trivial, fun _ => rfl⟩
    | _ => exact hc.elim
  ended _ := ⟨trivial, trivial⟩
  left _ := ⟨trivial, trivial⟩
  later h := Failover.Holding.later h
  asked h := h
  failed h e := Holding.fail h e
  scheduled h hschedule := Holding.schedule h hschedule
  lease h hn htry := by
    rcases h.tries hn htry with ⟨hmore, hready, hmay⟩
    constructor
    · exact hmay
    · intro answer _
      cases answer with
      | ok a => exact hready.leased a.id
      | error e => trivial
  preferred {s g} a h hn htry hnone := by
    rcases h.tries hn htry with ⟨hmore, hready, hmay⟩
    have hleased : s.Holding count 0 0 a.id ((g.missing s.failedIds).leased a.id) :=
      hready.leased a.id
    rw [hnone] at hmay hleased
    exact ⟨hmay, hleased⟩
  diverted a h hn htry _ _ := by
    rcases h.diverted hn htry _ with ⟨hmay, hleased⟩
    constructor
    · exact hmay
    · intro answer _
      cases answer with
      | ok b => exact hleased b.id
      | error e => trivial
  send h hroom _ _ _ := ⟨Failover.Holding.maySend h hroom, Failover.Holding.sent h, fun _ => rfl⟩
  read {n i a s g} h := by
    constructor
    · trivial
    · intro answer _
      constructor
      · intro _
        trivial
      · intro data _
        apply (settleFull_keeps a data).mono
        intro g' _ hsame
        constructor
        · trivial
        · intro _
          rw [hsame]
          have hleft := Holding.fail h (.previewOnly
            s!"Preview only for track: account {a.id} cannot provide FULL (subscription required)")
          exact ⟨hleft.ended, hleft.ready⟩

end Pool

end PoolTry

/-- A request keeps to its watch. -/
theorem makeRequestWithLimit_keeps (q : PoolRequest) {g : FailoverJournal}
    (hfresh : g.leases = []) :
    (poolWatch q).Keeps g (makeRequestWithLimit q) fun _ _ => True := by
  apply (PoolRules.makeRequestWithLimit_keeps (PoolTry.boundedRules q) hfresh _).mono
  · intro _ _ _
    trivial
  · intro count _
    exact ⟨Bool.noConfusion, fun _ => Failover.ready_start count⟩

end HifiApi
