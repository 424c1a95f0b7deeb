import HifiApi.Accounts.LeaseSpec

/-!
# Equal accounts take turns

Sequential picks without limits, each lease dropped before the next one is asked
for.  The least recently used account is chosen, and a counter turns the list
before it is sorted, so that picks within one millisecond take turns as well.
-/

namespace HifiApi

/-- A request through {lit}`lease_account_excluding`, and its readings of the
clock. -/
structure SequentialPick where
  excludeIds : List String
  now : I64
  nowMs : Int
  stampMs : Int
  dropMs : Int

/-- The request has no limits, and without errors the time of last use is that of
the last pick. -/
def SequentialPick.request (k : SequentialPick) : AccountManager.LeaseRequest where
  excludeIds := k.excludeIds
  kind := .playback
  rules := ⟨0, 0, 0⟩
  now := k.now
  nowMs := k.nowMs
  lastUse := AccountState.lastPickMs

/-- The accounts of an instance, and the accounts that were picked. -/
structure TakenTurns where
  roster : LeasedRoster
  picked : List Nat

namespace TakenTurns

open AccountManager

/-- An account is picked, and its lease is dropped. -/
def step (s : TakenTurns) (k : SequentialPick) : Option TakenTurns :=
  if s.roster.replacing.isSome then none
  else
    match tryLease k.request s.roster.memory.cells s.roster.memory.roster
      s.roster.rrSeq with
    | .ok (some p) =>
        let leased := s.roster.lease { k.request with nowMs := k.stampMs } p
        (leased.step (.dropLease s.roster.leases.length k.dropMs)).map
          fun roster => ⟨roster, s.picked ++ [p]⟩
    | .ok none | .error _ => none

end TakenTurns

/-- Picks one after the other. -/
def takingTurns : System TakenTurns SequentialPick := ⟨TakenTurns.step⟩

namespace LeasedRoster

open AccountManager

/-- The accounts of the playback pool. -/
def pool (s : LeasedRoster) : List Nat :=
  s.memory.roster.filter fun p => LeaseRequest.pools (s.memory.cells p)

/-- The accounts of the pool are alike for a pick, their last use apart. -/
structure Alike (s : LeasedRoster) (k : SequentialPick) : Prop where
  included : forall p, p ∈ s.pool -> (s.memory.cells p).id ∉ k.excludeIds
  tier : forall p, p ∈ s.pool -> forall p', p' ∈ s.pool ->
    (s.memory.cells p).fullTier k.now = (s.memory.cells p').fullTier k.now
  unpaused : forall p, p ∈ s.pool ->
    rateLimitRemaining k.now (s.memory.cells p) = none
  cool : forall p, p ∈ s.pool -> rateLimitHeat k.now (s.memory.cells p) = 0
  warm : forall p, p ∈ s.pool ->
    (s.memory.cells p).refreshCooldown k.now = none
  rested : forall p, p ∈ s.pool -> (s.memory.cells p).restUntilMs ≤ k.nowMs
  idle : forall p, p ∈ s.pool -> (s.memory.cells p).poolInflight = 0

section Alike

variable {s : LeasedRoster} {k : SequentialPick} {p p' : Nat}

theorem mem_pool :
    p ∈ s.pool <-> p ∈ s.memory.roster ∧ LeaseRequest.pools (s.memory.cells p) = true :=
  List.mem_filter

theorem nodup_pool (s : LeasedRoster) : s.pool.Nodup :=
  s.memory.distinct.of_map.filter _

/-- The whole pool can serve the pick at once. -/
theorem Alike.eligible (h : s.Alike k) :
    ((s.memory.roster.filter fun p => k.request.usable (s.memory.cells p)).filter
      fun p => k.request.admits (s.memory.cells p)) = s.pool := by
  rw [List.filter_filter]
  apply List.filter_congr
  intro p hp
  by_cases hpool : LeaseRequest.pools (s.memory.cells p) = true
  · have hmem : p ∈ s.pool := mem_pool.mpr ⟨hp, hpool⟩
    have husable : k.request.usable (s.memory.cells p) = true := by
      have hincluded : k.request.excludes (s.memory.cells p) = false :=
        decide_eq_false (h.included p hmem)
      have hunpaused : rateLimitRemaining k.request.now (s.memory.cells p) = none :=
        h.unpaused p hmem
      have hwarm : (s.memory.cells p).refreshCooldown k.request.now = none :=
        h.warm p hmem
      simp [LeaseRequest.usable, hpool, hincluded, hunpaused, hwarm]
    have hadmits : k.request.admits (s.memory.cells p) = true :=
      decide_eq_true ⟨Or.inl rfl, h.rested p hmem, Or.inl rfl⟩
    rw [husable, hadmits, hpool]
    rfl
  · have hfalse := Bool.eq_false_iff.mpr hpool
    simp [LeaseRequest.usable, hfalse]

/-- Among alike accounts only the last pick counts. -/
theorem Alike.rank_le_iff (h : s.Alike k) (hp : p ∈ s.pool) (hp' : p' ∈ s.pool) :
    k.request.rank (s.memory.cells p) ≤ k.request.rank (s.memory.cells p') <->
      (s.memory.cells p).lastPickMs ≤ (s.memory.cells p').lastPickMs := by
  have htier : k.request.tier (s.memory.cells p) =
      k.request.tier (s.memory.cells p') := h.tier p hp p' hp'
  have hheat : forall q, q ∈ s.pool ->
      rateLimitHeat k.request.now (s.memory.cells q) = 0 := h.cool
  unfold LeaseRequest.rank
  rw [htier, h.idle p hp, h.idle p' hp', hheat p hp, hheat p' hp']
  simp [Prod.Lex.toLex_le_toLex, SequentialPick.request]

/-- The pick goes to the first account of the round. -/
theorem Alike.tryLease (h : s.Alike k) (hpool : s.pool ≠ [])
    (hsorted : (s.pool.rotate s.rrSeq.val).Pairwise fun p p' =>
      (s.memory.cells p).lastPickMs ≤ (s.memory.cells p').lastPickMs) :
    AccountManager.tryLease k.request s.memory.cells s.memory.roster s.rrSeq =
      .ok (s.pool.rotate s.rrSeq.val).head? := by
  have hroster : s.memory.roster ≠ [] := by
    intro hnil
    apply hpool
    rw [pool, hnil]
    rfl
  unfold AccountManager.tryLease
  rw [if_neg hroster]
  dsimp only
  rw [h.eligible, if_neg (fun hboth => hpool hboth.left), if_neg hpool,
    Turns.order_eq_rotate]
  apply hsorted.imp_of_mem
  intro p p' hp hp' hle
  exact (h.rank_le_iff (List.mem_rotate.mp hp) (List.mem_rotate.mp hp')).mpr hle

end Alike

end LeasedRoster

/-!
## One pick
-/

section Picked

variable {s s' : LeasedRoster} {k : SequentialPick} {p : Nat} {stampMs : Int}

/-- What is left of a pick once its lease is dropped. -/
structure LeasedRoster.Picked (s : LeasedRoster) (p : Nat) (stampMs : Int)
    (s' : LeasedRoster) : Prop where
  roster : s'.memory.roster = s.memory.roster
  cells : forall q, s'.memory.cells q =
    if q = p then (s.memory.cells p).noteSelection stampMs else s.memory.cells q
  replacing : s'.replacing = s.replacing
  rrSeq : s'.rrSeq = s.rrSeq.wrappingAdd 1

theorem PlaybackLease.release_leaseKind (p : Nat) (dropMs : Int)
    (a : AccountState) :
    PlaybackLease.release ⟨p, .playback, 0⟩ dropMs
      (AccountManager.leaseKind .playback stampMs a) = a.noteSelection stampMs :=
  rfl

theorem LeasedRoster.cells_lease (s : LeasedRoster)
    (q : AccountManager.LeaseRequest) (p p' : Nat) :
    (s.lease q p).memory.cells p' =
      if p' = p then AccountManager.leaseKind q.kind q.nowMs (s.memory.cells p)
      else s.memory.cells p' :=
  Arena.cells_write _ _ _ (leaseKind_id _ _ _) _

theorem LeasedRoster.cells_release (s : LeasedRoster) (i : Nat)
    (l : PlaybackLease) (nowMs : Int) (p : Nat) :
    (s.release i l nowMs).memory.cells p =
      if p = l.account then l.release nowMs (s.memory.cells l.account)
      else s.memory.cells p :=
  Arena.cells_write _ _ _ (release_id _ _ _) _

theorem TakenTurns.step_of_choice {t : TakenTurns}
    (hfree : t.roster.replacing = none)
    (hchoice : AccountManager.tryLease k.request t.roster.memory.cells
      t.roster.memory.roster t.roster.rrSeq = .ok (some p)) :
    exists roster, t.step k = some ⟨roster, t.picked ++ [p]⟩ ∧
      t.roster.Picked p k.stampMs roster := by
  have hlast : (t.roster.lease { k.request with nowMs := k.stampMs } p).leases[
      t.roster.leases.length]? = some ⟨p, .playback, 0⟩ :=
    List.getElem?_concat_length
  refine ⟨(t.roster.lease { k.request with nowMs := k.stampMs } p).release
    t.roster.leases.length ⟨p, .playback, 0⟩ k.dropMs, ?_, ?_⟩
  · unfold TakenTurns.step
    rw [hfree, hchoice]
    simp only [LeasedRoster.step, hlast, Option.map_some]
    rfl
  · constructor
    · rfl
    · intro q
      rw [LeasedRoster.cells_release, LeasedRoster.cells_lease,
        LeasedRoster.cells_lease, if_pos rfl]
      by_cases hq : q = p
      · rw [if_pos hq, if_pos hq]
        exact PlaybackLease.release_leaseKind p k.dropMs _
      · rw [if_neg hq, if_neg hq, if_neg hq]
    · rfl
    · rfl

/-- A pick does not move what does not read the picks. -/
theorem LeasedRoster.Picked.reading {Reading : Type} (h : s.Picked p stampMs s')
    (f : AccountState -> Reading)
    (hf : forall a : AccountState, f (a.noteSelection stampMs) = f a) (q : Nat) :
    f (s'.memory.cells q) = f (s.memory.cells q) := by
  rw [h.cells]
  split
  · rename_i hq
    rw [hf, hq]
  · rfl

theorem LeasedRoster.Picked.pool (h : s.Picked p stampMs s') :
    s'.pool = s.pool := by
  unfold LeasedRoster.pool
  rw [h.roster]
  apply List.filter_congr
  intro q _
  exact h.reading AccountManager.LeaseRequest.pools (fun _ => rfl) q

/-- Alike accounts stay alike. -/
theorem LeasedRoster.Alike.picked (halike : s.Alike k)
    (h : s.Picked p stampMs s') : s'.Alike k := by
  constructor
  · intro q hq
    rw [h.pool] at hq
    rw [h.reading AccountState.id fun _ => rfl]
    exact halike.included q hq
  · intro q hq q' hq'
    rw [h.pool] at hq hq'
    rw [h.reading (AccountState.fullTier k.now) fun _ => rfl,
      h.reading (AccountState.fullTier k.now) fun _ => rfl]
    exact halike.tier q hq q' hq'
  · intro q hq
    rw [h.pool] at hq
    rw [h.reading (AccountManager.rateLimitRemaining k.now) fun _ => rfl]
    exact halike.unpaused q hq
  · intro q hq
    rw [h.pool] at hq
    rw [h.reading (AccountManager.rateLimitHeat k.now) fun _ => rfl]
    exact halike.cool q hq
  · intro q hq
    rw [h.pool] at hq
    rw [h.reading (AccountState.refreshCooldown k.now) fun _ => rfl]
    exact halike.warm q hq
  · intro q hq
    rw [h.pool] at hq
    rw [h.reading AccountState.restUntilMs fun _ => rfl]
    exact halike.rested q hq
  · intro q hq
    rw [h.pool] at hq
    rw [h.reading AccountState.poolInflight fun _ => rfl]
    exact halike.idle q hq

end Picked

/-!
## All picks
-/

namespace TakenTurns

/-- The accounts of the pool are in a round, and no pick is in the future. -/
structure InTurn (t : TakenTurns) (latestMs : Int) : Prop where
  free : t.roster.replacing = none
  nonempty : t.roster.pool ≠ []
  latest : forall p, p ∈ t.roster.pool ->
    (t.roster.memory.cells p).lastPickMs ≤ latestMs
  round : Turns.Round (fun p => (t.roster.memory.cells p).lastPickMs)
    (fun p => t.picked.count p) t.roster.rrSeq.val t.roster.pool

variable {t : TakenTurns} {latestMs : Int} {k : SequentialPick}

theorem InTurn.pick (h : t.InTurn latestMs) (halike : t.roster.Alike k)
    (hclock : latestMs ≤ k.stampMs)
    (hseq : t.roster.rrSeq.val + 1 < 18446744073709551616) :
    exists p t', t.step k = some t' ∧ t'.picked = t.picked ++ [p] ∧
      t.roster.Picked p k.stampMs t'.roster ∧ t'.InTurn k.stampMs := by
  have hrotate : t.roster.pool.rotate t.roster.rrSeq.val ≠ [] := by
    intro hnil
    exact h.nonempty (List.rotate_eq_nil_iff.mp hnil)
  have hhead := List.head?_eq_some_head hrotate
  have hchoice := halike.tryLease h.nonempty h.round.stamps
  rw [hhead] at hchoice
  rcases step_of_choice h.free hchoice with ⟨roster, hstep, hpicked⟩
  refine ⟨_, _, hstep, rfl, hpicked, ?_⟩
  constructor
  · exact hpicked.replacing.trans h.free
  · dsimp only
    rw [hpicked.pool]
    exact h.nonempty
  · intro q hq
    dsimp only at hq ⊢
    rw [hpicked.pool] at hq
    rw [hpicked.cells]
    split
    · exact Int.le_refl _
    · exact Int.le_trans (h.latest q hq) hclock
  · dsimp only
    rw [hpicked.pool, hpicked.rrSeq, U64.wrappingAdd_val_of_lt hseq]
    refine h.round.next t.roster.nodup_pool hhead ?_ ?_ ?_ ?_
    · intro q hq
      rw [hpicked.cells, if_pos rfl]
      exact Int.le_trans (h.latest q hq) hclock
    · intro q _ hne
      rw [hpicked.cells, if_neg hne]
    · rw [List.count_append, List.count_singleton_self]
    · intro q _ hne
      rw [List.count_append, List.count_singleton, beq_eq_false_iff_ne.mpr hne.symm]
      rfl

/-- Every pick of a sequence finds an account, and the shares stay even. -/
theorem InTurn.run {picks : List SequentialPick} (h : t.InTurn latestMs)
    (halike : forall k, k ∈ picks -> t.roster.Alike k)
    (hclock : (latestMs :: picks.map SequentialPick.stampMs).Pairwise (· ≤ ·))
    (hseq : t.roster.rrSeq.val + picks.length < 18446744073709551616) :
    exists t', takingTurns.run t picks = some t' ∧
      t'.picked.length = t.picked.length + picks.length ∧
      t'.roster.pool = t.roster.pool ∧ exists endMs, t'.InTurn endMs := by
  induction picks generalizing t latestMs with
  | nil =>
      exact ⟨t, rfl, rfl, rfl, latestMs, h⟩
  | cons k rest ih =>
      have hnow := List.pairwise_cons.mp hclock
      have hfirst : latestMs ≤ k.stampMs := hnow.left k.stampMs (by simp)
      rcases h.pick (halike k (by simp)) hfirst (by simp at hseq; omega) with
        ⟨p, next, hstep, hgrown, hpicked, hnext⟩
      have hseqNext : next.roster.rrSeq.val = t.roster.rrSeq.val + 1 := by
        rw [hpicked.rrSeq]
        exact U64.wrappingAdd_val_of_lt (by simp at hseq; omega)
      rcases ih hnext (fun k' hk' => (halike k' (by simp [hk'])).picked hpicked)
        hnow.right (by simp at hseq; omega) with ⟨t', hrun, hlength, hpool, hend⟩
      refine ⟨t', System.run_cons_some.mpr ⟨next, hstep, hrun⟩, ?_, ?_, hend⟩
      · rw [hlength, hgrown, List.length_append, List.length_singleton,
          List.length_cons]
        omega
      · rw [hpool, hpicked.pool]

end TakenTurns

/-- Alike accounts are picked equally often, whatever the counter and the clock
start from. -/
theorem alike_takeTurns (s : LeasedRoster) (lastMs : Int)
    (picks : List SequentialPick) (hfree : s.replacing = none)
    (hpool : s.pool ≠ [])
    (hlast : forall p, p ∈ s.pool -> (s.memory.cells p).lastPickMs = lastMs)
    (halike : forall k, k ∈ picks -> s.Alike k)
    (hclock : (lastMs :: picks.map SequentialPick.stampMs).Pairwise (· ≤ ·))
    (hseq : s.rrSeq.val + picks.length < 18446744073709551616) :
    exists t, takingTurns.run ⟨s, []⟩ picks = some t ∧
      t.picked.length = picks.length ∧
      forall p p', p ∈ s.pool -> p' ∈ s.pool ->
        t.picked.count p ≤ t.picked.count p' + 1 := by
  have hstart : TakenTurns.InTurn ⟨s, []⟩ lastMs := by
    refine ⟨hfree, hpool, fun p hp => le_of_eq (hlast p hp), ?_⟩
    apply Turns.round_of_equal
    intro p p' hp hp'
    dsimp only
    rw [hlast p hp, hlast p' hp']
  rcases hstart.run halike hclock hseq with ⟨t, hrun, hlength, hsame, endMs, hend⟩
  refine ⟨t, hrun, by simpa using hlength, ?_⟩
  intro p p' hp hp'
  rw [← hsame] at hp hp'
  exact hend.round.even p p' hp hp'

/-- Three accounts, and a counter that has counted before. -/
def threeAlike : LeasedRoster :=
  { LeasedRoster.start
      { rows := ["a", "b", "c"].map fun id =>
          .ofAccount (NewAccount.record ⟨id, id, "c", "s", id, none⟩
            (.ofNat 1))
        distinct := by decide } with
    rrSeq := .ofNat 5 }

def equalPick (stampMs : Int) : SequentialPick :=
  ⟨[], .ofNat 100, stampMs, stampMs, stampMs⟩

theorem threeAlike_alike {stampMs : Int} (h : stampMs = 7 ∨ stampMs = 8) :
    threeAlike.Alike (equalPick stampMs) := by
  rcases h with rfl | rfl
  · constructor <;> decide
  · constructor <;> decide

theorem alike_takeTurns_threeAlike :
    exists t, takingTurns.run ⟨threeAlike, []⟩ ([7, 7, 7, 8].map equalPick) = some t ∧
      t.picked.length = 4 ∧
      forall p p', p ∈ threeAlike.pool -> p' ∈ threeAlike.pool ->
        t.picked.count p ≤ t.picked.count p' + 1 := by
  apply alike_takeTurns threeAlike 0 ([7, 7, 7, 8].map equalPick) rfl
  · decide
  · decide
  · intro k hk
    rcases List.mem_map.mp hk with ⟨stampMs, hstamp, heq⟩
    rw [← heq]
    apply threeAlike_alike
    simpa using hstamp
  · decide
  · decide

end HifiApi
