import HifiApi.Guards.Answers

/-!
# Bounded guards

A guard never holds more addresses than its bound.  The address that gives way
is chosen by when it was last seen; this is safe because a block ends a fixed
time after its address was last seen.
-/

namespace HifiApi

variable {Ip : Type}

namespace GuardState

/-- The bound, and the tie between the end of a block and the last sight of its
address. -/
structure Bounded (s : GuardState Ip) (r : GuardRule) : Prop where
  length_le : s.ips.rows.length ≤ maxIps
  ends : s.ips.Holds fun e => forall end_, e.2.blockedUntil = some end_ ->
    end_ = e.2.lastSeen + r.duration

theorem rows_cleanup (s : GuardState Ip) (r : GuardRule) (now : Instant) :
    (r.cleanup now s).ips.rows.Sublist s.ips.rows := by
  unfold GuardRule.cleanup
  split
  · exact List.filter_sublist
  · exact List.Sublist.refl _

theorem Bounded.cleanup {s : GuardState Ip} {r : GuardRule} (h : s.Bounded r)
    (now : Instant) : (r.cleanup now s).Bounded r where
  length_le := le_trans (rows_cleanup s r now).length_le h.length_le
  ends := fun e he => h.ends e ((rows_cleanup s r now).subset he)

/-- The victim carries no block if some entry carries none; otherwise it was
seen longest ago. -/
theorem victim_spec {s : GuardState Ip}
    (order : Table.Iteration (Ip × IpActivity)) (hrows : s.ips.rows ≠ []) :
    exists e, e ∈ s.ips.rows ∧ s.victim order = some e.1 ∧
      ((exists e', e' ∈ s.ips.rows ∧ e'.2.blockedUntil = none) ->
        e.2.blockedUntil = none) ∧
      ((forall e', e' ∈ s.ips.rows -> e'.2.blockedUntil ≠ none) ->
        forall e', e' ∈ s.ips.rows -> e.2.lastSeen ≤ e'.2.lastSeen) := by
  unfold victim
  dsimp only
  cases hfree : ((order.visit s.ips.rows).filter fun e =>
      e.2.blockedUntil.isNone).argmin fun e => e.2.lastSeen with
  | some e =>
      have hmem := List.mem_filter.mp (List.argmin_mem hfree)
      have hblocked := Option.isNone_iff_eq_none.mp hmem.right
      refine ⟨e, order.mem_visit.mp hmem.left, rfl, fun _ => hblocked, ?_⟩
      intro hall
      exact absurd hblocked (hall e (order.mem_visit.mp hmem.left))
  | none =>
      have hnone := List.argmin_eq_none.mp hfree
      rw [List.filter_eq_nil_iff] at hnone
      cases hfirst : (order.visit s.ips.rows).argmin fun e => e.2.lastSeen with
      | none =>
          have hempty := List.argmin_eq_none.mp hfirst
          exact absurd (List.Perm.nil_eq (hempty ▸ order.perm s.ips.rows)).symm hrows
      | some e =>
          have hmem := order.mem_visit.mp (List.argmin_mem hfirst)
          refine ⟨e, hmem, rfl, ?_, ?_⟩
          · rintro ⟨e', he', hblocked⟩
            exact absurd (Option.isNone_iff_eq_none.mpr hblocked)
              (hnone e' (order.mem_visit.mpr he'))
          · intro _ e' he'
            exact List.le_of_mem_argmin (f := fun e => e.2.lastSeen)
              (order.mem_visit.mpr he') hfirst

end GuardState

variable [DecidableEq Ip]

/-- A block that is running is evicted only when every block is running, and
then it is one that ends first. -/
def GuardState.EvictsSafely (s s' : GuardState Ip) (now : Instant) : Prop :=
  forall e, e ∈ s.ips.rows -> e.2.blockedAt now = true ->
    s'.activity e.1 = none ->
      forall e', e' ∈ s.ips.rows -> e'.2.blockedAt now = true ∧
        exists end_ end_', e.2.blockedUntil = some end_ ∧
          e'.2.blockedUntil = some end_' ∧ end_ ≤ end_'

namespace GuardState

variable {s : GuardState Ip} {r : GuardRule} {ip : Ip} {now : Instant}
  {order : Table.Iteration (Ip × IpActivity)}

theorem mem_of_activity {a : IpActivity} (h : s.activity ip = some a) :
    (ip, a) ∈ s.ips.rows := by
  rcases Option.map_eq_some_iff.mp h with ⟨e, he, hsnd⟩
  rcases Table.lookup_eq_some.mp he with ⟨hmem, hfst⟩
  rw [← hfst, ← hsnd]
  exact hmem

theorem activity_of_mem {e : Ip × IpActivity} (h : e ∈ s.ips.rows) :
    s.activity e.1 = some e.2 := by
  have hlookup : s.ips.lookup e.1 = some e :=
    Table.lookup_eq_some.mpr ⟨h, rfl⟩
  unfold activity
  rw [hlookup]
  rfl

theorem Bounded.delete (h : s.Bounded r) (ip : Ip) :
    (GuardState.mk (s.ips.delete ip) s.lastCleanup).Bounded r :=
  ⟨le_trans (List.length_filter_le _ _) h.length_le, h.ends.delete ip⟩

theorem rows_dropEnded (s : GuardState Ip) (ip : Ip) :
    (s.dropEnded ip).ips.rows.Sublist s.ips.rows := by
  unfold GuardState.dropEnded
  split
  · exact List.filter_sublist
  · exact List.Sublist.refl _

theorem Bounded.dropEnded (h : s.Bounded r) (ip : Ip) :
    (s.dropEnded ip).Bounded r := by
  unfold GuardState.dropEnded
  split
  · exact h.delete ip
  · exact h

theorem Bounded.makeRoom (h : s.Bounded r)
    (order : Table.Iteration (Ip × IpActivity)) (ip : Ip) :
    (s.makeRoom order ip).Bounded r := by
  unfold GuardState.makeRoom
  split
  · split
    · exact h.delete _
    · exact h
  · exact h

/-- A full map makes room by dropping one entry; otherwise nothing happens. -/
theorem makeRoom_cases (order : Table.Iteration (Ip × IpActivity)) (ip : Ip)
    (s : GuardState Ip) :
    (s.makeRoom order ip = s ∧
      ((s.activity ip).isSome = true ∨ s.ips.rows.length < maxIps)) ∨
    (s.activity ip = none ∧ maxIps ≤ s.ips.rows.length ∧
      exists e, e ∈ s.ips.rows ∧
        s.makeRoom order ip = { s with ips := s.ips.delete e.1 } ∧
        (e.2.blockedUntil ≠ none -> forall e', e' ∈ s.ips.rows ->
          e'.2.blockedUntil ≠ none ∧ e.2.lastSeen ≤ e'.2.lastSeen)) := by
  unfold makeRoom
  split
  · rename_i hfull
    have hrows : s.ips.rows ≠ [] := by
      intro hnil
      have hlength := hfull.right
      rw [hnil] at hlength
      exact absurd hlength (show ¬ maxIps ≤ 0 by decide)
    rcases victim_spec order hrows with ⟨e, he, hvictim, hnone, hfirst⟩
    refine Or.inr ⟨Option.isNone_iff_eq_none.mp hfull.left, hfull.right, e, he,
      ?_, ?_⟩
    · rw [hvictim]
    · intro hblocked e' he'
      have hall : forall e', e' ∈ s.ips.rows -> e'.2.blockedUntil ≠ none :=
        fun e' he' hfree => hblocked (hnone ⟨e', he', hfree⟩)
      exact ⟨hall e' he', hfirst hall e' he'⟩
  · rename_i hroom
    refine Or.inl ⟨rfl, ?_⟩
    cases ha : s.activity ip with
    | some a =>
        exact Or.inl rfl
    | none =>
        refine Or.inr (Nat.lt_of_not_le fun hfull => hroom ⟨?_, hfull⟩)
        rw [ha]
        rfl

/-- A block that is running gives way only when all blocks are running, to the
one that ends first. -/
theorem evictsSafely_makeRoom (order : Table.Iteration (Ip × IpActivity))
    (ip : Ip) (now : Instant) (h : s.Bounded r) :
    s.EvictsSafely (s.makeRoom order ip) now ∧
      forall e, e ∈ s.ips.rows -> (s.makeRoom order ip).activity e.1 = none ->
        maxIps ≤ s.ips.rows.length := by
  rcases makeRoom_cases order ip s with
    ⟨hsame, _⟩ | ⟨_, hfull, e, he, hdropped, hblocks⟩
  · rw [hsame]
    have hkept : forall e, e ∈ s.ips.rows -> s.activity e.1 ≠ none := by
      intro e he hgone
      rw [activity_of_mem he] at hgone
      cases hgone
    exact ⟨fun e he _ hgone => absurd hgone (hkept e he),
      fun e he hgone => absurd hgone (hkept e he)⟩
  · refine ⟨?_, fun _ _ _ => hfull⟩
    intro e₁ he₁ hrunning hgone e' he'
    have heq : e₁.1 = e.1 := by
      by_contra hne
      rw [hdropped, activity_delete, if_neg hne, activity_of_mem he₁] at hgone
      cases hgone
    have hsame : e₁.2 = e.2 := by
      have hown := activity_of_mem he₁
      rw [heq, activity_of_mem he] at hown
      exact (Option.some.inj hown).symm
    rcases (Option.any_eq_true _ _).mp hrunning with ⟨end_, hend, hlive⟩
    have hlive := of_decide_eq_true hlive
    have hended := hblocks (by rw [← hsame, hend]; exact Option.some_ne_none end_)
    rcases hended e' he' with ⟨hblocked', hseen⟩
    rcases Option.ne_none_iff_exists'.mp hblocked' with ⟨end_', hend'⟩
    have hle : end_ ≤ end_' := by
      rw [h.ends e₁ he₁ end_ hend, h.ends e' he' end_' hend', hsame]
      exact Nat.add_le_add_right hseen _
    refine ⟨?_, end_, end_', hend, hend', hle⟩
    exact (Option.any_eq_true _ _).mpr
      ⟨end_', hend', decide_eq_true (Nat.lt_of_lt_of_le hlive hle)⟩

theorem activity_makeRoom (order : Table.Iteration (Ip × IpActivity)) (ip ip' : Ip)
    (s : GuardState Ip) :
    (s.makeRoom order ip).activity ip' = s.activity ip' ∨
      (s.makeRoom order ip).activity ip' = none := by
  rcases makeRoom_cases order ip s with
    ⟨hsame, _⟩ | ⟨_, _, e, _, hdropped, _⟩
  · exact Or.inl (by rw [hsame])
  · rw [hdropped, activity_delete]
    split
    · exact Or.inr rfl
    · exact Or.inl rfl

/-- Counting an offence keeps the bound, when the address carries no block. -/
theorem Bounded.count (h : s.Bounded r)
    (hfree : forall a, s.activity ip = some a -> a.blockedUntil = none) :
    (r.count order ip now s).1.Bounded r := by
  unfold GuardRule.count
  dsimp only
  constructor
  · show (Table.put _ _).rows.length ≤ maxIps
    rw [Table.length_put]
    have hbounded := h.makeRoom order ip
    split
    · exact hbounded.length_le
    · rename_i hunknown
      rcases makeRoom_cases order ip s with
        ⟨hsame, hknown | hroom⟩ | ⟨_, _, e, he, hdropped, _⟩
      · rw [hsame] at hunknown
        exact absurd (by simpa [activity] using hknown) hunknown
      · rw [hsame]
        exact hroom
      · have hlookup : s.ips.lookup e.1 = some e :=
          Table.lookup_eq_some.mpr ⟨he, rfl⟩
        rw [hdropped]
        exact Nat.lt_of_lt_of_le
          (Table.length_delete_lt (by rw [hlookup]; rfl)) h.length_le
  · refine (h.makeRoom order ip).ends.put ?_
    intro end_ hend
    have hown : ((s.makeRoom order ip).activity ip |>.getD
        ⟨[], none, now⟩).blockedUntil = none := by
      cases ha : (s.makeRoom order ip).activity ip with
      | none => rfl
      | some a =>
          rcases activity_makeRoom order ip ip s with hsame | hgone
          · exact hfree a (hsame ▸ ha)
          · rw [hgone] at ha
            cases ha
    unfold GuardRule.record at hend ⊢
    dsimp only at hend ⊢
    split at hend
    · rename_i hlimit
      rw [if_pos hlimit]
      exact (Option.some.inj hend).symm
    · rw [hown] at hend
      cases hend

/-- One call keeps the bound and evicts safely. -/
theorem bounded_visit {counted : Bool} (h : s.Bounded r) :
    (r.visit order ip counted now s).1.Bounded r ∧
      s.EvictsSafely (r.visit order ip counted now s).1 now := by
  have hcleaned := h.cleanup now
  have hkept : forall e, e ∈ s.ips.rows -> e.2.blockedAt now = true ->
      (r.cleanup now s).activity e.1 = some e.2 := by
    intro e he hrunning
    rcases activity_cleanup s e.1 r now with hsame | ⟨a, ha, hfree, _, _⟩
    · rw [hsame]
      exact activity_of_mem he
    · rw [activity_of_mem he] at ha
      cases ha
      rw [hrunning] at hfree
      cases hfree
  unfold GuardRule.visit
  dsimp only
  cases hleft : (r.cleanup now s).left ip now with
  | some seconds =>
      refine ⟨hcleaned, fun e he hrunning hgone => ?_⟩
      rw [hkept e he hrunning] at hgone
      cases hgone
  | none =>
      have hfresh := hcleaned.dropEnded ip
      have hstays : forall e, e ∈ s.ips.rows -> e.2.blockedAt now = true ->
          ((r.cleanup now s).dropEnded ip).activity e.1 = some e.2 := by
        intro e he hrunning
        rw [activity_dropEnded]
        split
        · rename_i heq
          rcases (Option.any_eq_true _ _).mp hrunning with ⟨end_, hend, hlive⟩
          unfold left at hleft
          rw [← heq, hkept e he hrunning, Option.bind_some, hend,
            Option.filter_some, if_pos hlive] at hleft
          cases hleft
        · exact hkept e he hrunning
      cases counted with
      | false =>
          refine ⟨hfresh, fun e he hrunning hgone => ?_⟩
          rw [if_neg Bool.false_ne_true, hstays e he hrunning] at hgone
          cases hgone
      | true =>
          have hfree : forall a, ((r.cleanup now s).dropEnded ip).activity ip =
              some a -> a.blockedUntil = none := by
            intro a ha
            rw [activity_dropEnded, if_pos rfl] at ha
            exact Option.isNone_iff_eq_none.mp (Option.filter_eq_some_iff.mp ha).right
          rw [if_pos rfl]
          refine ⟨hfresh.count hfree, fun e he hrunning hgone => ?_⟩
          rcases evictsSafely_makeRoom order ip now hfresh with ⟨hsafe, hfull⟩
          have hmem := mem_of_activity (hstays e he hrunning)
          have hroom : (((r.cleanup now s).dropEnded ip).makeRoom order ip).activity
              e.1 = none := by
            unfold GuardRule.count at hgone
            dsimp only at hgone
            rw [activity_put] at hgone
            split at hgone
            · cases hgone
            · exact hgone
          -- A full map has lost nothing to the cleanup.
          have hrows : ((r.cleanup now s).dropEnded ip).ips.rows = s.ips.rows :=
            ((rows_dropEnded _ ip).trans (rows_cleanup s r now)).eq_of_length_le
              (le_trans h.length_le (hfull e hmem hroom))
          have hall := hsafe e hmem hrunning hroom
          rw [hrows] at hall
          exact hall

end GuardState

/-!
## The two guards
-/

/-- A state that the scanner guard reaches holds the bound. -/
theorem ScannerGuard.bounded_of_run {start : Instant}
    {requests : List (ScannerGuard.Request Ip)} {s : GuardState Ip}
    (h : ScannerGuard.system.run (GuardState.new start) requests = some s) :
    s.Bounded ScannerGuard.rule := by
  refine System.run_invariant (I := fun s : GuardState Ip =>
    s.Bounded ScannerGuard.rule) ?_ ?_ h
  · intro s c s' hs hstep
    cases hstep
    exact (GuardState.bounded_visit hs).left
  · exact ⟨Nat.zero_le _, fun e he => by cases he⟩

theorem AdminAuthGuard.bounded_of_run {start : Instant}
    {requests : List (AdminAuthGuard.Request Ip)} {s : GuardState Ip}
    (h : AdminAuthGuard.system.run (GuardState.new start) requests = some s) :
    s.Bounded AdminAuthGuard.rule := by
  refine System.run_invariant (I := fun s : GuardState Ip =>
    s.Bounded AdminAuthGuard.rule) ?_ ?_ h
  · intro s c s' hs hstep
    cases hstep
    cases c with
    | check ip now =>
        unfold AdminAuthGuard.serve AdminAuthGuard.check
        dsimp only
        split
        · exact hs
        · exact hs.dropEnded ip
    | failed ip now order =>
        exact (GuardState.bounded_visit hs).left
    | clear ip =>
        exact hs.delete ip
  · exact ⟨Nat.zero_le _, fun e he => by cases he⟩

/-- A check forgets nothing but a block that has ended. -/
theorem AdminAuthGuard.evictsSafely_check (s : GuardState Ip) (ip : Ip)
    (now : Instant) : s.EvictsSafely (AdminAuthGuard.check ip now s).1 now := by
  intro e he hrunning hgone
  have hown := GuardState.activity_of_mem he
  unfold AdminAuthGuard.check at hgone
  split at hgone
  · rw [hown] at hgone
    cases hgone
  · rename_i hleft
    rw [GuardState.activity_dropEnded] at hgone
    split at hgone
    · rename_i heq
      rcases (Option.any_eq_true _ _).mp hrunning with ⟨end_, hend, hlive⟩
      unfold GuardState.left at hleft
      rw [← heq, hown, Option.bind_some, hend, Option.filter_some,
        if_pos hlive] at hleft
      cases hleft
    · rw [hown] at hgone
      cases hgone

/-- Neither guard outgrows its bound, and no call evicts a running block while
another entry could give way. -/
theorem guards_evict_safely :
    (forall (start : Instant) (requests : List (ScannerGuard.Request Ip))
        (s : GuardState Ip),
      ScannerGuard.system.run (GuardState.new start) requests = some s ->
        s.ips.rows.length ≤ maxIps ∧
        forall order ip path now,
          s.EvictsSafely (ScannerGuard.check order ip path now s).1 now) ∧
    (forall (start : Instant) (requests : List (AdminAuthGuard.Request Ip))
        (s : GuardState Ip),
      AdminAuthGuard.system.run (GuardState.new start) requests = some s ->
        s.ips.rows.length ≤ maxIps ∧
        (forall ip now,
          s.EvictsSafely (AdminAuthGuard.check ip now s).1 now) ∧
        (forall order ip now,
          s.EvictsSafely (AdminAuthGuard.failed order ip now s).1 now) ∧
        forall ip ip', ip' ≠ ip ->
          (AdminAuthGuard.clear ip s).activity ip' = s.activity ip') := by
  constructor
  · intro start requests s hrun
    have hbounded := ScannerGuard.bounded_of_run hrun
    refine ⟨hbounded.length_le, fun order ip path now => ?_⟩
    exact (GuardState.bounded_visit hbounded).right
  · intro start requests s hrun
    have hbounded := AdminAuthGuard.bounded_of_run hrun
    refine ⟨hbounded.length_le, AdminAuthGuard.evictsSafely_check s,
      fun order ip now => (GuardState.bounded_visit hbounded).right, ?_⟩
    intro ip ip' hne
    exact (GuardState.activity_delete s ip ip').trans (if_neg hne)

theorem guards_evict_safely_probes :
    exists s, ScannerGuard.system.run (GuardState.new 0)
        ScannerGuard.threeProbes = some s ∧
      s.ips.rows.length ≤ maxIps ∧
      s.EvictsSafely (ScannerGuard.check (.inOrder _) 2 "/.env"
        (2 * nanosPerSec) s).1 (2 * nanosPerSec) := by
  refine ⟨_, rfl, ?_⟩
  have hguards := guards_evict_safely.left 0 ScannerGuard.threeProbes _ rfl
  exact ⟨hguards.left, hguards.right _ _ _ _⟩

end HifiApi
