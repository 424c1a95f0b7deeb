import HifiApi.Accounts.Leases
import Mathlib.Data.List.Perm.Basic

/-!
# Busy slots and replaced records

As long as only accounts at rest are replaced, whatever is in flight holds a
record in the roster and is counted there.  A replacement of any other account
loses what its old record counts.
-/

namespace HifiApi

/-!
## Rebuilt records
-/

/-- The counters and the rest of a record that nothing has been taken on. -/
structure AccountState.Idle (a : AccountState) : Prop where
  counters : forall kind : LeaseKind, kind.counter a = 0
  catalog : a.catalogInflight = 0
  rest : a.restUntilMs = 0

theorem AccountState.idle_new (id label clientId clientSecret refreshToken :
    String) (userId : Option String) (isActive : Bool) (notes : String) :
    (AccountState.new id label clientId clientSecret refreshToken userId isActive
      notes).Idle where
  counters := by
    intro kind
    cases kind <;> rfl
  catalog := rfl
  rest := rfl

/-- The copy of live state leaves the counters of requests in flight out. -/
theorem AccountState.Idle.carryOver {new : AccountState} (h : new.Idle)
    (old : AccountState) : (carryOver new old).Idle := by
  have hplayback := h.counters .playback
  have hmetadata := h.counters .metadata
  unfold AccountState.carryOver AccountState.setCountry
  dsimp only
  split
  · constructor
    · intro kind
      cases kind with
      | playback => exact hplayback
      | metadata => exact hmetadata
    · exact h.catalog
    · exact h.rest
  · constructor
    · intro kind
      cases kind with
      | playback => exact hplayback
      | metadata => exact hmetadata
    · exact h.catalog
    · exact h.rest

theorem Replacement.build_spec {now : I64} {a r : AccountState}
    {how : Replacement} (h : how.build now a = some r) :
    r.id = a.id ∧ r.Idle := by
  cases how with
  | update label clientId clientSecret refreshToken userId =>
      cases h
      have hidle := (AccountState.idle_new a.id (label.getD a.label)
        (clientId.getD a.clientId) (clientSecret.getD a.clientSecret)
        (refreshToken.getD a.refreshToken) (userId.or a.userId) a.isActive
        a.notes).carryOver a
      refine ⟨AccountState.carryOver_id _ _, ?_, hidle.catalog, hidle.rest⟩
      intro kind
      have hzero := hidle.counters kind
      cases kind <;> exact hzero
  | adopt remote =>
      have hid := (RemoteAccount.adopt_spec h).right.left
      simp only [build, RemoteAccount.adopt] at h
      split at h
      · cases h
      · cases h
        have hidle : (AccountState.carryOver
            (RemoteAccount.rebuild a.id remote) a).Idle :=
          (AccountState.idle_new _ _ _ _ _ _ _ _).carryOver a
        refine ⟨hid, ?_, hidle.catalog, hidle.rest⟩
        intro kind
        have hzero := hidle.counters kind
        cases kind <;> exact hzero

theorem AccountRow.idle_load (row : AccountRow) : row.load.Idle where
  counters := by
    intro kind
    cases kind <;> rfl
  catalog := rfl
  rest := rfl

theorem AccountState.idle_restore (now : I64) (id : String) (remote : Value) :
    (RemoteAccount.restore now id remote).Idle where
  counters := by
    intro kind
    cases kind <;> rfl
  catalog := rfl
  rest := rfl

/-!
## Requests on their records
-/

namespace LeasedRoster

open AccountManager

/-- Leases of a kind that hold a record. -/
def leasesOn (leases : List PlaybackLease) (p : Nat) (kind : LeaseKind) : Nat :=
  leases.countP fun l => decide (l.account = p ∧ l.kind = kind)

/-- Whatever is in flight holds a record in the roster, and is counted there. -/
structure AtHome (s : LeasedRoster) : Prop where
  leases : forall l, l ∈ s.leases -> l.account ∈ s.memory.roster
  slots : forall p, p ∈ s.slots -> p ∈ s.memory.roster
  counted : forall p, p ∈ s.memory.roster -> forall kind : LeaseKind,
    kind.counter (s.memory.cells p) = leasesOn s.leases p kind
  claimed : forall p, p ∈ s.memory.roster ->
    (s.memory.cells p).catalogInflight = s.slots.count p
  rest : forall p, p ∈ s.memory.roster ->
    s.restEnds (s.memory.cells p).id ≤ (s.memory.cells p).restUntilMs
  unknown : forall id, id ∉ s.memory.keys -> s.restEnds id ≤ 0
  replacing : forall p a, s.replacing = some (p, a) ->
    p ∈ s.memory.roster ∧ a.id = (s.memory.cells p).id ∧ a.Idle

section AtHome

variable {s s' : LeasedRoster} {p : Nat}

theorem leasesOn_append (leases : List PlaybackLease) (l : PlaybackLease)
    (p : Nat) (kind : LeaseKind) :
    leasesOn (leases ++ [l]) p kind =
      leasesOn leases p kind + if l.account = p ∧ l.kind = kind then 1 else 0 := by
  simp [leasesOn, List.countP_append]

theorem leasesOn_eraseIdx {leases : List PlaybackLease} {i : Nat}
    {l : PlaybackLease} (h : leases[i]? = some l) (p : Nat) (kind : LeaseKind) :
    leasesOn leases p kind =
      leasesOn (leases.eraseIdx i) p kind +
        if l.account = p ∧ l.kind = kind then 1 else 0 := by
  rcases List.getElem?_eq_some_iff.mp h with ⟨hlt, hl⟩
  have hperm := List.getElem_cons_eraseIdx_perm hlt
  rw [leasesOn, ← hperm.countP_eq, List.countP_cons, hl, leasesOn]
  simp

/-- The leases on a record are those of both kinds. -/
theorem countP_account (leases : List PlaybackLease) (p : Nat) :
    leases.countP (fun l => decide (l.account = p)) =
      leasesOn leases p .playback + leasesOn leases p .metadata := by
  induction leases with
  | nil =>
      rfl
  | cons l rest ih =>
      simp only [leasesOn, List.countP_cons] at ih ⊢
      rw [ih]
      cases hkind : l.kind with
      | playback =>
          by_cases hp : l.account = p
          · simp [hp]
            omega
          · simp [hp]
      | metadata =>
          by_cases hp : l.account = p
          · simp [hp]
            omega
          · simp [hp]

/-- Two records of the roster with one id are one record. -/
theorem eq_of_id {q : Nat} (hp : p ∈ s.memory.roster) (hq : q ∈ s.memory.roster)
    (h : (s.memory.cells q).id = (s.memory.cells p).id) : q = p :=
  List.inj_on_of_nodup_map s.memory.distinct hq hp h

theorem AtHome.liveLeases (h : s.AtHome) (hp : p ∈ s.memory.roster) :
    s.liveLeases (s.memory.cells p).id =
      s.leases.countP fun l => decide (l.account = p) := by
  apply List.countP_congr
  intro l hl
  simp only [decide_eq_true_eq]
  constructor
  · exact eq_of_id hp (h.leases l hl)
  · intro heq
    rw [heq]

theorem AtHome.liveSlots (h : s.AtHome) (hp : p ∈ s.memory.roster) :
    s.liveSlots (s.memory.cells p).id = s.slots.count p := by
  rw [List.count]
  apply List.countP_congr
  intro q hq
  simp only [decide_eq_true_eq, beq_iff_eq]
  constructor
  · exact eq_of_id hp (h.slots q hq)
  · intro heq
    rw [heq]

theorem AtHome.kept (h : s.AtHome) : s.Kept where
  requests := by
    intro p hp
    rw [h.liveLeases hp, countP_account, ← h.counted p hp .playback,
      ← h.counted p hp .metadata]
    rfl
  slots := by
    intro p hp
    rw [h.liveSlots hp]
    exact h.claimed p hp
  rest := h.rest

theorem AtHome.within (h : s.AtHome) (a : LeaseAction) : s.Within a := by
  have hkept := h.kept
  cases a with
  | tryLease q =>
      intro p hchoice
      rcases tryLease_eq_some hchoice with ⟨hp, _, hadmits, _⟩
      simp only [LeaseRequest.admits, decide_eq_true_eq] at hadmits
      rw [← hkept.requests p hp]
      exact ⟨hadmits.left, le_trans (hkept.rest p hp) hadmits.right.left⟩
  | claimCatalogSlot limit now nowMs =>
      intro p hclaim
      rcases claimCatalogSlot_eq_slot hclaim with ⟨hp, _, hslot, _⟩
      simp only [AccountState.hasCatalogSlot, decide_eq_true_eq] at hslot
      rw [← hkept.slots p hp]
      exact hslot
  | dropLease _ _ | dropSlot _ | replace _ _ _ | install | abandon
  | restore _ _ _ =>
      trivial

/-!
## Steps
-/

/-- A section that writes one record of the roster, and moves what holds it. -/
theorem AtHome.write (h : s.AtHome) (hp : p ∈ s.memory.roster)
    {r : AccountState} (hid : r.id = (s.memory.cells p).id)
    {leases : List PlaybackLease} {slots : List Nat} {restEnds : String -> Int}
    {rrSeq catalogRr : U64}
    (hleases : forall l, l ∈ leases -> l.account ∈ s.memory.roster)
    (hslots : forall q, q ∈ slots -> q ∈ s.memory.roster)
    (hcounted : forall kind : LeaseKind, kind.counter r = leasesOn leases p kind)
    (hothers : forall q, q ≠ p -> forall kind,
      leasesOn leases q kind = leasesOn s.leases q kind)
    (hclaimed : r.catalogInflight = slots.count p)
    (hfree : forall q, q ≠ p -> slots.count q = s.slots.count q)
    (hrest : restEnds r.id ≤ r.restUntilMs)
    (hends : forall id, id ≠ r.id -> restEnds id = s.restEnds id) :
    AtHome
      { s with
        memory := s.memory.write p r hid
        leases := leases
        slots := slots
        restEnds := restEnds
        rrSeq := rrSeq
        catalogRr := catalogRr } := by
  have hcell : (s.memory.write p r hid).cells p = r := by
    show Function.update s.memory.cells p r p = r
    rw [Function.update_self]
  have hother : forall q, q ≠ p ->
      (s.memory.write p r hid).cells q = s.memory.cells q := by
    intro q hq
    show Function.update s.memory.cells p r q = s.memory.cells q
    rw [Function.update_of_ne hq]
  have hids : forall q, ((s.memory.write p r hid).cells q).id =
      (s.memory.cells q).id := by
    intro q
    by_cases hq : q = p
    · rw [hq, hcell, hid]
    · rw [hother q hq]
  constructor
  · exact hleases
  · exact hslots
  · intro q hq kind
    by_cases heq : q = p
    · rw [heq]
      dsimp only
      rw [hcell]
      exact hcounted kind
    · dsimp only
      rw [hother q heq, hothers q heq]
      exact h.counted q hq kind
  · intro q hq
    by_cases heq : q = p
    · rw [heq]
      dsimp only
      rw [hcell]
      exact hclaimed
    · dsimp only
      rw [hother q heq, hfree q heq]
      exact h.claimed q hq
  · intro q hq
    by_cases heq : q = p
    · rw [heq]
      dsimp only
      rw [hcell]
      exact hrest
    · dsimp only
      rw [hother q heq, hends]
      · exact h.rest q hq
      · intro hsame
        exact heq (eq_of_id hp hq (hsame.trans hid))
  · intro id hunknown
    dsimp only
    rw [hends]
    · apply h.unknown
      intro hknown
      apply hunknown
      rcases Arena.mem_keys.mp hknown with ⟨q, hq, hkey⟩
      exact Arena.mem_keys.mpr ⟨q, hq, by rw [hids, hkey]⟩
    · intro hsame
      apply hunknown
      exact Arena.mem_keys.mpr ⟨p, hp, by rw [hids, hsame, hid]⟩
  · intro q a hreplacing
    rcases h.replacing q a hreplacing with ⟨hq, ha, hidle⟩
    exact ⟨hq, ha.trans (hids q).symm, hidle⟩

theorem AtHome.lease (h : s.AtHome) (q : LeaseRequest)
    (hp : p ∈ s.memory.roster) : (s.lease q p).AtHome := by
  apply h.write hp
  · intro l hl
    rcases List.mem_append.mp hl with hold | hnew
    · exact h.leases l hold
    · rw [List.mem_singleton.mp hnew]
      exact hp
  · exact h.slots
  · intro kind
    rw [leasesOn_append, leaseKind, LeaseKind.counter_noteSelection,
      LeaseKind.counter_count, h.counted p hp kind]
    by_cases hkind : kind = q.kind
    · rw [if_pos hkind, if_pos ⟨rfl, hkind.symm⟩]
    · rw [if_neg hkind, if_neg fun hand => hkind hand.right.symm]
      rfl
  · intro q' hq' kind
    rw [leasesOn_append, if_neg fun hand => hq' hand.left.symm]
    rfl
  · show (q.kind.count (· + 1) (s.memory.cells p)).catalogInflight = _
    rw [LeaseKind.count_catalogInflight]
    exact h.claimed p hp
  · exact fun _ _ => rfl
  · show s.restEnds (q.kind.count (· + 1) (s.memory.cells p)).id ≤
      (q.kind.count (· + 1) (s.memory.cells p)).restUntilMs
    rw [LeaseKind.count_id, LeaseKind.count_restUntilMs]
    exact h.rest p hp
  · exact fun _ _ => rfl

theorem AtHome.release (h : s.AtHome) {i : Nat} {l : PlaybackLease}
    (hl : s.leases[i]? = some l) (nowMs : Int) :
    (s.release i l nowMs).AtHome := by
  have hp := h.leases l (List.mem_of_getElem? hl)
  have hrested : forall kind : LeaseKind, kind.counter
      (if 0 < l.restMs then
        { s.memory.cells l.account with
          restUntilMs :=
            max (s.memory.cells l.account).restUntilMs (nowMs + l.restMs) }
      else s.memory.cells l.account) =
      kind.counter (s.memory.cells l.account) := by
    intro kind
    split
    · cases kind <;> rfl
    · rfl
  apply h.write hp
  · exact fun l' hl' => h.leases l' (List.mem_of_mem_eraseIdx hl')
  · exact h.slots
  · intro kind
    have hcount := h.counted l.account hp kind
    rw [leasesOn_eraseIdx hl] at hcount
    rw [PlaybackLease.release, LeaseKind.counter_count, hrested, hcount]
    by_cases hkind : kind = l.kind
    · rw [if_pos hkind, if_pos ⟨rfl, hkind.symm⟩]
      rfl
    · rw [if_neg hkind, if_neg fun hand => hkind hand.right.symm]
      rfl
  · intro q hq kind
    rw [leasesOn_eraseIdx hl, if_neg fun hand => hq hand.left.symm]
    rfl
  · rw [PlaybackLease.release, LeaseKind.count_catalogInflight]
    rw [← h.claimed l.account hp]
    split <;> rfl
  · exact fun _ _ => rfl
  · rw [release_id, PlaybackLease.release, LeaseKind.count_restUntilMs]
    by_cases hrest : 0 < l.restMs
    · rw [if_pos hrest, if_pos hrest, Function.update_self]
      exact le_max_right _ _
    · rw [if_neg hrest, if_neg hrest]
      exact h.rest l.account hp
  · intro id hid
    rw [release_id] at hid
    split
    · exact Function.update_of_ne hid _ _
    · rfl

theorem AtHome.claim (h : s.AtHome) (hp : p ∈ s.memory.roster) (nowMs : Int) :
    (s.claim p nowMs).AtHome := by
  apply h.write hp
  · exact h.leases
  · intro q hq
    rcases List.mem_append.mp hq with hold | hnew
    · exact h.slots q hold
    · rw [List.mem_singleton.mp hnew]
      exact hp
  · intro kind
    rw [← h.counted p hp kind]
    cases kind <;> rfl
  · exact fun _ _ _ => rfl
  · show (s.memory.cells p).catalogInflight + 1 = _
    rw [List.count_append, List.count_singleton_self, h.claimed p hp]
  · intro q hq
    rw [List.count_append, List.count_singleton, beq_eq_false_iff_ne.mpr hq.symm]
    rfl
  · exact h.rest p hp
  · exact fun _ _ => rfl

theorem AtHome.unclaim (h : s.AtHome) {i : Nat} (hi : s.slots[i]? = some p) :
    (s.unclaim i p).AtHome := by
  have hp := h.slots p (List.mem_of_getElem? hi)
  rcases List.getElem?_eq_some_iff.mp hi with ⟨hlt, heq⟩
  have hperm := List.getElem_cons_eraseIdx_perm hlt
  rw [heq] at hperm
  apply h.write hp
  · exact h.leases
  · exact fun q hq => h.slots q (List.mem_of_mem_eraseIdx hq)
  · intro kind
    rw [← h.counted p hp kind]
    cases kind <;> rfl
  · exact fun _ _ _ => rfl
  · show (s.memory.cells p).catalogInflight - 1 = _
    rw [h.claimed p hp, ← hperm.count_eq, List.count_cons_self]
    rfl
  · intro q hq
    rw [← hperm.count_eq q, List.count_cons_of_ne hq.symm]
  · exact h.rest p hp
  · exact fun _ _ => rfl

/-- Nothing is in flight on an account at rest. -/
theorem AtHome.leasesOn_eq_zero (h : s.AtHome) (hp : p ∈ s.memory.roster)
    (hpool : (s.memory.cells p).poolInflight = 0) :
    forall l, l ∈ s.leases -> l.account ≠ p := by
  intro l hl heq
  have hcount := countP_account s.leases p
  rw [← h.counted p hp .playback, ← h.counted p hp .metadata] at hcount
  have hzero : s.leases.countP (fun l => decide (l.account = p)) = 0 :=
    hcount.trans hpool
  exact List.countP_eq_zero.mp hzero l hl (decide_eq_true heq)

/-- A new record next to the others, or in the place of one at rest. -/
theorem AtHome.extend (h : s.AtHome) {memory : Arena AccountState AccountState.id}
    {a : AccountState} (ha : a.Idle) (hends : s.restEnds a.id ≤ 0)
    (hcells : memory.cells = Function.update s.memory.cells s.memory.fresh a)
    (hroster : forall q, q ∈ memory.roster ->
      q = s.memory.fresh ∨ q ∈ s.memory.roster)
    (hleases : forall l, l ∈ s.leases -> l.account ∈ memory.roster)
    (hslots : forall q, q ∈ s.slots -> q ∈ memory.roster)
    (hkeys : forall id, id ∈ s.memory.keys -> id ∈ memory.keys)
    (replacing : Option (Nat × AccountState)) (hnone : replacing = none) :
    AtHome { s with memory := memory, replacing := replacing } := by
  have hnew : memory.cells s.memory.fresh = a := by
    rw [hcells, Function.update_self]
  have hold : forall q, q ∈ s.memory.roster ->
      memory.cells q = s.memory.cells q := by
    intro q hq
    rw [hcells, Function.update_of_ne (Nat.ne_of_lt (s.memory.bounded q hq))]
  constructor
  · exact hleases
  · exact hslots
  · intro q hq kind
    rcases hroster q hq with hfresh | hbefore
    · dsimp only
      rw [hfresh, hnew, ha.counters kind]
      symm
      apply List.countP_eq_zero.mpr
      intro l hl hon
      have hlt := s.memory.bounded l.account (h.leases l hl)
      rw [(of_decide_eq_true hon).left] at hlt
      exact Nat.lt_irrefl _ hlt
    · dsimp only
      rw [hold q hbefore]
      exact h.counted q hbefore kind
  · intro q hq
    rcases hroster q hq with hfresh | hbefore
    · dsimp only
      rw [hfresh, hnew, ha.catalog]
      symm
      apply List.count_eq_zero.mpr
      intro hslot
      exact Nat.lt_irrefl _ (s.memory.bounded _ (h.slots _ hslot))
    · dsimp only
      rw [hold q hbefore]
      exact h.claimed q hbefore
  · intro q hq
    rcases hroster q hq with hfresh | hbefore
    · dsimp only
      rw [hfresh, hnew, ha.rest]
      exact hends
    · dsimp only
      rw [hold q hbefore]
      exact h.rest q hbefore
  · exact fun id hid => h.unknown id fun hknown => hid (hkeys id hknown)
  · intro q r hr
    rw [hnone] at hr
    cases hr

theorem AtHome.swap (h : s.AtHome) {a : AccountState}
    (hreplacing : s.replacing = some (p, a))
    (hid : a.id = (s.memory.cells p).id)
    (hrest : ReplacesAtRest s .install) :
    AtHome { s with memory := s.memory.swap p a hid, replacing := none } := by
  rcases h.replacing p a hreplacing with ⟨hp, _, hidle⟩
  rcases hrest p a hreplacing with ⟨hpool, hcatalog, hends⟩
  have hkeep : forall q, q ∈ s.memory.roster -> q ≠ p ->
      q ∈ (s.memory.swap p a hid).roster := by
    intro q hq hne
    apply List.mem_map.mpr
    exact ⟨q, hq, if_neg hne⟩
  apply h.extend hidle
  · rw [hid]
    exact hends
  · rfl
  · intro q hq
    rcases List.mem_map.mp hq with ⟨q', hq', heq⟩
    split at heq
    · exact Or.inl heq.symm
    · rw [← heq]
      exact Or.inr hq'
  · intro l hl
    exact hkeep _ (h.leases l hl) (h.leasesOn_eq_zero hp hpool l hl)
  · intro q hq
    apply hkeep q (h.slots q hq)
    intro heq
    rw [h.claimed p hp] at hcatalog
    rw [heq] at hq
    exact List.count_eq_zero.mp hcatalog hq
  · intro id hknown
    rcases Arena.mem_keys_iff_lookup.mp hknown with ⟨r, hr⟩
    apply Arena.mem_keys_iff_lookup.mpr
    rw [Arena.lookup_swap hid hp]
    split
    · exact ⟨a, rfl⟩
    · exact ⟨r, hr⟩
  · rfl

theorem AtHome.step (h : s.AtHome) {a : LeaseAction} (hrest : s.ReplacesAtRest a)
    (hstep : s.step a = some s') : s'.AtHome := by
  cases a with
  | tryLease q =>
      simp only [LeasedRoster.step] at hstep
      split at hstep
      · cases hstep
      · split at hstep
        · rename_i p hchoice
          cases hstep
          exact h.lease q (tryLease_eq_some hchoice).left
        · cases hstep
          exact h
        · cases hstep
          exact h
  | dropLease i nowMs =>
      rcases Option.map_eq_some_iff.mp hstep with ⟨l, hl, heq⟩
      rw [← heq]
      exact h.release hl nowMs
  | claimCatalogSlot limit now nowMs =>
      simp only [LeasedRoster.step] at hstep
      split at hstep
      · cases hstep
      · split at hstep
        · rename_i p hclaim
          cases hstep
          exact h.claim (claimCatalogSlot_eq_slot hclaim).left nowMs
        · cases hstep
          exact ⟨h.leases, h.slots, h.counted, h.claimed, h.rest, h.unknown,
            h.replacing⟩
        · cases hstep
          exact h
  | dropSlot i =>
      rcases Option.map_eq_some_iff.mp hstep with ⟨p, hp, heq⟩
      rw [← heq]
      exact h.unclaim hp
  | replace id how now =>
      simp only [LeasedRoster.step] at hstep
      split at hstep
      · cases hstep
      · split at hstep
        · cases hstep
          exact h
        · rename_i p hfind
          split at hstep
          · cases hstep
            exact h
          · rename_i a hbuild
            cases hstep
            refine ⟨h.leases, h.slots, h.counted, h.claimed, h.rest, h.unknown, ?_⟩
            intro q r heq
            cases heq
            exact ⟨(Arena.find?_eq_some.mp hfind).left,
              Replacement.build_spec hbuild⟩
  | install =>
      simp only [LeasedRoster.step] at hstep
      split at hstep
      · cases hstep
      · rename_i p a hreplacing
        split at hstep
        · rename_i hid
          cases hstep
          exact h.swap hreplacing hid hrest
        · cases hstep
  | abandon =>
      simp only [LeasedRoster.step] at hstep
      split at hstep
      · cases hstep
        refine ⟨h.leases, h.slots, h.counted, h.claimed, h.rest, h.unknown, ?_⟩
        intro q r heq
        cases heq
      · cases hstep
  | restore id remote now =>
      simp only [LeasedRoster.step] at hstep
      split at hstep
      · cases hstep
      · rename_i hfree
        split at hstep
        · cases hstep
        · rename_i hunknown
          cases hstep
          apply h.extend
          · exact AccountState.idle_restore now id remote
          · exact h.unknown id hunknown
          · rfl
          · intro q hq
            rcases List.mem_append.mp hq with hold | hnew
            · exact Or.inr hold
            · exact Or.inl (List.mem_singleton.mp hnew)
          · exact fun l hl => List.mem_append_left _ (h.leases l hl)
          · exact fun q hq => List.mem_append_left _ (h.slots q hq)
          · intro k hknown
            rcases Arena.mem_keys_iff_lookup.mp hknown with ⟨r, hr⟩
            apply Arena.mem_keys_iff_lookup.mpr
            rw [Arena.lookup_insert hunknown]
            split
            · exact ⟨_, rfl⟩
            · exact ⟨r, hr⟩
          · exact Option.not_isSome_iff_eq_none.mp hfree

theorem atHome_start (rows : Table accounts.Row accounts.rowId) :
    (start rows).AtHome := by
  have hidle : (start rows).memory.Holds AccountState.Idle := by
    refine Arena.holds_ofRecords (Roster.nodup_loaded rows) ?_
    intro a ha
    rcases List.mem_map.mp ha with ⟨row, _, heq⟩
    rw [← heq]
    exact row.idle_load
  have hcell : forall p, p ∈ (start rows).memory.roster ->
      ((start rows).memory.cells p).Idle :=
    fun p hp => hidle p ((start rows).memory.bounded p hp)
  constructor
  · intro l hl
    cases hl
  · intro p hp
    cases hp
  · exact fun p hp kind => (hcell p hp).counters kind
  · exact fun p hp => (hcell p hp).catalog
  · exact fun p hp => Int.le_of_eq (hcell p hp).rest.symm
  · exact fun id _ => Int.le_refl 0
  · intro p a h
    cases h

/-- A replacement that leaves the counters right has found its account at
rest. -/
theorem AtHome.replacesAtRest (h : s.AtHome) {a : LeaseAction}
    (hkeeps : s.KeepsBusy a) : s.ReplacesAtRest a := by
  cases a with
  | install =>
      intro p r hreplacing
      rcases h.replacing p r hreplacing with ⟨hp, hid, hidle⟩
      have hstep : s.step .install =
          some { s with memory := s.memory.swap p r hid, replacing := none } := by
        simp only [LeasedRoster.step, hreplacing, dif_pos hid]
      have hkept := hkeeps.right _ hstep
      have hmem : s.memory.fresh ∈ (s.memory.swap p r hid).roster :=
        List.mem_map.mpr ⟨p, hp, if_pos rfl⟩
      have hnew : (s.memory.swap p r hid).cells s.memory.fresh = r := by
        show Function.update s.memory.cells s.memory.fresh r s.memory.fresh = r
        rw [Function.update_self]
      have hold : forall q, q ∈ s.memory.roster ->
          (s.memory.swap p r hid).cells q = s.memory.cells q := by
        intro q hq
        show Function.update s.memory.cells s.memory.fresh r q = _
        rw [Function.update_of_ne (Nat.ne_of_lt (s.memory.bounded q hq))]
      have hrequests := hkept.requests _ hmem
      have hslots := hkept.slots _ hmem
      have hrest := hkept.rest _ hmem
      dsimp only at hrequests hslots hrest
      rw [hnew, hid] at hrequests hslots hrest
      refine ⟨?_, ?_, ?_⟩
      · have hpool : r.poolInflight = 0 := by
          show LeaseKind.counter .playback r + LeaseKind.counter .metadata r = 0
          rw [hidle.counters, hidle.counters]
        rw [h.kept.requests p hp, ← hpool, hrequests]
        apply List.countP_congr
        intro l hl
        dsimp only
        rw [hold _ (h.leases l hl)]
      · rw [h.kept.slots p hp, ← hidle.catalog, hslots]
        apply List.countP_congr
        intro q hq
        dsimp only
        rw [hold _ (h.slots q hq)]
      · rw [hidle.rest] at hrest
        exact hrest
  | tryLease _ | dropLease _ _ | claimCatalogSlot _ _ _ | dropSlot _
  | replace _ _ _ | abandon | restore _ _ _ =>
      trivial

end AtHome

end LeasedRoster

open LeasedRoster

/-- The counters fit the requests in flight, and the limits hold, in exactly the
runs that replace the records of accounts at rest only. -/
theorem keepsBusy_iff_replacesAtRest (rows : Table accounts.Row accounts.rowId)
    (actions : List LeaseAction) :
    system.Along KeepsBusy (.start rows) actions <->
      system.Along ReplacesAtRest (.start rows) actions := by
  apply System.along_iff_of_invariant (I := AtHome)
  · exact fun s a s' h hrest hstep => h.step hrest hstep
  · intro s a h
    constructor
    · exact h.replacesAtRest
    · intro hrest
      exact ⟨h.within a, fun s' hstep => (h.step hrest hstep).kept⟩
  · exact atHome_start rows

/-- One request at a time. -/
def oneAtATime : AccountManager.LeaseRequest where
  excludeIds := []
  kind := .playback
  rules := ⟨1, 0, 0⟩
  now := .ofNat 100
  nowMs := 100000
  lastUse := fun _ => 0

/-- A label is edited while a request is in flight. -/
def editsInFlight : List LeaseAction :=
  [.tryLease oneAtATime,
    .replace "a" (.update (some "second") none none none none)
      ⟨101, by decide, by decide⟩,
    .install]

/-- After the edit the account counts no request, and one is in flight. -/
theorem not_busySlotsSurvive : ¬ BusySlotsSurvive := by
  intro h
  have hrun := h oneRow editsInFlight
  have hleased := hrun.right _ rfl
  have hreplacing := hleased.right _ rfl
  have hkept := hreplacing.left.right _ rfl
  have hbusy := hkept.requests 1 (by decide)
  revert hbusy
  decide

end HifiApi
