import HifiApi.Accounts.ConcurrentClaims

/-!
# Claims that nothing interrupts

A claim whose steps follow each other gives what the claim of the roster gives in one
step, and comes to its end as long as exchanges do not fail for no reason for ever.
Its answer is exact.
-/

namespace HifiApi

/-- An answer for the accounts as they are. -/
structure ExactClaim (limit : Nat) (roster : List Nat) (s : ClaimWorld)
    (r : CatalogClaim) : Prop where
  slot : forall p, r = .slot p ->
    p ∈ roster ∧ AccountManager.servesCatalog s.clock (s.cells p) = true ∧
      (s.cells p).hasCatalogSlot limit = true ∧
      forall q, q ∈ roster -> AccountManager.servesCatalog s.clock (s.cells q) = true ->
        (s.cells q).hasCatalogSlot limit = true ->
        AccountManager.rateLimitHeat s.clock (s.cells p) ≤
          AccountManager.rateLimitHeat s.clock (s.cells q)
  free : (exists p, r = .slot p) <-> exists p, p ∈ roster ∧
    AccountManager.servesCatalog s.clock (s.cells p) = true ∧
      (s.cells p).hasCatalogSlot limit = true
  busy : r = .busy <->
    (exists p, p ∈ roster ∧ AccountManager.servesCatalog s.clock (s.cells p) = true) ∧
      forall p, p ∈ roster -> AccountManager.servesCatalog s.clock (s.cells p) = true ->
        0 < limit ∧ limit ≤ (s.cells p).catalogInflight
  unavailable : r = .unavailable <-> forall p, p ∈ roster ->
    AccountManager.servesCatalog s.clock (s.cells p) = false

namespace ClaimWorld

/-- The claim of the roster in one step. -/
def claimAtOnce (limit : Nat) (roster : List Nat) (s : ClaimWorld) : CatalogClaim :=
  AccountManager.claimCatalogSlot limit s.clock s.cells roster s.catalogRr

section AtOnce

variable (limit : Nat) (roster : List Nat) (s : ClaimWorld)

theorem hasCatalogSlot_eq_false {a : AccountState} :
    a.hasCatalogSlot limit = false <-> 0 < limit ∧ limit ≤ a.catalogInflight := by
  rw [AccountState.hasCatalogSlot, decide_eq_false_iff_not, not_or, not_lt]
  omega

/-- The three answers, and when they are given. -/
theorem claimAtOnce_spec :
    let serving := roster.filter fun p =>
      AccountManager.servesCatalog s.clock (s.cells p)
    (serving = [] ∧ s.claimAtOnce limit roster = .unavailable) ∨
    (serving ≠ [] ∧ (forall p, p ∈ serving -> (s.cells p).hasCatalogSlot limit = false) ∧
      s.claimAtOnce limit roster = .busy) ∨
    exists p, p ∈ serving ∧ (s.cells p).hasCatalogSlot limit = true ∧
      s.claimAtOnce limit roster = .slot p := by
  dsimp only
  unfold claimAtOnce AccountManager.claimCatalogSlot
  dsimp only
  split
  · rename_i hnil
    exact Or.inl ⟨hnil, rfl⟩
  · rename_i hserving
    right
    split
    · rename_i p hfind
      have hmem := Turns.mem_order.mp (List.mem_of_find?_eq_some hfind)
      have hslot := List.find?_some hfind
      exact Or.inr ⟨p, hmem, hslot, rfl⟩
    · rename_i hfind
      refine Or.inl ⟨hserving, fun p hp => ?_, rfl⟩
      have hnot := List.find?_eq_none.mp hfind p (Turns.mem_order.mpr hp)
      rw [Bool.not_eq_true] at hnot
      exact hnot

/-- One of the three answers is given, and its condition is met by no other one. -/
theorem exactly_one {r : CatalogClaim} {none full free : Prop}
    (h : r = .unavailable ∧ none ∨ r = .busy ∧ full ∨ (exists p, r = .slot p) ∧ free)
    (hfull : full -> ¬ none) (hfree : free -> ¬ none ∧ ¬ full) :
    ((exists p, r = .slot p) <-> free) ∧ (r = .busy <-> full) ∧
      (r = .unavailable <-> none) := by
  rcases h with ⟨hr, hnone⟩ | ⟨hr, hall⟩ | ⟨⟨p, hr⟩, hone⟩
  · refine ⟨⟨?_, fun h => absurd hnone (hfree h).left⟩,
      ⟨?_, fun h => absurd hnone (hfull h)⟩, fun _ => hnone, fun _ => hr⟩
    · rintro ⟨p, hslot⟩
      cases hr.symm.trans hslot
    · intro hbusy
      cases hr.symm.trans hbusy
  · refine ⟨⟨?_, fun h => absurd hall (hfree h).right⟩, ⟨fun _ => hall, fun _ => hr⟩,
      ?_, fun h => absurd h (hfull hall)⟩
    · rintro ⟨p, hslot⟩
      cases hr.symm.trans hslot
    · intro hunavailable
      cases hr.symm.trans hunavailable
  · refine ⟨⟨fun _ => hone, fun _ => ⟨p, hr⟩⟩,
      ⟨?_, fun h => absurd h (hfree hone).right⟩, ?_, fun h => absurd h (hfree hone).left⟩
    · intro hbusy
      cases hr.symm.trans hbusy
    · intro hunavailable
      cases hr.symm.trans hunavailable

theorem exactClaim_atOnce : ExactClaim limit roster s (s.claimAtOnce limit roster) := by
  have hmem : forall p, p ∈ (roster.filter fun p =>
      AccountManager.servesCatalog s.clock (s.cells p)) <->
        p ∈ roster ∧ AccountManager.servesCatalog s.clock (s.cells p) = true :=
    fun p => List.mem_filter
  have hanswers : s.claimAtOnce limit roster = .unavailable ∧
        (forall p, p ∈ roster ->
          AccountManager.servesCatalog s.clock (s.cells p) = false) ∨
      s.claimAtOnce limit roster = .busy ∧
        ((exists p, p ∈ roster ∧
          AccountManager.servesCatalog s.clock (s.cells p) = true) ∧
          forall p, p ∈ roster ->
            AccountManager.servesCatalog s.clock (s.cells p) = true ->
              0 < limit ∧ limit ≤ (s.cells p).catalogInflight) ∨
      (exists p, s.claimAtOnce limit roster = .slot p) ∧ exists p, p ∈ roster ∧
        AccountManager.servesCatalog s.clock (s.cells p) = true ∧
          (s.cells p).hasCatalogSlot limit = true := by
    rcases claimAtOnce_spec limit roster s with
      ⟨hnil, hr⟩ | ⟨hserving, hfull, hr⟩ | ⟨p, hp, hfree, hr⟩
    · refine Or.inl ⟨hr, fun p hp => ?_⟩
      have hnot := List.filter_eq_nil_iff.mp hnil p hp
      rw [Bool.not_eq_true] at hnot
      exact hnot
    · refine Or.inr (Or.inl ⟨hr, ?_, fun p hp hserves => ?_⟩)
      · rcases List.exists_mem_of_ne_nil _ hserving with ⟨p, hp⟩
        exact ⟨p, (hmem p).mp hp⟩
      · exact (hasCatalogSlot_eq_false limit).mp (hfull p ((hmem p).mpr ⟨hp, hserves⟩))
    · have hserves := (hmem p).mp hp
      exact Or.inr (Or.inr ⟨⟨p, hr⟩, p, hserves.left, hserves.right, hfree⟩)
  have hone := exactly_one hanswers
    (by
      rintro ⟨⟨p, hp, hserves⟩, -⟩ hnone
      rw [hnone p hp] at hserves
      cases hserves)
    (by
      rintro ⟨p, hp, hserves, hfree⟩
      constructor
      · intro hnone
        rw [hnone p hp] at hserves
        cases hserves
      · intro hfull
        rw [(hasCatalogSlot_eq_false limit).mpr (hfull.right p hp hserves)] at hfree
        cases hfree)
  exact ⟨fun p => AccountManager.claimCatalogSlot_eq_slot, hone.left, hone.right.left,
    hone.right.right⟩

end AtOnce

end ClaimWorld

/-!
## The steps of a claim
-/

namespace CatalogCheck

/-- What the checks from this one on lead to. -/
def verdict (now : I64) (a : AccountState) : CatalogCheck -> Bool
  | isCatalog => AccountManager.servesCatalog now a
  | isActive => a.isActive && (AccountManager.rateLimitRemaining now a).isNone &&
      (a.refreshCooldown now).isNone
  | pause => (AccountManager.rateLimitRemaining now a).isNone &&
      (a.refreshCooldown now).isNone
  | retryAt => (a.refreshCooldown now).isNone
  | token => a.hasUsableToken now

/-- The number of checks from this one on. -/
def left : CatalogCheck -> Nat
  | isCatalog => 4
  | isActive => 3
  | pause => 2
  | retryAt => 1
  | token => 0

variable {now : I64} {a : AccountState} {check : CatalogCheck}

theorem read_inl {next : CatalogCheck} (h : check.read now now a = .inl next) :
    next.verdict now a = check.verdict now a ∧ next.left < check.left := by
  cases check with
  | isCatalog | isActive | pause =>
      simp only [read] at h
      split at h
      · rename_i hpasses
        cases h
        simp [verdict, AccountManager.servesCatalog, hpasses, left]
      · cases h
  | retryAt =>
      simp only [read] at h
      split at h
      · cases h
      · rename_i hretry
        cases h
        cases husable : a.hasUsableToken now with
        | false => simp [verdict, AccountState.refreshCooldown, hretry, husable, left]
        | true => simp [verdict, AccountState.refreshCooldown, husable, left]
  | token => cases h

theorem read_inr {b : Bool} (h : check.read now now a = .inr b) :
    check.verdict now a = b := by
  cases check with
  | isCatalog | isActive | pause =>
      simp only [read] at h
      split at h
      · cases h
      · rename_i hfails
        cases h
        simp [verdict, AccountManager.servesCatalog, hfails]
  | retryAt =>
      simp only [read] at h
      split at h
      · rename_i hretry
        cases h
        simp [verdict, AccountState.refreshCooldown, hretry]
      · cases h
  | token =>
      cases h
      rfl

end CatalogCheck

namespace ClaimWorld

variable {limit : Nat} {roster : List Nat}

/-- The accounts that a claim will have found to serve the catalog. -/
def found (now : I64) (cells : Nat -> AccountState) (check : CatalogCheck) :
    List Nat -> List Nat
  | [] => []
  | p :: rest => (if check.verdict now (cells p) then [p] else []) ++
      rest.filter fun q => AccountManager.servesCatalog now (cells q)

/-- Where a claim that nothing has interrupted stands, in a world that it has only
changed itself. -/
def OnCourse (limit : Nat) (roster : List Nat) (s t : ClaimWorld) : ClaimStage -> Prop
  | .scanning now catalog check rest =>
      t.cells = s.cells ∧ t.clock = s.clock ∧ t.catalogRr = s.catalogRr ∧
        now = s.clock ∧ catalog ++ found now s.cells check rest =
          roster.filter fun p => AccountManager.servesCatalog s.clock (s.cells p)
  | .counting now catalog =>
      t.cells = s.cells ∧ t.catalogRr = s.catalogRr ∧ now = s.clock ∧ catalog ≠ [] ∧
        catalog = roster.filter fun p =>
          AccountManager.servesCatalog s.clock (s.cells p)
  | .sorting now rotated steady =>
      t.cells = s.cells ∧ now = s.clock ∧ steady = true ∧
        s.claimAtOnce limit roster =
          match (rotated.insertionSort fun p q =>
            AccountManager.rateLimitHeat s.clock (s.cells p) ≤
              AccountManager.rateLimitHeat s.clock (s.cells q)).find? fun p =>
                (s.cells p).hasCatalogSlot limit with
          | some p => .slot p
          | none => .busy
  | .trying rest =>
      t.cells = s.cells ∧ s.claimAtOnce limit roster =
        match rest.find? fun p => (s.cells p).hasCatalogSlot limit with
        | some p => .slot p
        | none => .busy
  | .swapping p current _ =>
      t.cells = s.cells ∧ current = (s.cells p).catalogInflight ∧
        s.claimAtOnce limit roster = .slot p ∧
        (s.cells p).hasCatalogSlot limit = true
  | .noting p => s.claimAtOnce limit roster = .slot p
  | .done r => s.claimAtOnce limit roster = r

/-- How many steps a claim takes at most when no exchange fails. -/
def stepsLeft : ClaimStage -> Nat
  | .scanning _ catalog check rest =>
      2 * (catalog.length + rest.length) + 5 * rest.length + check.left + 4
  | .counting _ catalog => 2 * catalog.length + 3
  | .sorting _ rotated _ => 2 * rotated.length + 2
  | .trying rest => 2 * rest.length + 1
  | .swapping _ _ rest => 2 * rest.length + 2
  | .noting _ => 1
  | .done _ => 0

section OnCourse

variable {s t t' : ClaimWorld} {o : ClaimOutside} {stage stage' : ClaimStage}

theorem found_isCatalog (now : I64) (cells : Nat -> AccountState) (rest : List Nat) :
    found now cells .isCatalog rest =
      rest.filter fun q => AccountManager.servesCatalog now (cells q) := by
  cases rest with
  | nil => rfl
  | cons p rest =>
      rw [found, List.filter_cons, CatalogCheck.verdict]
      split
      · rfl
      · rfl

/-- An account that is tried has a place, or the claim goes on to the next one. -/
theorem onCourse_attempt {p : Nat} {rest : List Nat} (hcells : t.cells = s.cells)
    (h : s.claimAtOnce limit roster =
      match (p :: rest).find? fun p => (s.cells p).hasCatalogSlot limit with
      | some p => .slot p
      | none => .busy) :
    OnCourse limit roster s t
      (ClaimStage.attempt limit p rest (s.cells p).catalogInflight) := by
  unfold ClaimStage.attempt
  rw [List.find?_cons] at h
  split
  · rename_i hfull
    rw [(hasCatalogSlot_eq_false limit).mpr hfull] at h
    exact ⟨hcells, h⟩
  · rename_i hfree
    have hslot : (s.cells p).hasCatalogSlot limit = true := by
      rw [← Bool.not_eq_false, hasCatalogSlot_eq_false]
      exact hfree
    rw [hslot] at h
    exact ⟨hcells, rfl, h, hslot⟩

/-- Every step stays on course. -/
theorem onCourse_advance (hcourse : OnCourse limit roster s t stage)
    (h : t.advance limit o stage = some (t', stage')) :
    OnCourse limit roster s t' stage' := by
  cases stage with
  | scanning now catalog check rest =>
      rcases hcourse with ⟨hcells, hclock, hrr, hnow, hfound⟩
      cases rest with
      | nil =>
          rw [found, List.append_nil] at hfound
          cases h
          split
          · rename_i hnil
            rw [hnil] at hfound
            show s.claimAtOnce limit roster = _
            rw [claimAtOnce, AccountManager.claimCatalogSlot]
            exact if_pos hfound.symm
          · rename_i hserving
            exact ⟨hcells, hrr, hnow, hserving, hfound⟩
      | cons p rest =>
          rw [advance] at h
          rw [hclock, hcells, ← hnow] at h
          split at h
          · rename_i next hread
            cases h
            have hverdict := (CatalogCheck.read_inl hread).left
            refine ⟨hcells, hclock, hrr, hnow, ?_⟩
            rw [← hfound, found, found, hverdict]
          · rename_i hread
            cases h
            have hverdict := CatalogCheck.read_inr hread
            refine ⟨hcells, hclock, hrr, hnow, ?_⟩
            rw [← hfound, found, found_isCatalog, hverdict, if_pos rfl, List.append_assoc]
          · rename_i hread
            cases h
            have hverdict := CatalogCheck.read_inr hread
            refine ⟨hcells, hclock, hrr, hnow, ?_⟩
            rw [← hfound, found, found_isCatalog, hverdict, if_neg Bool.false_ne_true,
              List.nil_append]
  | counting now catalog =>
      rcases hcourse with ⟨hcells, hrr, hnow, hserving, hcatalog⟩
      cases h
      refine ⟨hcells, hnow, rfl, ?_⟩
      rw [hcatalog] at hserving
      rw [claimAtOnce, AccountManager.claimCatalogSlot, hrr, hcatalog]
      exact if_neg hserving
  | sorting now rotated steady =>
      rcases hcourse with ⟨hcells, hnow, hsteady, hresult⟩
      rw [advance, if_pos hsteady, hcells, hnow] at h
      cases h
      exact ⟨hcells, hresult⟩
  | trying rest =>
      rcases hcourse with ⟨hcells, hresult⟩
      cases rest with
      | nil =>
          cases h
          exact hresult
      | cons p rest =>
          rw [advance, hcells] at h
          cases h
          exact onCourse_attempt hcells hresult
  | swapping p current rest =>
      rcases hcourse with ⟨hcells, hcurrent, hresult, hslot⟩
      rw [advance] at h
      split at h
      · cases h
        exact hresult
      · rw [hcells] at h
        cases h
        apply onCourse_attempt hcells
        rw [List.find?_cons, hslot]
        exact hresult
  | noting p =>
      cases h
      exact hcourse
  | done r => cases h

/-- A step is left to a claim that has no answer, and it is one less afterwards. -/
theorem exists_advance (hcourse : OnCourse limit roster s t stage)
    (hstage : forall r, stage ≠ .done r) (hspurious : o.spurious = false) :
    exists t' stage', t.advance limit o stage = some (t', stage') ∧
      stepsLeft stage' < stepsLeft stage := by
  cases stage with
  | scanning now catalog check rest =>
      rcases hcourse with ⟨hcells, hclock, -, hnow, -⟩
      cases rest with
      | nil =>
          refine ⟨t, _, rfl, ?_⟩
          split
          · simp only [stepsLeft]
            omega
          · simp only [stepsLeft, List.length_nil]
            omega
      | cons p rest =>
          rw [advance, hclock, ← hnow]
          cases hread : check.read now now (t.cells p) with
          | inl next =>
              have hleft := (CatalogCheck.read_inl hread).right
              refine ⟨t, _, rfl, ?_⟩
              simp only [stepsLeft]
              omega
          | inr b =>
              cases b with
              | true =>
                  refine ⟨t, _, rfl, ?_⟩
                  simp only [stepsLeft, List.length_append, List.length_cons,
                    List.length_nil, CatalogCheck.left]
                  omega
              | false =>
                  refine ⟨t, _, rfl, ?_⟩
                  simp only [stepsLeft, List.length_cons, CatalogCheck.left]
                  omega
  | counting now catalog =>
      refine ⟨_, _, rfl, ?_⟩
      simp only [stepsLeft, List.length_rotate]
      omega
  | sorting now rotated steady =>
      rw [advance, if_pos hcourse.right.right.left]
      refine ⟨t, _, rfl, ?_⟩
      simp only [stepsLeft, List.length_insertionSort]
      omega
  | trying rest =>
      cases rest with
      | nil => exact ⟨t, _, rfl, Nat.lt_succ_self _⟩
      | cons p rest =>
          refine ⟨t, _, rfl, ?_⟩
          unfold ClaimStage.attempt
          split
          · simp only [stepsLeft, List.length_cons]
            omega
          · simp only [stepsLeft, List.length_cons]
            omega
  | swapping p current rest =>
      rcases hcourse with ⟨hcells, hcurrent, -, -⟩
      rw [advance, if_pos ⟨by rw [hcells, hcurrent], hspurious⟩]
      refine ⟨_, _, rfl, ?_⟩
      simp only [stepsLeft]
      omega
  | noting p => exact ⟨_, _, rfl, Nat.lt_succ_self _⟩
  | done r => exact absurd rfl (hstage r)

end OnCourse

/-!
## The run of a claim
-/

/-- The steps of a claim that begins now, with nothing between them. -/
def soloClaim (s : ClaimWorld) (outside : List ClaimOutside) : List ClaimAction :=
  .claim :: outside.map (.advance s.claims.length)

section Solo

variable {s t t' : ClaimWorld} {i : Nat}

/-- The claim stands somewhere on its course. -/
def Going (limit : Nat) (roster : List Nat) (s t : ClaimWorld) (i : Nat) : Prop :=
  exists stage, t.claims[i]? = some stage ∧ OnCourse limit roster s t stage

theorem onCourse_claims {stage : ClaimStage} (h : OnCourse limit roster s t stage)
    (claims : List ClaimStage) :
    OnCourse limit roster s { t with claims := claims } stage := by
  cases stage with
  | scanning | counting | sorting | trying | swapping | noting | done => exact h

theorem step_advance {o : ClaimOutside} {stage : ClaimStage} (hstage : t.claims[i]? = some stage) :
    t.step limit roster (.advance i o) = (t.advance limit o stage).map fun next =>
      { next.1.disturb with claims := next.1.disturb.claims.set i next.2 } := by
  rw [step, hstage]

theorem getElem?_set_disturb {o : ClaimOutside} {stage stage' : ClaimStage}
    (hstage : t.claims[i]? = some stage)
    (h : t.advance limit o stage = some (t', stage')) :
    (t'.disturb.claims.set i stage')[i]? = some stage' := by
  apply List.getElem?_set_self
  have hclaims := (advances_of_advance h).claims
  rw [ClaimWorld.disturb, List.length_map, hclaims]
  exact (List.getElem?_eq_some_iff.mp hstage).choose

theorem going_step {o : ClaimOutside} (h : Going limit roster s t i)
    (hstep : t.step limit roster (.advance i o) = some t') :
    Going limit roster s t' i := by
  rcases h with ⟨stage, hstage, hcourse⟩
  rw [step_advance hstage] at hstep
  rcases Option.map_eq_some_iff.mp hstep with ⟨⟨u, stage'⟩, hnext, ht'⟩
  rw [← ht']
  exact ⟨stage', getElem?_set_disturb hstage hnext,
    onCourse_claims (onCourse_advance hcourse hnext) _⟩

theorem going_run {outside : List ClaimOutside} (h : Going limit roster s t i)
    (hrun : (system limit roster).run t (outside.map (.advance i)) = some t') :
    Going limit roster s t' i := by
  induction outside generalizing t with
  | nil =>
      cases hrun
      exact h
  | cons o rest ih =>
      rcases System.run_cons_some.mp hrun with ⟨mid, hmid, hrest⟩
      exact ih (going_step h hmid) hrest

/-- A claim comes to its end when no exchange fails for no reason. -/
theorem exists_run_done (nowMs : Int) (n : Nat) {stage : ClaimStage}
    (hstage : t.claims[i]? = some stage) (hcourse : OnCourse limit roster s t stage)
    (hleft : stepsLeft stage ≤ n) :
    exists (outside : List ClaimOutside) (t' : ClaimWorld) (r : CatalogClaim),
      (system limit roster).run t (outside.map (.advance i)) = some t' ∧
        t'.claims[i]? = some (.done r) := by
  induction n generalizing t stage with
  | zero =>
      by_cases hdone : exists r, stage = .done r
      · rcases hdone with ⟨r, hr⟩
        exact ⟨[], t, r, rfl, hr ▸ hstage⟩
      · rcases exists_advance (o := ⟨nowMs, false, []⟩) hcourse
          (fun r hr => hdone ⟨r, hr⟩) rfl with ⟨u, stage', -, hless⟩
        omega
  | succ n ih =>
      by_cases hdone : exists r, stage = .done r
      · rcases hdone with ⟨r, hr⟩
        exact ⟨[], t, r, rfl, hr ▸ hstage⟩
      · rcases exists_advance (o := ⟨nowMs, false, []⟩) hcourse
          (fun r hr => hdone ⟨r, hr⟩) rfl with ⟨u, stage', hnext, hless⟩
        have hstep : t.step limit roster (.advance i ⟨nowMs, false, []⟩) = _ :=
          step_advance hstage
        rw [hnext] at hstep
        rcases ih (getElem?_set_disturb hstage hnext)
          (onCourse_claims (onCourse_advance hcourse hnext) _) (by omega) with
          ⟨outside, t', r, hrun, hr⟩
        exact ⟨⟨nowMs, false, []⟩ :: outside, t', r,
          System.run_cons_some.mpr ⟨_, hstep, hrun⟩, hr⟩

/-- The claim begins on its course. -/
theorem going_claim (limit : Nat) (roster : List Nat) (s : ClaimWorld) : exists t,
    s.step limit roster .claim = some t ∧ Going limit roster s t s.claims.length := by
  refine ⟨_, rfl, .scanning s.clock [] .isCatalog roster, ?_, rfl, rfl, rfl, rfl, ?_⟩
  · have hlength : s.disturb.claims.length = s.claims.length := List.length_map _
    rw [← hlength, List.getElem?_append_right (Nat.le_refl _), Nat.sub_self]
    rfl
  · rw [List.nil_append, found_isCatalog]

/-- Nothing comes between the steps of the claim: it can be brought to its end, and
whatever run brings it there, its answer is exact. -/
theorem soloClaim_spec (s : ClaimWorld) :
    (exists (outside : List ClaimOutside) (t' : ClaimWorld) (r : CatalogClaim),
      (system limit roster).run s (s.soloClaim outside) = some t' ∧
        t'.claims[s.claims.length]? = some (.done r)) ∧
    forall (outside : List ClaimOutside) (t' : ClaimWorld) (r : CatalogClaim),
      (system limit roster).run s (s.soloClaim outside) = some t' ->
        t'.claims[s.claims.length]? = some (.done r) -> ExactClaim limit roster s r := by
  rcases going_claim limit roster s with ⟨t, hclaim, hgoing⟩
  constructor
  · rcases hgoing with ⟨stage, hstage, hcourse⟩
    rcases exists_run_done 0 _ hstage hcourse (Nat.le_refl _) with
      ⟨outside, t', r, hrun, hr⟩
    exact ⟨outside, t', r, System.run_cons_some.mpr ⟨t, hclaim, hrun⟩, hr⟩
  · intro outside t' r hrun hr
    rcases System.run_cons_some.mp hrun with ⟨u, hu, hrest⟩
    cases hclaim.symm.trans hu
    rcases going_run hgoing hrest with ⟨stage, hstage, hcourse⟩
    cases hstage.symm.trans hr
    have hanswer : s.claimAtOnce limit roster = r := hcourse
    rw [← hanswer]
    exact exactClaim_atOnce limit roster s

end Solo

/-!
## Catalog concurrency
-/

/-- In every run the counters are right and within the limit, a busy claim has passed
every account over for a reason, and a claim that nothing interrupts is exact. -/
theorem catalogConcurrency_exact {cells : Nat -> AccountState} {clock : I64}
    {catalogRr : U64} {actions : List ClaimAction} {s : ClaimWorld}
    (hrun : (system limit roster).run (start cells clock catalogRr) actions = some s) :
    (forall p, (s.cells p).catalogInflight = s.liveSlots p ∧
      (0 < limit -> (s.cells p).catalogInflight ≤ limit)) ∧
    (forall i, s.claims[i]? = some (.done .busy) -> forall p, p ∈ roster ->
      exists before o after t, actions = before ++ .advance i o :: after ∧
        (system limit roster).run (start cells clock catalogRr) before = some t ∧
        (t.RulesOut i p ∨ t.FindsFull limit i p)) ∧
    (exists (outside : List ClaimOutside) (t : ClaimWorld) (r : CatalogClaim),
      (system limit roster).run s (s.soloClaim outside) = some t ∧
        t.claims[s.claims.length]? = some (.done r)) ∧
    forall (outside : List ClaimOutside) (t : ClaimWorld) (r : CatalogClaim),
      (system limit roster).run s (s.soloClaim outside) = some t ->
        t.claims[s.claims.length]? = some (.done r) -> ExactClaim limit roster s r := by
  have hcounted := counted_run hrun
  exact ⟨fun p => ⟨hcounted.slots p, fun hlimit => hcounted.within hlimit p⟩,
    fun i hbusy p hp => passed_of_busy hrun hbusy hp, soloClaim_spec s⟩

/-- A catalog account that has nothing against it. -/
def metadataAccount : AccountState :=
  { AccountState.new "a" "" "" "" "rt" none true "" with isCatalog := true }

/-- A claim takes the only place, and the next one is busy. -/
def slotThenBusy : List ClaimAction :=
  (ClaimAction.claim :: List.replicate 10 (.advance 0 ⟨0, false, []⟩)) ++
    ClaimAction.claim :: List.replicate 9 (.advance 1 ⟨0, false, []⟩)

theorem catalogConcurrency_exact_busy : exists s,
    (system 1 [0]).run (start (fun _ => metadataAccount) 0 0) slotThenBusy = some s ∧
      s.claims = [.done (.slot 0), .done .busy] ∧
      (s.cells 0).catalogInflight = s.liveSlots 0 ∧
      exists before o after t, slotThenBusy = before ++ .advance 1 o :: after ∧
        (system 1 [0]).run (start (fun _ => metadataAccount) 0 0) before = some t ∧
        (t.RulesOut 1 0 ∨ t.FindsFull 1 1 0) := by
  have hclaims : (((system 1 [0]).run (start (fun _ => metadataAccount) 0 0)
      slotThenBusy).map claims) = some [.done (.slot 0), .done .busy] := by decide
  rcases Option.map_eq_some_iff.mp hclaims with ⟨s, hrun, hs⟩
  have hexact := catalogConcurrency_exact hrun
  refine ⟨s, hrun, hs, (hexact.left 0).left, hexact.right.left 1 ?_ 0 ?_⟩
  · rw [hs]
    rfl
  · exact List.mem_singleton_self 0

end ClaimWorld

end HifiApi
