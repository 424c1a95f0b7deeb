import HifiApi.Failover.Presented

/-!
# What a request has done to a counter

Account by account: a FULL answer resets the counter, a PREVIEW answer before a FULL
one counts once, and nothing else does anything.
-/

namespace HifiApi

open PresentationJournal

section Noted

variable {x p : AccountRef} {settled previews : List AccountRef} {ops : List StreakOp}

theorem opsOn_reset (x : AccountRef) (ops : List StreakOp) :
    opsOn x (.reset x :: ops) = .reset x :: opsOn x ops :=
  List.filter_cons_of_pos (decide_eq_true rfl)

theorem opsOn_reset_ne (hne : p ≠ x) (ops : List StreakOp) :
    opsOn x (.reset p :: ops) = opsOn x ops :=
  List.filter_cons_of_neg fun h => hne (of_decide_eq_true h)

theorem account_previewOps {op : StreakOp} {before : Nat} (h : op ∈ previewOps p before) :
    op.account = p := by
  unfold previewOps at h
  split at h
  · rw [List.mem_singleton.mp h]
    rfl
  · simp only [List.mem_cons, List.not_mem_nil, or_false] at h
    rcases h with rfl | rfl | rfl
    · rfl
    · rfl
    · rfl

theorem opsOn_previewOps (p : AccountRef) (before : Nat) :
    opsOn p (previewOps p before) = previewOps p before := by
  apply List.filter_eq_self.mpr
  intro op hop
  exact decide_eq_true (account_previewOps hop)

theorem opsOn_previewOps_ne (hne : p ≠ x) (before : Nat) :
    opsOn x (previewOps p before) = [] := by
  apply List.filter_eq_nil_iff.mpr
  intro op hop hx
  exact hne ((account_previewOps hop).symm.trans (of_decide_eq_true hx))

theorem Noted.opsOn_not_mem (h : Noted settled ops) (hx : x ∉ settled) :
    opsOn x ops = [] := by
  induction h with
  | nil =>
      rfl
  | @snoc settled ops p before _ ih =>
      rw [List.mem_append, not_or] at hx
      have hne : p ≠ x := fun hp => hx.right (List.mem_singleton.mpr hp.symm)
      have hrest := ih hx.left
      unfold opsOn at hrest ⊢
      rw [List.filter_append, hrest]
      exact opsOn_previewOps_ne hne before

/-- A PREVIEW answer counts once. -/
theorem Noted.opsOn_mem (h : Noted settled ops) (honce : settled.Nodup)
    (hx : x ∈ settled) : exists before, opsOn x ops = previewOps x before := by
  induction h with
  | nil =>
      cases hx
  | @snoc settled ops p before hnoted ih =>
      rw [List.nodup_append] at honce
      rcases List.mem_append.mp hx with hold | hnew
      · rcases ih honce.left hold with ⟨first, hfirst⟩
        have hne : p ≠ x := fun hp =>
          honce.right.right x hold p List.mem_cons_self hp.symm
        exists first
        unfold opsOn at hfirst ⊢
        rw [List.filter_append, hfirst]
        exact (congrArg _ (opsOn_previewOps_ne hne before)).trans (List.append_nil _)
      · cases List.mem_singleton.mp hnew
        have hnot : x ∉ settled := fun hmem =>
          honce.right.right x hmem x List.mem_cons_self rfl
        have hrest := hnoted.opsOn_not_mem hnot
        exists before
        unfold opsOn at hrest ⊢
        rw [List.filter_append, hrest]
        exact opsOn_previewOps x before

end Noted

section Answers

variable {x f : AccountRef} {previews : List AccountRef}

theorem mem_previewsOf {p : Presentation} :
    (x, p) ∈ previewsOf previews <-> x ∈ previews ∧ p = .preview := by
  unfold previewsOf
  constructor
  · intro h
    rcases List.mem_map.mp h with ⟨y, hy, heq⟩
    cases heq
    exact ⟨hy, rfl⟩
  · rintro ⟨hx, rfl⟩
    exact List.mem_map.mpr ⟨x, hx, rfl⟩

/-- Who is beaten: the accounts that answered PREVIEW before the FULL answer. -/
theorem beaten_iff :
    Beaten x (previewsOf previews ++ [(f, Presentation.full)]) <-> x ∈ previews := by
  constructor
  · rintro ⟨_, before, later, hanswers, _⟩
    have hmem : (x, Presentation.preview) ∈ previewsOf previews ++ [(f, Presentation.full)] := by
      rw [hanswers]
      exact List.mem_append_right _ List.mem_cons_self
    rcases List.mem_append.mp hmem with hprevious | hlast
    · exact (mem_previewsOf.mp hprevious).left
    · cases List.mem_singleton.mp hlast
  · intro hx
    rcases List.append_of_mem hx with ⟨before, later, rfl⟩
    exists f, previewsOf before, previewsOf later ++ [(f, Presentation.full)]
    constructor
    · unfold previewsOf
      rw [List.map_append, List.append_assoc]
      rfl
    · exact List.mem_append_right _ List.mem_cons_self

theorem not_beaten_previews : ¬ Beaten x (previewsOf previews) := by
  rintro ⟨g, before, later, hanswers, hmem⟩
  have hfull : (g, Presentation.full) ∈ previewsOf previews := by
    rw [hanswers]
    exact List.mem_append_right _ (List.mem_cons_of_mem _ hmem)
  cases (mem_previewsOf.mp hfull).right

end Answers

namespace PresentationJournal

variable {kind : LeaseKind} {g : PresentationJournal}

/-- What holds of a request that has ended, account by account. -/
theorem Ended.settledFor (h : g.Ended kind) (x : AccountRef) : SettledFor kind x g := by
  rcases h.settled with ⟨previews, ⟨hanswers, hops⟩ | ⟨f, hanswers, hended⟩⟩
  · constructor
    · intro _ hfull
      rw [hanswers] at hfull
      cases (mem_previewsOf.mp hfull).right
    · intro _ hbeaten
      rw [hanswers] at hbeaten
      exact absurd hbeaten not_beaten_previews
    · intro _
      rw [hops]
      rfl
  · rcases hended with ⟨hkind, hops⟩ | ⟨hkind, noted, hops, hnoted⟩
    · rw [hkind]
      constructor
      · intro hplayback
        cases hplayback
      · intro hplayback
        cases hplayback
      · intro _
        rw [hops]
        rfl
    · have honce := h.once
      rw [hanswers, List.map_append, ids_previewsOf, List.nodup_append] at honce
      have hfresh : f ∉ previews := fun hf =>
        honce.right.right f.id (List.mem_map_of_mem hf) f.id List.mem_cons_self rfl
      have hdistinct : previews.Nodup := honce.left.of_map
      have hfull : (x, Presentation.full) ∈ g.answers <-> x = f := by
        rw [hanswers, List.mem_append]
        constructor
        · rintro (hprevious | hlast)
          · cases (mem_previewsOf.mp hprevious).right
          · cases List.mem_singleton.mp hlast
            rfl
        · rintro rfl
          exact Or.inr List.mem_cons_self
      rw [hkind]
      constructor
      · intro _ hx
        rw [hfull.mp hx, hops, opsOn_reset, hnoted.opsOn_not_mem hfresh]
      · intro _ hbeaten
        rw [hanswers, beaten_iff] at hbeaten
        have hne : f ≠ x := fun heq => hfresh (heq ▸ hbeaten)
        rw [hops, opsOn_reset_ne hne]
        exact hnoted.opsOn_mem hdistinct hbeaten
      · rintro (hmetadata | ⟨hnotFull, hnotBeaten⟩)
        · cases hmetadata
        · rw [hanswers, beaten_iff] at hnotBeaten
          have hne : f ≠ x := fun heq => hnotFull (hfull.mpr heq.symm)
          rw [hops, opsOn_reset_ne hne]
          exact hnoted.opsOn_not_mem hnotBeaten

end PresentationJournal

end HifiApi
