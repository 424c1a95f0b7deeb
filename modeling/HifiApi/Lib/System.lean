import Mathlib.Tactic.Common

/-!
# Step systems and their runs

A step system answers an action with the next state, or refuses it.  Runs are
finite lists of accepted actions.  The rules below reduce a statement about
whole runs to one about a single step: plain invariants, invariants of runs
whose steps meet a side condition, and invariants that mention a history.
-/

namespace HifiApi

/-- Systems that take an action or refuse it. -/
structure System (State Action : Type) where
  step : State -> Action -> Option State

namespace System

variable {State Action Entry : Type}

/-- The state reached by taking the actions in order. -/
def run (M : System State Action) : State -> List Action -> Option State
  | s, [] => some s
  | s, a :: rest =>
      match M.step s a with
      | none => none
      | some s' => run M s' rest

/-- Every step of the run from a state meets a condition. -/
def Along (M : System State Action) (P : State -> Action -> Prop) :
    State -> List Action -> Prop
  | _, [] => True
  | s, a :: rest => P s a ∧ forall s', M.step s a = some s' -> Along M P s' rest

instance decidableAlong (M : System State Action) (P : State -> Action -> Prop)
    [hP : forall s a, Decidable (P s a)] :
    (s : State) -> (actions : List Action) -> Decidable (M.Along P s actions)
  | _, [] => isTrue trivial
  | s, a :: rest =>
      match hstep : M.step s a with
      | none =>
          decidable_of_iff (P s a) (by simp [Along, hstep])
      | some s' =>
          have := decidableAlong M P s' rest
          decidable_of_iff (P s a ∧ M.Along P s' rest) (by simp [Along, hstep])

/-- The entries that the steps of a run write into its history. -/
def history (M : System State Action) (out : State -> Action -> List Entry) :
    State -> List Action -> List Entry
  | _, [] => []
  | s, a :: rest =>
      match M.step s a with
      | none => []
      | some s' => out s a ++ history M out s' rest

/-!
## Splitting runs
-/

@[simp] theorem run_nil (M : System State Action) (s : State) :
    M.run s [] = some s := rfl

theorem run_cons_some {M : System State Action} {s s' : State} {a : Action}
    {rest : List Action} :
    M.run s (a :: rest) = some s' <->
      exists mid, M.step s a = some mid ∧ M.run mid rest = some s' := by
  cases hstep : M.step s a with
  | none =>
      simp [run, hstep]
  | some mid =>
      simp [run, hstep]

theorem run_append_some {M : System State Action} {s s' : State}
    {first second : List Action} :
    M.run s (first ++ second) = some s' <->
      exists mid, M.run s first = some mid ∧ M.run mid second = some s' := by
  induction first generalizing s with
  | nil =>
      simp
  | cons a rest ih =>
      constructor
      · intro h
        rcases run_cons_some.mp h with ⟨next, hstep, hrest⟩
        rcases ih.mp hrest with ⟨mid, hfirst, hsecond⟩
        exact ⟨mid, run_cons_some.mpr ⟨next, hstep, hfirst⟩, hsecond⟩
      · intro h
        rcases h with ⟨mid, hfirst, hsecond⟩
        rcases run_cons_some.mp hfirst with ⟨next, hstep, hrest⟩
        exact run_cons_some.mpr ⟨next, hstep, ih.mpr ⟨mid, hrest, hsecond⟩⟩

theorem along_cons_of_step {M : System State Action}
    {P : State -> Action -> Prop} {s s' : State} {a : Action}
    {rest : List Action} (hstep : M.step s a = some s') :
    M.Along P s (a :: rest) <-> P s a ∧ M.Along P s' rest := by
  simp [Along, hstep]

theorem along_append {M : System State Action} {P : State -> Action -> Prop}
    {s mid : State} {first second : List Action}
    (hfirst : M.run s first = some mid) :
    M.Along P s (first ++ second) <->
      M.Along P s first ∧ M.Along P mid second := by
  induction first generalizing s with
  | nil =>
      have hs : s = mid := by simpa using hfirst
      subst hs
      simp [Along]
  | cons a rest ih =>
      rcases run_cons_some.mp hfirst with ⟨next, hstep, hrest⟩
      have hrestSplit := ih hrest
      constructor
      · intro h
        have hnext := hrestSplit.mp (h.right next hstep)
        refine ⟨⟨h.left, ?_⟩, hnext.right⟩
        intro s' hs'
        rw [hstep] at hs'
        cases hs'
        exact hnext.left
      · intro h
        refine ⟨h.left.left, ?_⟩
        intro s' hs'
        have hleft := h.left.right s' hs'
        rw [hstep] at hs'
        cases hs'
        exact hrestSplit.mpr ⟨hleft, h.right⟩

theorem Along.mono {M : System State Action} {P Q : State -> Action -> Prop}
    (hPQ : forall s a, P s a -> Q s a) {s : State} {actions : List Action}
    (h : M.Along P s actions) : M.Along Q s actions := by
  induction actions generalizing s with
  | nil =>
      trivial
  | cons a rest ih =>
      exact ⟨hPQ s a h.left, fun s' hs' => ih (h.right s' hs')⟩

theorem along_of_forall_mem {M : System State Action} {P : Action -> Prop}
    {s : State} {actions : List Action}
    (h : forall a, a ∈ actions -> P a) : M.Along (fun _ a => P a) s actions := by
  induction actions generalizing s with
  | nil =>
      trivial
  | cons a rest ih =>
      exact ⟨h a (by simp), fun s' _ => ih (fun b hb => h b (by simp [hb]))⟩

theorem along_and {M : System State Action} {P Q : State -> Action -> Prop}
    {s : State} {actions : List Action} :
    M.Along (fun s a => P s a ∧ Q s a) s actions <->
      M.Along P s actions ∧ M.Along Q s actions := by
  induction actions generalizing s with
  | nil =>
      simp [Along]
  | cons a rest ih =>
      constructor
      · intro h
        exact ⟨⟨h.left.left, fun s' hs' => (ih.mp (h.right s' hs')).left⟩,
          ⟨h.left.right, fun s' hs' => (ih.mp (h.right s' hs')).right⟩⟩
      · intro h
        exact ⟨⟨h.left.left, h.right.left⟩,
          fun s' hs' => ih.mpr ⟨h.left.right s' hs', h.right.right s' hs'⟩⟩

/-- Two conditions that agree where a third one holds agree along its runs. -/
theorem along_congr {M : System State Action} {P Q R : State -> Action -> Prop}
    (hPQ : forall s a, R s a -> (P s a <-> Q s a)) {s : State}
    {actions : List Action} (hR : M.Along R s actions) :
    M.Along P s actions <-> M.Along Q s actions := by
  induction actions generalizing s with
  | nil =>
      simp [Along]
  | cons a rest ih =>
      constructor
      · intro h
        exact ⟨(hPQ s a hR.left).mp h.left,
          fun s' hs' => (ih (hR.right s' hs')).mp (h.right s' hs')⟩
      · intro h
        exact ⟨(hPQ s a hR.left).mpr h.left,
          fun s' hs' => (ih (hR.right s' hs')).mpr (h.right s' hs')⟩

/-- A history holds no entry of a kind exactly when no step writes one. -/
theorem countP_history_eq_zero {M : System State Action}
    {out : State -> Action -> List Entry} {p : Entry -> Bool} {s s' : State}
    {actions : List Action} (hrun : M.run s actions = some s') :
    (M.history out s actions).countP p = 0 <->
      M.Along (fun s a => (out s a).countP p = 0) s actions := by
  induction actions generalizing s with
  | nil =>
      simp [history, Along]
  | cons a rest ih =>
      rcases run_cons_some.mp hrun with ⟨mid, hstep, hrest⟩
      have hmid := ih hrest
      constructor
      · intro h
        have hsplit : (out s a).countP p = 0 ∧
            (M.history out mid rest).countP p = 0 := by
          simpa only [history, hstep, List.countP_append, Nat.add_eq_zero_iff]
            using h
        refine ⟨hsplit.left, ?_⟩
        intro t ht
        rw [hstep] at ht
        cases ht
        exact hmid.mp hsplit.right
      · intro h
        have hrestZero := hmid.mpr (h.right mid hstep)
        simp only [history, hstep, List.countP_append, h.left, hrestZero]

/-- A run that breaks a condition has a first step that breaks it. -/
theorem exists_step_of_not_along {M : System State Action}
    {P : State -> Action -> Prop} {s : State} {actions : List Action}
    (h : ¬ M.Along P s actions) :
    exists before a after mid,
      actions = before ++ a :: after ∧ M.run s before = some mid ∧
        M.Along P s before ∧ ¬ P mid a := by
  induction actions generalizing s with
  | nil =>
      exact absurd trivial h
  | cons a rest ih =>
      by_cases hP : P s a
      · have hrest : exists s', M.step s a = some s' ∧ ¬ M.Along P s' rest := by
          by_contra hnone
          apply h
          refine ⟨hP, ?_⟩
          intro s' hs'
          by_contra hbad
          exact hnone ⟨s', hs', hbad⟩
        rcases hrest with ⟨s', hstep, hbad⟩
        rcases ih hbad with ⟨before, b, after, mid, heq, hrun, halong, hP'⟩
        refine ⟨a :: before, b, after, mid, ?_, ?_, ?_, hP'⟩
        · rw [heq]
          rfl
        · exact run_cons_some.mpr ⟨s', hstep, hrun⟩
        · refine ⟨hP, ?_⟩
          intro t ht
          rw [hstep] at ht
          cases ht
          exact halong
      · exact ⟨[], a, rest, s, rfl, rfl, trivial, hP⟩

/-!
## Other names for the actions
-/

section Rename

variable {Other : Type} {M : System State Action} {N : System State Other}
  {f : Other -> Action}

theorem along_rename (h : forall s b, N.step s b = M.step s (f b))
    {P : State -> Action -> Prop} {s : State} {actions : List Other} :
    N.Along (fun s b => P s (f b)) s actions <-> M.Along P s (actions.map f) := by
  induction actions generalizing s with
  | nil =>
      exact Iff.rfl
  | cons b rest ih =>
      rw [List.map_cons, Along, Along]
      refine and_congr_right fun _ => forall_congr' fun s' => ?_
      rw [h]
      exact imp_congr_right fun _ => ih

theorem history_rename (h : forall s b, N.step s b = M.step s (f b))
    (out : State -> Action -> List Entry) (s : State) (actions : List Other) :
    N.history (fun s b => out s (f b)) s actions =
      M.history out s (actions.map f) := by
  induction actions generalizing s with
  | nil =>
      rfl
  | cons b rest ih =>
      rw [List.map_cons, history, history, h]
      cases M.step s (f b) with
      | none => rfl
      | some s' => exact congrArg (out s (f b) ++ ·) (ih s')

end Rename

/-!
## Induction over runs
-/

/-- What holds at first and survives every step of a run that meets the side
condition holds at its end. -/
theorem run_invariant_along {M : System State Action}
    {P : State -> Action -> Prop} {I : State -> Prop}
    (hstep : forall s a s', I s -> P s a -> M.step s a = some s' -> I s')
    {s s' : State} {actions : List Action} (hs : I s)
    (halong : M.Along P s actions) (hrun : M.run s actions = some s') :
    I s' := by
  induction actions generalizing s with
  | nil =>
      have heq : s = s' := by simpa using hrun
      rw [← heq]
      exact hs
  | cons a rest ih =>
      rcases run_cons_some.mp hrun with ⟨mid, hmid, hrest⟩
      exact ih (hstep s a mid hs halong.left hmid) (halong.right mid hmid) hrest

theorem run_invariant {M : System State Action} {I : State -> Prop}
    (hstep : forall s a s', I s -> M.step s a = some s' -> I s')
    {s s' : State} {actions : List Action} (hs : I s)
    (hrun : M.run s actions = some s') : I s' := by
  refine run_invariant_along (P := fun _ _ => True)
    (fun s a s' hs _ h => hstep s a s' hs h) hs ?_ hrun
  exact along_of_forall_mem (fun _ _ => trivial)

/-- The invariant may read the history written so far. -/
theorem run_history_invariant {M : System State Action}
    {P : State -> Action -> Prop} {out : State -> Action -> List Entry}
    {I : State -> List Entry -> Prop}
    (hstep : forall s a s' log, I s log -> P s a -> M.step s a = some s' ->
      I s' (log ++ out s a))
    {s s' : State} {actions : List Action} {log : List Entry} (hs : I s log)
    (halong : M.Along P s actions) (hrun : M.run s actions = some s') :
    I s' (log ++ M.history out s actions) := by
  induction actions generalizing s log with
  | nil =>
      have heq : s = s' := by simpa using hrun
      rw [← heq]
      simpa [history] using hs
  | cons a rest ih =>
      rcases run_cons_some.mp hrun with ⟨mid, hmid, hrest⟩
      have hnext := ih (hstep s a mid log hs halong.left hmid)
        (halong.right mid hmid) hrest
      simpa [history, hmid, List.append_assoc] using hnext

/-!
## Histories of split runs
-/

theorem history_append {M : System State Action}
    {out : State -> Action -> List Entry} {s mid : State}
    {first second : List Action} (hfirst : M.run s first = some mid) :
    M.history out s (first ++ second) =
      M.history out s first ++ M.history out mid second := by
  induction first generalizing s with
  | nil =>
      have heq : s = mid := by simpa using hfirst
      rw [heq]
      rfl
  | cons a rest ih =>
      rcases run_cons_some.mp hfirst with ⟨next, hstep, hrest⟩
      simp only [List.cons_append, history, hstep, ih hrest, List.append_assoc]

/-- An entry was written by one of the steps. -/
theorem exists_step_of_mem_history {M : System State Action}
    {out : State -> Action -> List Entry} {s s' : State} {x : Entry}
    {actions : List Action} (hrun : M.run s actions = some s')
    (hx : x ∈ M.history out s actions) :
    exists before a after t t', actions = before ++ a :: after ∧
      M.run s before = some t ∧ x ∈ out t a ∧ M.step t a = some t' ∧
      M.run t' after = some s' := by
  induction actions generalizing s with
  | nil =>
      cases hx
  | cons a rest ih =>
      rcases run_cons_some.mp hrun with ⟨next, hstep, hrest⟩
      simp only [history, hstep, List.mem_append] at hx
      rcases hx with hfirst | hlater
      · exact ⟨[], a, rest, s, next, rfl, rfl, hfirst, hstep, hrest⟩
      · rcases ih hrest hlater with
          ⟨before, b, after, t, t', heq, hbefore, hout, hb, hafter⟩
        refine ⟨a :: before, b, after, t, t', ?_, ?_, hout, hb, hafter⟩
        · rw [heq]
          rfl
        · exact run_cons_some.mpr ⟨next, hstep, hbefore⟩

theorem mem_history_of_step {M : System State Action}
    {out : State -> Action -> List Entry} {s t t' : State} {x : Entry} {a : Action}
    {before : List Action} (after : List Action)
    (hbefore : M.run s before = some t) (hstep : M.step t a = some t')
    (hx : x ∈ out t a) : x ∈ M.history out s (before ++ a :: after) := by
  rw [history_append hbefore]
  apply List.mem_append_right
  simp only [history, hstep]
  exact List.mem_append_left _ hx

section Crossing

variable {M : System State Action} {out : State -> Action -> List Entry}
  {x : Entry} {height : State -> Nat} {k : Nat} {s s' : State}
  {actions : List Action}

theorem height_le_of_run
    (hmono : forall s a s', M.step s a = some s' -> height s ≤ height s')
    (hrun : M.run s actions = some s') : height s ≤ height s' := by
  induction actions generalizing s with
  | nil =>
      have heq : s = s' := by simpa using hrun
      exact Nat.le_of_eq (congrArg height heq)
  | cons a rest ih =>
      rcases run_cons_some.mp hrun with ⟨mid, hstep, hrest⟩
      exact Nat.le_trans (hmono s a mid hstep) (ih hrest)

/-- What is written when a height is passed is not written above it. -/
theorem not_mem_history_of_le
    (hmono : forall s a s', M.step s a = some s' -> height s ≤ height s')
    (hcross : forall s a s', M.step s a = some s' -> x ∈ out s a -> height s < k)
    (hrun : M.run s actions = some s') (hk : k ≤ height s) :
    x ∉ M.history out s actions := by
  intro hx
  rcases exists_step_of_mem_history hrun hx with
    ⟨before, a, after, t, t', _, hbefore, hout, hstep, _⟩
  have hlow := hcross t a t' hstep hout
  have hle := height_le_of_run hmono hbefore
  omega

/-- Nor is it written below. -/
theorem not_mem_history_of_lt
    (hmono : forall s a s', M.step s a = some s' -> height s ≤ height s')
    (hcross : forall s a s', M.step s a = some s' -> x ∈ out s a -> k ≤ height s')
    (hrun : M.run s actions = some s') (hk : height s' < k) :
    x ∉ M.history out s actions := by
  intro hx
  rcases exists_step_of_mem_history hrun hx with
    ⟨before, a, after, t, t', _, _, hout, hstep, hafter⟩
  have hhigh := hcross t a t' hstep hout
  have hle := height_le_of_run hmono hafter
  omega

end Crossing

/-- A condition that follows from an invariant holds along the whole run. -/
theorem along_of_invariant {M : System State Action}
    {P Q : State -> Action -> Prop} {I : State -> Prop}
    (hstep : forall s a s', I s -> P s a -> M.step s a = some s' -> I s')
    (hQ : forall s a, I s -> P s a -> Q s a)
    {s : State} {actions : List Action} (hs : I s)
    (halong : M.Along P s actions) : M.Along Q s actions := by
  induction actions generalizing s with
  | nil =>
      trivial
  | cons a rest ih =>
      refine ⟨hQ s a hs halong.left, ?_⟩
      intro s' hs'
      exact ih (hstep s a s' hs halong.left hs') (halong.right s' hs')

/-- Two conditions agree along the runs from a state, when they agree under an
invariant that the steps meeting one of them keep. -/
theorem along_iff_of_invariant {M : System State Action}
    {P Q : State -> Action -> Prop} {I : State -> Prop}
    (hstep : forall s a s', I s -> P s a -> M.step s a = some s' -> I s')
    (hPQ : forall s a, I s -> (Q s a <-> P s a)) {s : State}
    {actions : List Action} (hs : I s) :
    M.Along Q s actions <-> M.Along P s actions := by
  induction actions generalizing s with
  | nil =>
      simp [Along]
  | cons a rest ih =>
      constructor
      · intro h
        have hP := (hPQ s a hs).mp h.left
        constructor
        · exact hP
        · intro s' hs'
          exact (ih (hstep s a s' hs hP hs')).mp (h.right s' hs')
      · intro h
        constructor
        · exact (hPQ s a hs).mpr h.left
        · intro s' hs'
          exact (ih (hstep s a s' hs h.left hs')).mpr (h.right s' hs')

end System

end HifiApi
