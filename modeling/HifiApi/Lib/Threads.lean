import Mathlib.Data.List.Basic
import Mathlib.Tactic.Common

/-!
# Threads at the places of a list

A system runs several threads at once and keeps one element for each in a list.  A
thread starts at the end of the list, changes at its place, and leaves it.  What holds
of all elements and how many are of a kind follows each of these steps.
-/

namespace HifiApi

namespace Threads

variable {α : Type} {threads : List α} {i : Nat} {t : α}

theorem countP_eraseIdx (p : α -> Bool) (h : threads[i]? = some t) :
    (threads.eraseIdx i).countP p + (p t).toNat = threads.countP p := by
  induction threads generalizing i with
  | nil =>
      cases h
  | cons first rest ih =>
      cases i with
      | zero =>
          cases h
          rw [List.eraseIdx_cons_zero, List.countP_cons]
          cases p t <;> rfl
      | succ i =>
          have hrest := ih (i := i) h
          rw [List.eraseIdx_cons_succ, List.countP_cons, List.countP_cons]
          omega

theorem countP_modify (p : α -> Bool) (f : α -> α) (h : threads[i]? = some t) :
    (threads.modify i f).countP p + (p t).toNat =
      threads.countP p + (p (f t)).toNat := by
  induction threads generalizing i with
  | nil =>
      cases h
  | cons first rest ih =>
      cases i with
      | zero =>
          cases h
          rw [List.modify_zero_cons, List.countP_cons, List.countP_cons]
          cases p t <;> cases p (f t) <;> rfl
      | succ i =>
          have hrest := ih (i := i) h
          rw [List.modify_succ_cons, List.countP_cons, List.countP_cons]
          omega

theorem countP_concat (p : α -> Bool) (t : α) :
    (threads ++ [t]).countP p = threads.countP p + (p t).toNat := by
  rw [List.countP_append, List.countP_singleton]
  cases p t <;> rfl

variable {P : α -> Prop}

theorem forall_eraseIdx (h : forall t, t ∈ threads -> P t) :
    forall t, t ∈ threads.eraseIdx i -> P t :=
  fun t ht => h t (List.mem_of_mem_eraseIdx ht)

theorem forall_modify {f : α -> α} (h : forall t, t ∈ threads -> P t)
    (hf : forall t, threads[i]? = some t -> P (f t)) :
    forall t, t ∈ threads.modify i f -> P t := by
  intro t ht
  rcases List.mem_iff_getElem?.mp ht with ⟨j, hj⟩
  rw [List.getElem?_modify] at hj
  rcases Option.map_eq_some_iff.mp hj with ⟨u, hu, heq⟩
  by_cases hij : i = j
  · rw [if_pos hij] at heq
    rw [← heq]
    exact hf u (hij ▸ hu)
  · rw [if_neg hij] at heq
    rw [← heq]
    exact h u (List.mem_of_getElem? hu)

theorem forall_concat (h : forall t, t ∈ threads -> P t) (ht : P t) :
    forall u, u ∈ threads ++ [t] -> P u := by
  intro u hu
  rcases List.mem_append.mp hu with hold | hnew
  · exact h u hold
  · rw [List.mem_singleton.mp hnew]
    exact ht

end Threads

end HifiApi
