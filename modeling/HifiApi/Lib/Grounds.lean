import HifiApi.Lib.System
import Mathlib.Data.List.Induction

/-!
# Grounded histories

A history is grounded when each of its entries is warranted by the entries before
it.  What is written at each step of a run has to be warranted by what was written
so far, and the whole history is grounded.
-/

namespace HifiApi

variable {State Action Entry : Type}

/-- Every entry of the history is warranted by those before it. -/
def Grounded (Warrant : List Entry -> Entry -> Prop) (log : List Entry) : Prop :=
  forall before e later, log = before ++ e :: later -> Warrant before e

namespace Grounded

variable {Warrant : List Entry -> Entry -> Prop} {log : List Entry}

theorem nil : Grounded Warrant [] := by
  intro before e later h
  cases before with
  | nil =>
      cases h
  | cons e' before =>
      cases h

theorem snoc (h : Grounded Warrant log) {e : Entry} (he : Warrant log e) :
    Grounded Warrant (log ++ [e]) := by
  intro before e' later heq
  induction later using List.reverseRecOn with
  | nil =>
      rcases List.append_inj' heq rfl with ⟨hbefore, hlast⟩
      cases hlast
      rw [<- hbefore]
      exact he
  | append_singleton later last _ =>
      rw [<- List.cons_append, <- List.append_assoc] at heq
      exact h before e' later (List.append_inj_left' heq rfl)

end Grounded

end HifiApi
