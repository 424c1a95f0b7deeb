import Mathlib.Data.List.DropRight
import Mathlib.Data.List.TakeWhile
import Mathlib.Tactic.Common

/-!
# Limits in a sliding window

A log of times, of which only the recent part is kept: what is a whole width old
is dropped from its front.  If an entry is only added while fewer than the limit
are left after dropping, no window of that width ever has more than the limit,
wherever it starts.
-/

namespace HifiApi

namespace Window

/-- The part of a log that is left once the entries up to a cutoff have been
dropped from its front. -/
def prune (cutoff : Int) (log : List Int) : List Int :=
  log.dropWhile fun t => t ≤ cutoff

/-- The entries of a window. -/
def count (width start : Int) (log : List Int) : Nat :=
  log.countP fun t => start ≤ t ∧ t < start + width

/-- The entries after a cutoff. -/
def after (cutoff : Int) (log : List Int) : Nat :=
  log.countP fun t => cutoff < t

/-- No window has more entries than the limit. -/
def Bounded (width : Int) (limit : Nat) (log : List Int) : Prop :=
  forall start, count width start log ≤ limit

/-- All entries of a log that are not a whole width old are kept. -/
def Recent (width now : Int) (log kept : List Int) : Prop :=
  exists old, log = old ++ kept ∧ forall t, t ∈ old -> t ≤ now - width

variable {width now t : Int} {limit : Nat} {log kept : List Int}

@[simp] theorem prune_prune (cutoff : Int) (log : List Int) :
    prune cutoff (prune cutoff log) = prune cutoff log :=
  List.dropWhile_idempotent _ _

/-- What is dropped is not after the cutoff. -/
theorem prune_split (cutoff : Int) (log : List Int) :
    exists dropped, log = dropped ++ prune cutoff log ∧
      forall t, t ∈ dropped -> t ≤ cutoff := by
  refine ⟨log.takeWhile fun t => t ≤ cutoff,
    (List.takeWhile_append_dropWhile ..).symm, ?_⟩
  intro t ht
  have hle := @List.mem_takeWhile_imp _ (fun t => decide (t ≤ cutoff)) _ _ ht
  exact of_decide_eq_true hle

theorem recent_refl (width now : Int) (log : List Int) :
    Recent width now log log := by
  refine ⟨[], rfl, ?_⟩
  intro t ht
  cases ht

theorem Recent.later (h : Recent width now log kept) {now' : Int}
    (hnow : now ≤ now') : Recent width now' log kept := by
  rcases h with ⟨old, heq, hold⟩
  refine ⟨old, heq, ?_⟩
  intro t ht
  have hle := hold t ht
  omega

/-- Only what is a whole width old may be dropped. -/
theorem Recent.prune (h : Recent width now log kept) {cutoff : Int}
    (hcutoff : cutoff ≤ now - width) :
    Recent width now log (prune cutoff kept) := by
  rcases h with ⟨old, heq, hold⟩
  rcases prune_split cutoff kept with ⟨dropped, hkept, hdropped⟩
  refine ⟨old ++ dropped, ?_, ?_⟩
  · rw [List.append_assoc, ← hkept]
    exact heq
  · intro t ht
    rcases List.mem_append.mp ht with hfirst | hsecond
    · exact hold t hfirst
    · exact Int.le_trans (hdropped t hsecond) hcutoff

theorem Recent.snoc (h : Recent width now log kept) (t : Int) :
    Recent width now (log ++ [t]) (kept ++ [t]) := by
  rcases h with ⟨old, heq, hold⟩
  refine ⟨old, ?_, hold⟩
  rw [heq, List.append_assoc]

/-- What is not a whole width old is among the kept entries. -/
theorem Recent.after_le (h : Recent width now log kept) :
    after (now - width) log ≤ (Window.prune (now - width) kept).length := by
  rcases h.prune (Int.le_refl _) with ⟨old, heq, hold⟩
  have hnone : after (now - width) old = 0 := by
    apply List.countP_eq_zero.mpr
    intro t ht hafter
    have hle := hold t ht
    have hgt := of_decide_eq_true hafter
    omega
  unfold after at hnone ⊢
  rw [heq, List.countP_append, hnone, Nat.zero_add]
  exact List.countP_le_length

theorem after_le_of_le {cutoff cutoff' : Int} (h : cutoff ≤ cutoff')
    (log : List Int) : after cutoff' log ≤ after cutoff log := by
  apply List.countP_mono_left
  intro t _ hafter
  have hgt := of_decide_eq_true hafter
  exact decide_eq_true (by omega)

theorem bounded_nil (width : Int) (limit : Nat) : Bounded width limit [] :=
  fun _ => Nat.zero_le _

/-- An entry may be added while fewer than the limit are recent. -/
theorem Bounded.snoc (hbounded : Bounded width limit log) (hnow : now ≤ t)
    (hless : after (now - width) log < limit) :
    Bounded width limit (log ++ [t]) := by
  intro start
  have hsplit : count width start (log ++ [t]) =
      count width start log + count width start [t] := List.countP_append
  rw [hsplit]
  by_cases hin : start ≤ t ∧ t < start + width
  · have hrecent : count width start log ≤ after (now - width) log := by
      apply List.countP_mono_left
      intro u _ hu
      have hwindow := of_decide_eq_true hu
      exact decide_eq_true (by omega)
    have hone : count width start [t] ≤ 1 := List.countP_le_length
    omega
  · have hzero : count width start [t] = 0 := by
      simp [count, hin]
    rw [hzero]
    exact hbounded start

end Window

end HifiApi
