import Mathlib.Algebra.BigOperators.Group.List.Basic
import Mathlib.Data.List.Induction
import Mathlib.Data.List.Nodup
import Mathlib.Tactic.Common

/-!
# Counters in buckets of time

Something is added up per point of time, in a list of buckets.  When something is
added, the buckets that are a whole width older are dropped.  What is still
younger than that at the end has been counted in full.
-/

namespace HifiApi

namespace Buckets

variable {α : Type} [AddCommMonoid α]

/-- Into the bucket of the time, or into a new one at the end. -/
def add (t : Int) (x : α) : List (Int × α) -> List (Int × α)
  | [] => [(t, x)]
  | b :: rest => if b.1 = t then (b.1, b.2 + x) :: rest else b :: add t x rest

def record (width t : Int) (x : α) (buckets : List (Int × α)) : List (Int × α) :=
  add t x (buckets.filter fun b => decide (t - width < b.1))

/-- All of a list of additions, each at its time. -/
def recordAll (width : Int) (added : List (Int × α)) : List (Int × α) :=
  added.foldl (fun buckets e => record width e.1 e.2 buckets) []

/-- What there is at the times that meet a condition. -/
def sumWhere (p : Int -> Bool) (buckets : List (Int × α)) : α :=
  ((buckets.filter fun b => p b.1).map Prod.snd).sum

variable {p q : Int -> Bool} {width t : Int} {x : α} {buckets added : List (Int × α)}

@[simp] theorem sumWhere_nil : sumWhere p ([] : List (Int × α)) = 0 := rfl

theorem sumWhere_cons (b : Int × α) :
    sumWhere p (b :: buckets) = (if p b.1 = true then b.2 else 0) + sumWhere p buckets := by
  unfold sumWhere
  rw [List.filter_cons]
  split
  · rw [List.map_cons, List.sum_cons]
  · rw [zero_add]

theorem sumWhere_append :
    sumWhere p (buckets ++ added) = sumWhere p buckets + sumWhere p added := by
  unfold sumWhere
  rw [List.filter_append, List.map_append, List.sum_append]

theorem sumWhere_add :
    sumWhere p (add t x buckets) = sumWhere p buckets + if p t = true then x else 0 := by
  induction buckets with
  | nil =>
      rw [add, sumWhere_cons, sumWhere_nil, add_zero, zero_add]
  | cons b rest ih =>
      rw [add]
      split
      · rename_i htime
        rw [sumWhere_cons, sumWhere_cons, htime]
        split
        · exact add_right_comm b.2 x _
        · rw [add_zero]
      · rw [sumWhere_cons, sumWhere_cons, ih, add_assoc]

/-- Dropping other buckets changes nothing. -/
theorem sumWhere_filter (h : forall t, p t = true -> q t = true) :
    sumWhere p (buckets.filter fun b => q b.1) = sumWhere p buckets := by
  unfold sumWhere
  rw [List.filter_filter]
  congr 2
  apply List.filter_congr
  intro b _
  cases hp : p b.1 with
  | false =>
      rfl
  | true =>
      exact h b.1 hp

theorem sumWhere_eq_zero (h : forall b, b ∈ buckets -> p b.1 = false) :
    sumWhere p buckets = 0 := by
  unfold sumWhere
  rw [List.filter_eq_nil_iff.mpr fun b hb => by rw [h b hb]; exact Bool.false_ne_true]
  rfl

theorem recordAll_concat (e : Int × α) :
    recordAll width (added ++ [e]) = record width e.1 e.2 (recordAll width added) := by
  rw [recordAll, List.foldl_append]
  rfl

/-!
## One bucket for a time
-/

theorem mem_add {b : Int × α} (h : b ∈ add t x buckets) :
    b.1 = t ∨ b ∈ buckets := by
  induction buckets with
  | nil =>
      rw [add, List.mem_singleton] at h
      rw [h]
      exact Or.inl rfl
  | cons c rest ih =>
      rw [add] at h
      split at h
      · rename_i htime
        rcases List.mem_cons.mp h with hfirst | hrest
        · rw [hfirst]
          exact Or.inl htime
        · exact Or.inr (List.mem_cons_of_mem c hrest)
      · rcases List.mem_cons.mp h with hfirst | hrest
        · rw [hfirst]
          exact Or.inr List.mem_cons_self
        · rcases ih hrest with htime | hmem
          · exact Or.inl htime
          · exact Or.inr (List.mem_cons_of_mem c hmem)

theorem nodup_add (h : (buckets.map Prod.fst).Nodup) :
    ((add t x buckets).map Prod.fst).Nodup := by
  induction buckets with
  | nil =>
      exact List.nodup_singleton t
  | cons b rest ih =>
      rw [List.map_cons, List.nodup_cons] at h
      rw [add]
      split
      · rw [List.map_cons, List.nodup_cons]
        exact h
      · rename_i hother
        rw [List.map_cons, List.nodup_cons]
        constructor
        · intro hmem
          rcases List.mem_map.mp hmem with ⟨c, hc, htime⟩
          rcases mem_add hc with hnew | hold
          · exact hother (htime.symm.trans hnew)
          · exact h.left (List.mem_map.mpr ⟨c, hold, htime⟩)
        · exact ih h.right

theorem nodup_recordAll (width : Int) (added : List (Int × α)) :
    ((recordAll width added).map Prod.fst).Nodup := by
  induction added using List.reverseRecOn with
  | nil =>
      exact List.nodup_nil
  | append_singleton rest e ih =>
      rw [recordAll_concat, record]
      apply nodup_add
      exact ih.sublist (List.Sublist.map _ List.filter_sublist)

/-- A bucket holds all there is at its time. -/
theorem sumWhere_of_mem (hdistinct : (buckets.map Prod.fst).Nodup) {b : Int × α}
    (hb : b ∈ buckets) : sumWhere (fun t => decide (t = b.1)) buckets = b.2 := by
  induction buckets with
  | nil =>
      cases hb
  | cons c rest ih =>
      rw [List.map_cons, List.nodup_cons] at hdistinct
      rw [sumWhere_cons]
      rcases List.mem_cons.mp hb with hfirst | hrest
      · rw [hfirst, if_pos (decide_eq_true rfl), sumWhere_eq_zero, add_zero]
        intro d hd
        apply decide_eq_false
        intro htime
        exact hdistinct.left (List.mem_map.mpr ⟨d, hd, htime⟩)
      · rw [if_neg, ih hdistinct.right hrest, zero_add]
        intro htime
        apply hdistinct.left
        rw [of_decide_eq_true htime]
        exact List.mem_map_of_mem hrest

/-!
## What is left in the end
-/

/-- Before the time of an addition nothing a width older is left. -/
theorem width_of_mem_recordAll (hwidth : 0 < width) {rest : List (Int × α)}
    {e b : Int × α} (hb : b ∈ recordAll width (rest ++ [e])) : e.1 - width < b.1 := by
  rw [recordAll_concat, record] at hb
  rcases mem_add hb with htime | hmem
  · omega
  · exact of_decide_eq_true (List.mem_filter.mp hmem).right

/-- What is younger than a width at the end is counted in full. -/
theorem sumWhere_recordAll {last : Int} (hadded : forall e, e ∈ added -> e.1 ≤ last)
    (hp : forall t, p t = true -> last - width < t) :
    sumWhere p (recordAll width added) = sumWhere p added := by
  induction added using List.reverseRecOn with
  | nil =>
      rfl
  | append_singleton rest e ih =>
      have he : e.1 ≤ last := hadded e (by simp)
      have hkept : forall t, p t = true -> decide (e.1 - width < t) = true := by
        intro t ht
        have hrecent := hp t ht
        apply decide_eq_true
        omega
      rw [recordAll_concat, record, sumWhere_add, sumWhere_filter hkept,
        ih fun e he => hadded e (by simp [he]), sumWhere_append, sumWhere_cons,
        sumWhere_nil, add_zero]

end Buckets

end HifiApi
