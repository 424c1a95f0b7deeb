import Mathlib.Data.List.Basic
import Mathlib.Data.List.Nodup
import Mathlib.Tactic.Common

/-!
# Ranks in a list

The rank of an entry in a list without repetitions, and what leaving entries
out, adding entries at the end and pairs in order say about ranks.
-/

namespace HifiApi

namespace Ranks

variable {Key : Type} [DecidableEq Key]

/-- Leaving entries out does not raise a rank. -/
theorem idxOf_le_of_sublist {keys keys' : List Key} (h : keys'.Sublist keys)
    (hnodup : keys.Nodup) {k : Key} (hk : k ∈ keys') :
    keys'.idxOf k ≤ keys.idxOf k := by
  induction h with
  | slnil =>
      cases hk
  | cons a hsub ih =>
      rw [List.nodup_cons] at hnodup
      have hne : a ≠ k := by
        intro heq
        rw [heq] at hnodup
        exact hnodup.left (hsub.subset hk)
      rw [List.idxOf_cons_ne _ hne]
      exact Nat.le_succ_of_le (ih hnodup.right hk)
  | cons_cons a hsub ih =>
      rw [List.nodup_cons] at hnodup
      by_cases heq : a = k
      · rw [heq, List.idxOf_cons_self]
        exact Nat.zero_le _
      · rcases List.mem_cons.mp hk with hsame | hrest
        · exact absurd hsame.symm heq
        · rw [List.idxOf_cons_ne _ heq, List.idxOf_cons_ne _ heq]
          exact Nat.succ_le_succ (ih hnodup.right hrest)

/-- Of two entries in order the first has the lower rank. -/
theorem idxOf_lt_of_pair {keys : List Key} {a b : Key}
    (h : [a, b].Sublist keys) (hnodup : keys.Nodup) :
    keys.idxOf a < keys.idxOf b := by
  rcases List.cons_sublist_iff.mp h with ⟨first, second, hkeys, ha, hb⟩
  rw [hkeys] at hnodup ⊢
  have hbSecond : b ∈ second := hb.subset (List.mem_singleton_self b)
  have hbFirst : b ∉ first := by
    intro hmem
    exact (List.nodup_append.mp hnodup).right.right b hmem b hbSecond rfl
  rw [List.idxOf_append_of_mem ha, List.idxOf_append_of_notMem hbFirst]
  exact Nat.lt_of_lt_of_le (List.idxOf_lt_length_of_mem ha) (Nat.le_add_right _ _)

/-- The ranks of all entries, counted from one. -/
theorem map_idxOf {keys : List Key} (hnodup : keys.Nodup) :
    (keys.map fun k => keys.idxOf k + 1) = List.range' 1 keys.length := by
  apply List.ext_getElem
  · rw [List.length_map, List.length_range']
  · intro i hi hi'
    rw [List.length_map] at hi
    rw [List.getElem_map, List.getElem_range', hnodup.idxOf_getElem, Nat.one_mul,
      Nat.add_comm]

/-- Positions that count the entries from one are their ranks. -/
theorem position_of_map {keys : List Key} {position : Key -> Nat}
    (h : keys.map position = List.range' 1 keys.length) {k : Key} (hk : k ∈ keys) :
    position k = keys.idxOf k + 1 := by
  have hlt : keys.idxOf k < keys.length := List.idxOf_lt_length_of_mem hk
  have hget := List.getElem_of_eq h (i := keys.idxOf k) (by rwa [List.length_map])
  rw [List.getElem_map, List.getElem_idxOf, List.getElem_range', Nat.one_mul,
    Nat.add_comm] at hget
  exact hget

end Ranks

end HifiApi
