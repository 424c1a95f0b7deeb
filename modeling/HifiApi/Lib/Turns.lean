import Mathlib.Data.List.Rotate
import Mathlib.Data.List.Sort
import Mathlib.Tactic.Common

/-!
# Taking turns

A list ordered by a rank, where entries of one rank take turns: it is rotated
before it is sorted, and the sort is stable.  Whoever takes the first entry, or
the first one that meets a condition, takes one of the lowest rank.
-/

namespace HifiApi

namespace Turns

variable {Entry Rank : Type} [LinearOrder Rank]

/-- The entries by rank, from the given turn on. -/
def order (rank : Entry -> Rank) (turn : Nat) (entries : List Entry) :
    List Entry :=
  (entries.rotate (turn % entries.length)).insertionSort
    fun a b => rank a ≤ rank b

variable {rank : Entry -> Rank} {turn : Nat} {entries : List Entry} {a : Entry}

@[simp] theorem mem_order : a ∈ order rank turn entries <-> a ∈ entries := by
  rw [order, List.mem_insertionSort, List.mem_rotate]

theorem pairwise_order (rank : Entry -> Rank) (turn : Nat)
    (entries : List Entry) :
    (order rank turn entries).Pairwise fun a b => rank a ≤ rank b := by
  have : Std.Total fun a b => rank a ≤ rank b :=
    ⟨fun a b => le_total (rank a) (rank b)⟩
  have : IsTrans Entry fun a b => rank a ≤ rank b :=
    ⟨fun _ _ _ hab hbc => le_trans hab hbc⟩
  exact List.pairwise_insertionSort _ _

/-- The first entry that meets a condition has the lowest rank of those that
do. -/
theorem rank_le_of_find? {p : Entry -> Bool}
    (h : (order rank turn entries).find? p = some a) {b : Entry}
    (hb : b ∈ entries) (hp : p b = true) : rank a ≤ rank b := by
  rcases List.find?_eq_some_iff_append.mp h with ⟨_, first, rest, heq, hfirst⟩
  have hsorted := pairwise_order rank turn entries
  rw [heq] at hsorted
  have hmem : b ∈ order rank turn entries := mem_order.mpr hb
  rw [heq] at hmem
  rcases List.mem_append.mp hmem with hbefore | hafter
  · have hnot := hfirst b hbefore
    rw [hp] at hnot
    cases hnot
  · rcases List.mem_cons.mp hafter with hsame | hlater
    · rw [hsame]
    · have htail := (List.pairwise_append.mp hsorted).right.left
      exact (List.pairwise_cons.mp htail).left b hlater

/-- The first entry has the lowest rank. -/
theorem rank_le_of_head? (h : (order rank turn entries).head? = some a)
    {b : Entry} (hb : b ∈ entries) : rank a ≤ rank b := by
  have hfind : (order rank turn entries).find? (fun _ => true) = some a := by
    cases hlist : order rank turn entries with
    | nil =>
        rw [hlist] at h
        cases h
    | cons first rest =>
        rw [hlist] at h
        exact h
  exact rank_le_of_find? hfind hb rfl

/-- Where there are entries, one of them comes first. -/
theorem exists_head? (rank : Entry -> Rank) (turn : Nat) (h : entries ≠ []) :
    exists a, (order rank turn entries).head? = some a := by
  rcases List.exists_mem_of_ne_nil _ h with ⟨a, ha⟩
  have hne : order rank turn entries ≠ [] := List.ne_nil_of_mem (mem_order.mpr ha)
  exact ⟨_, List.head?_eq_some_head hne⟩

theorem mem_of_head? (h : (order rank turn entries).head? = some a) :
    a ∈ entries :=
  mem_order.mp (List.mem_of_head? h)

/-!
## Rounds
-/

/-- Entries in the order of their rank from the given turn on stay where they
are. -/
theorem order_eq_rotate
    (h : (entries.rotate turn).Pairwise fun a b => rank a ≤ rank b) :
    order rank turn entries = entries.rotate turn := by
  rw [order, List.rotate_mod]
  exact h.insertionSort_eq

/-- Entries that take turns: from the given turn on, whoever was taken longer ago
comes first, and was taken at most once less. -/
structure Round (stamp : Entry -> Rank) (taken : Entry -> Nat) (turn : Nat)
    (entries : List Entry) : Prop where
  stamps : (entries.rotate turn).Pairwise fun a b => stamp a ≤ stamp b
  shares : (entries.rotate turn).Pairwise fun a b => taken a ≤ taken b
  even : forall a b, a ∈ entries -> b ∈ entries -> taken a ≤ taken b + 1

/-- Entries that were taken at one time, and equally often. -/
theorem round_of_equal {stamp : Entry -> Rank} (turn : Nat)
    (h : forall a b, a ∈ entries -> b ∈ entries -> stamp a = stamp b) :
    Round stamp (fun _ => 0) turn entries where
  stamps := by
    apply List.pairwise_of_forall_mem_list
    intro a ha b hb
    exact le_of_eq (h a b (List.mem_rotate.mp ha) (List.mem_rotate.mp hb))
  shares := List.pairwise_of_forall fun _ _ => Nat.le_refl 0
  even := fun _ _ _ _ => Nat.zero_le _

/-- The first entry of a round is taken, and goes to the end of the next one. -/
theorem Round.next {stamp stamp' : Entry -> Rank} {taken taken' : Entry -> Nat}
    (h : Round stamp taken turn entries) (hnodup : entries.Nodup)
    (hhead : (entries.rotate turn).head? = some a)
    (hlate : forall b, b ∈ entries -> stamp b ≤ stamp' a)
    (hstamp : forall b, b ∈ entries -> b ≠ a -> stamp' b = stamp b)
    (hfirst : taken' a = taken a + 1)
    (htaken : forall b, b ∈ entries -> b ≠ a -> taken' b = taken b) :
    Round stamp' taken' (turn + 1) entries := by
  rcases List.head?_eq_some_iff.mp hhead with ⟨rest, hrotate⟩
  have hnext : entries.rotate (turn + 1) = rest ++ [a] := by
    rw [← List.rotate_rotate, hrotate]
    simp
  have hmem : forall b, b ∈ entries <-> b = a ∨ b ∈ rest := by
    intro b
    rw [← List.mem_rotate, hrotate, List.mem_cons]
  have hdistinct : (a :: rest).Nodup := by
    rw [← hrotate]
    exact List.nodup_rotate.mpr hnodup
  have hnot : forall b, b ∈ rest -> b ∈ entries ∧ b ≠ a := by
    intro b hb
    refine ⟨(hmem b).mpr (Or.inr hb), ?_⟩
    intro heq
    rw [heq] at hb
    exact (List.nodup_cons.mp hdistinct).left hb
  have hstamps := h.stamps
  have hcounts := h.shares
  rw [hrotate] at hstamps hcounts
  have hleast := (List.pairwise_cons.mp hcounts).left
  constructor
  · rw [hnext]
    apply List.pairwise_append.mpr
    refine ⟨?_, List.pairwise_singleton _ _, ?_⟩
    · apply (List.pairwise_cons.mp hstamps).right.imp_of_mem
      intro b c hb hc hle
      rw [hstamp b (hnot b hb).left (hnot b hb).right,
        hstamp c (hnot c hc).left (hnot c hc).right]
      exact hle
    · intro b hb c hc
      rw [List.mem_singleton.mp hc, hstamp b (hnot b hb).left (hnot b hb).right]
      exact hlate b (hnot b hb).left
  · rw [hnext]
    apply List.pairwise_append.mpr
    refine ⟨?_, List.pairwise_singleton _ _, ?_⟩
    · apply (List.pairwise_cons.mp hcounts).right.imp_of_mem
      intro b c hb hc hle
      rw [htaken b (hnot b hb).left (hnot b hb).right,
        htaken c (hnot c hc).left (hnot c hc).right]
      exact hle
    · intro b hb c hc
      rw [List.mem_singleton.mp hc, htaken b (hnot b hb).left (hnot b hb).right,
        hfirst]
      exact h.even b a (hnot b hb).left ((hmem a).mpr (Or.inl rfl))
  · intro b c hb hc
    have heven := h.even b c hb hc
    by_cases hba : b = a
    · by_cases hca : c = a
      · rw [hba, hca]
        omega
      · have hcRest : c ∈ rest := ((hmem c).mp hc).resolve_left hca
        have hless := hleast c hcRest
        rw [hba, hfirst, htaken c hc hca]
        omega
    · rw [htaken b hb hba]
      by_cases hca : c = a
      · rw [hca] at heven ⊢
        omega
      · rw [htaken c hc hca]
        exact heven

end Turns

end HifiApi
