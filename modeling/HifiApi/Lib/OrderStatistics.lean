import Mathlib.Algebra.Order.Floor.Semiring
import Mathlib.Data.List.Sort
import Mathlib.Data.Rat.Floor
import Mathlib.Tactic.Linarith
import Mathlib.Tactic.Positivity

/-!
# Order statistics

Entries of an ascending list at two neighbouring positions, and two positions
for a share of the entries: the nearest rank, and the truncated product.  They
differ only where the share is a whole number of entries, and then the entries
there differ exactly if that many entries are at most some bound.
-/

namespace HifiApi

namespace OrderStatistics

section Gaps

variable {Key : Type} [LinearOrder Key] {keys : List Key} {k : Nat}

theorem getElem_le_getElem (h : keys.Pairwise (· ≤ ·)) {i j : Nat} (hij : i ≤ j)
    (hj : j < keys.length) : keys[i] ≤ keys[j] := by
  rcases Nat.lt_or_eq_of_le hij with hlt | heq
  · exact List.pairwise_iff_getElem.mp h i j _ hj hlt
  · subst heq
    exact le_refl _

/-- The entries at the first positions are those that are at most a bound. -/
theorem countP_le_eq (h : keys.Pairwise (· ≤ ·)) (hk : k < keys.length) (hpos : 0 < k)
    {bound : Key} (hbelow : keys[k - 1] ≤ bound) (habove : bound < keys[k]) :
    keys.countP (fun key => decide (key ≤ bound)) = k := by
  rw [← List.take_append_drop k keys, List.countP_append]
  have htake : (keys.take k).countP (fun key => decide (key ≤ bound)) = k := by
    have hall : forall key, key ∈ keys.take k -> decide (key ≤ bound) = true := by
      intro key hkey
      rcases List.mem_take_iff_getElem.mp hkey with ⟨i, hi, heq⟩
      rw [← heq]
      have hle := getElem_le_getElem h (i := i) (j := k - 1) (by omega) (by omega)
      exact decide_eq_true (hle.trans hbelow)
    rw [List.countP_eq_length.mpr hall, List.length_take]
    omega
  have hdrop : (keys.drop k).countP (fun key => decide (key ≤ bound)) = 0 := by
    apply List.countP_eq_zero.mpr
    intro key hkey hle
    rcases List.mem_drop_iff_getElem.mp hkey with ⟨i, hi, heq⟩
    rw [← heq] at hle
    have hge := getElem_le_getElem h (i := k) (j := k + i) (by omega) (by omega)
    have hlt := lt_of_lt_of_le habove hge
    exact absurd (of_decide_eq_true hle) (not_le_of_gt hlt)
  omega

/-- Where two neighbouring entries are equal, no bound comes between them. -/
theorem countP_le_ne (h : keys.Pairwise (· ≤ ·)) (hk : k < keys.length) (hpos : 0 < k)
    (heq : keys[k - 1] = keys[k]) (bound : Key) :
    keys.countP (fun key => decide (key ≤ bound)) ≠ k := by
  intro hcount
  rcases le_or_gt keys[k] bound with hle | hgt
  · have hall : forall key, key ∈ keys.take (k + 1) -> decide (key ≤ bound) = true := by
      intro key hkey
      rcases List.mem_take_iff_getElem.mp hkey with ⟨i, hi, hget⟩
      rw [← hget]
      have hbelow := getElem_le_getElem h (i := i) (j := k) (by omega) hk
      exact decide_eq_true (hbelow.trans hle)
    have hmany := (List.take_sublist (k + 1) keys).countP_le
      (p := fun key => decide (key ≤ bound))
    rw [List.countP_eq_length.mpr hall, List.length_take, hcount] at hmany
    omega
  · rw [← List.take_append_drop (k - 1) keys, List.countP_append] at hcount
    have hdrop :
        (keys.drop (k - 1)).countP (fun key => decide (key ≤ bound)) = 0 := by
      apply List.countP_eq_zero.mpr
      intro key hkey hle
      rcases List.mem_drop_iff_getElem.mp hkey with ⟨i, hi, hget⟩
      rw [← hget] at hle
      have hge := getElem_le_getElem h (i := k - 1) (j := k - 1 + i) (by omega)
        (by omega)
      rw [heq] at hge
      exact absurd (of_decide_eq_true hle) (not_le_of_gt (lt_of_lt_of_le hgt hge))
    have hfew := List.countP_le_length (p := fun key => decide (key ≤ bound))
      (l := keys.take (k - 1))
    rw [List.length_take] at hfew
    omega

/-- Two neighbouring entries are equal exactly if no bound has the first of them
and all before it, and no more, below it. -/
theorem getElem_eq_iff (h : keys.Pairwise (· ≤ ·)) (hk : k < keys.length)
    (hpos : 0 < k) :
    keys[k - 1] = keys[k] <->
      forall bound, keys.countP (fun key => decide (key ≤ bound)) ≠ k := by
  constructor
  · exact countP_le_ne h hk hpos
  · intro hnone
    by_contra hne
    have hle := getElem_le_getElem h (Nat.sub_le k 1) hk
    exact hnone keys[k - 1]
      (countP_le_eq h hk hpos (le_refl _) (lt_of_le_of_ne hle hne))

end Gaps

/-!
## Positions
-/

/-- The position of the nearest rank. -/
def nearestRank (share : ℚ) (length : Nat) : Nat :=
  min (max ⌈(length : ℚ) * share⌉₊ 1) length - 1

/-- The position that the truncated product names. -/
def truncated (share : ℚ) (length : Nat) : Nat :=
  min ⌊share * (length : ℚ)⌋₊ (length - 1)

section Positions

variable {share : ℚ} {length : Nat}

/-- The two positions are neighbours where the share is a whole number. -/
theorem positions_of_whole {k : Nat} (hpos : 0 < k) (hk : k < length)
    (h : share * length = k) :
    nearestRank share length = k - 1 ∧ truncated share length = k := by
  constructor
  · unfold nearestRank
    rw [mul_comm, h, Nat.ceil_natCast]
    omega
  · unfold truncated
    rw [h, Nat.floor_natCast]
    omega

/-- Elsewhere there is one position. -/
theorem positions_of_not_whole (hshare : 0 < share) (hlt : share < 1)
    (hlength : 0 < length) (h : forall k : Nat, share * length ≠ k) :
    nearestRank share length = truncated share length := by
  have hlength' : (0 : ℚ) < length := Nat.cast_pos.mpr hlength
  have hnonneg : 0 ≤ share * length := (mul_pos hshare hlength').le
  have hfloor : ⌊share * (length : ℚ)⌋₊ < length := by
    rw [Nat.floor_lt hnonneg]
    nlinarith
  have hceil : ⌈share * (length : ℚ)⌉₊ = ⌊share * (length : ℚ)⌋₊ + 1 := by
    apply le_antisymm (Nat.ceil_le_floor_add_one _)
    apply Nat.succ_le_of_lt
    rw [Nat.lt_ceil]
    exact lt_of_le_of_ne (Nat.floor_le hnonneg) fun heq => h _ heq.symm
  unfold nearestRank truncated
  rw [mul_comm, hceil]
  omega

end Positions

/-- The entries at the two positions are equal exactly if no bound has just the
share of the entries at most it. -/
theorem getElem?_positions_eq_iff {Key : Type} [LinearOrder Key] {keys : List Key}
    (h : keys.Pairwise (· ≤ ·)) (hne : keys ≠ []) {share : ℚ} (hshare : 0 < share)
    (hlt : share < 1) :
    keys[nearestRank share keys.length]? = keys[truncated share keys.length]? <->
      forall bound, (keys.countP (fun key => decide (key ≤ bound)) : ℚ) ≠
        share * keys.length := by
  have hlength : 0 < keys.length := List.length_pos_iff.mpr hne
  have hlength' : (0 : ℚ) < keys.length := Nat.cast_pos.mpr hlength
  by_cases hwhole : exists k : Nat, share * keys.length = k
  · rcases hwhole with ⟨k, hk⟩
    have hpos : 0 < k := by
      have hcast : (0 : ℚ) < k := by
        rw [← hk]
        exact mul_pos hshare hlength'
      exact Nat.cast_pos.mp hcast
    have hless : k < keys.length := by
      have hcast : (k : ℚ) < keys.length := by
        rw [← hk]
        nlinarith
      exact Nat.cast_lt.mp hcast
    rcases positions_of_whole hpos hless hk with ⟨hnear, htrunc⟩
    rw [hnear, htrunc, List.getElem?_eq_getElem (by omega),
      List.getElem?_eq_getElem hless, Option.some_inj, getElem_eq_iff h hless hpos, hk]
    simp only [ne_eq, Nat.cast_inj]
  · rw [not_exists] at hwhole
    rw [positions_of_not_whole hshare hlt hlength hwhole]
    constructor
    · intro _ bound heq
      exact hwhole _ heq.symm
    · intro _
      rfl

end OrderStatistics

end HifiApi
