import Mathlib.Algebra.Order.Group.Int
import Mathlib.Algebra.Ring.Int.Defs
import Mathlib.Data.Finset.Card
import Mathlib.Data.List.Chain
import Mathlib.Tactic.Common

/-!
# Stretches of time

A function of time that changes finitely often is listed as stretches on which
it is constant.  A list of stretches tiles an interval, a stretch is added at
the end or joined to the last one, and a list without equal neighbours is
determined by the function.
-/

namespace HifiApi

/-- One value from a start up to, and without, a stop. -/
structure Span (Value : Type) where
  start : Int
  stop : Int
  value : Value

namespace Span

variable {Value : Type}

/-- The stretches follow one another from the start to the stop, none is empty,
and on each the function has its value. -/
inductive Tiles (f : Int -> Value) (start : Int) :
    List (Span Value) -> Int -> Prop
  | none : Tiles f start [] start
  | snoc {spans : List (Span Value)} {mid stop : Int} {value : Value} :
      Tiles f start spans mid -> mid < stop ->
      (forall t, mid ≤ t -> t < stop -> f t = value) ->
      Tiles f start (spans ++ [⟨mid, stop, value⟩]) stop

/-- Neighbours have different values. -/
def Maximal (spans : List (Span Value)) : Prop :=
  spans.IsChain fun s s' => s.value ≠ s'.value

theorem Tiles.le {f : Int -> Value} {start stop : Int}
    {spans : List (Span Value)} (h : Tiles f start spans stop) : start ≤ stop := by
  induction h with
  | none =>
      exact le_refl _
  | snoc _ hlt _ ih =>
      exact le_trans ih (le_of_lt hlt)

theorem Tiles.congr {f g : Int -> Value} {start stop : Int}
    {spans : List (Span Value)} (h : Tiles f start spans stop)
    (heq : forall t, start ≤ t -> t < stop -> f t = g t) :
    Tiles g start spans stop := by
  induction h with
  | none =>
      exact Tiles.none
  | @snoc spans mid stop value hrest hlt hvalue ih =>
      apply Tiles.snoc
      · exact ih fun t hle ht => heq t hle (lt_trans ht hlt)
      · exact hlt
      · intro t hle ht
        rw [<- heq t (le_trans hrest.le hle) ht]
        exact hvalue t hle ht

theorem maximal_snoc {spans : List (Span Value)} {s : Span Value} :
    Maximal (spans ++ [s]) <->
      Maximal spans ∧
        forall last, spans.getLast? = some last -> last.value ≠ s.value := by
  unfold Maximal
  rw [List.isChain_append]
  constructor
  · intro h
    exact ⟨h.left, fun last hlast => h.right.right last hlast s rfl⟩
  · intro h
    refine ⟨h.left, List.isChain_singleton _, ?_⟩
    intro last hlast s' hs'
    cases hs'
    exact h.right last hlast

/-!
## Determined by the function
-/

theorem Tiles.last_starts_first {f : Int -> Value} {start mid mid' stop : Int}
    {spans : List (Span Value)} {value value' : Value}
    (h : Tiles f start spans mid') (hstart : start ≤ mid)
    (hlt' : mid' < stop)
    (hvalue : forall t, mid ≤ t -> t < stop -> f t = value)
    (hvalue' : forall t, mid' ≤ t -> t < stop -> f t = value')
    (hmax : Maximal (spans ++ [⟨mid', stop, value'⟩])) : mid' ≤ mid := by
  by_contra hnot
  have hlt : mid < mid' := not_le.mp hnot
  have hsame : value' = value := by
    rw [<- hvalue' mid' (le_refl _) hlt', hvalue mid' (le_of_lt hlt) hlt']
  cases h with
  | none =>
      exact hnot hstart
  | @snoc spans' before _ value'' _ hbefore hconst =>
      have hdiffer := (maximal_snoc.mp hmax).right _ List.getLast?_concat
      have hprev : f (mid' - 1) = value'' :=
        hconst _ (Int.le_sub_one_of_lt hbefore) (Int.sub_one_lt_of_le (le_refl _))
      have hnow : f (mid' - 1) = value :=
        hvalue _ (Int.le_sub_one_of_lt hlt)
          (lt_trans (Int.sub_one_lt_of_le (le_refl _)) hlt')
      apply hdiffer
      show value'' = value'
      rw [<- hprev, hnow, hsame]

/-- Two lists without equal neighbours that tile the same interval are equal. -/
theorem Tiles.unique {f : Int -> Value} {start stop : Int}
    {spans spans' : List (Span Value)} (h : Tiles f start spans stop)
    (h' : Tiles f start spans' stop) (hmax : Maximal spans)
    (hmax' : Maximal spans') : spans = spans' := by
  induction h generalizing spans' with
  | none =>
      cases h' with
      | none =>
          rfl
      | snoc hrest hlt _ =>
          exact absurd hlt (not_lt.mpr hrest.le)
  | @snoc spans mid stop value hrest hlt hvalue ih =>
      cases h' with
      | none =>
          exact absurd hlt (not_lt.mpr hrest.le)
      | @snoc spans'' mid' _ value' hrest' hlt' hvalue' =>
          have hmid : mid = mid' := le_antisymm
            (hrest.last_starts_first hrest'.le hlt hvalue' hvalue hmax)
            (hrest'.last_starts_first hrest.le hlt' hvalue hvalue' hmax')
          subst hmid
          have hsame : value = value' := by
            rw [<- hvalue mid (le_refl _) hlt, hvalue' mid (le_refl _) hlt]
          rw [ih hrest' (maximal_snoc.mp hmax).left (maximal_snoc.mp hmax').left,
            hsame]

/-!
## Adding a stretch
-/

variable [DecidableEq Value]

/-- Add a stretch at the end, as a part of the last one where that goes on. -/
def extend (spans : List (Span Value)) (start stop : Int) (value : Value) :
    List (Span Value) :=
  match spans.getLast? with
  | some last =>
      if last.stop = start ∧ last.value = value then
        spans.dropLast ++ [{ last with stop := stop }]
      else
        spans ++ [⟨start, stop, value⟩]
  | none => spans ++ [⟨start, stop, value⟩]

theorem Tiles.extend {f : Int -> Value} {start mid stop : Int}
    {spans : List (Span Value)} {value : Value} (h : Tiles f start spans mid)
    (hlt : mid < stop) (hvalue : forall t, mid ≤ t -> t < stop -> f t = value) :
    Tiles f start (extend spans mid stop value) stop := by
  cases h with
  | none =>
      exact Tiles.snoc Tiles.none hlt hvalue
  | @snoc first before _ value' hfirst hbefore hvalue' =>
      unfold Span.extend
      rw [List.getLast?_concat]
      show Tiles f start (if mid = mid ∧ value' = value then _ else _) stop
      split
      · rename_i hsame
        rw [List.dropLast_concat]
        apply Tiles.snoc hfirst (lt_trans hbefore hlt)
        intro t hle hlt'
        rcases lt_or_ge t mid with ht | ht
        · exact hvalue' t hle ht
        · rw [hvalue t ht hlt', hsame.right]
      · exact Tiles.snoc (Tiles.snoc hfirst hbefore hvalue') hlt hvalue

theorem Maximal.extend {f : Int -> Value} {start mid stop : Int}
    {spans : List (Span Value)} {value : Value} (h : Tiles f start spans mid)
    (hmax : Maximal spans) : Maximal (extend spans mid stop value) := by
  cases h with
  | none =>
      exact List.isChain_singleton _
  | @snoc first before _ value' hfirst hbefore hvalue' =>
      unfold Span.extend
      rw [List.getLast?_concat]
      show Maximal (if mid = mid ∧ value' = value then _ else _)
      split
      · rw [List.dropLast_concat]
        rw [maximal_snoc] at hmax ⊢
        exact hmax
      · rename_i hnot
        rw [maximal_snoc]
        constructor
        · exact hmax
        · intro last hlast
          rw [List.getLast?_concat] at hlast
          cases hlast
          exact fun heq => hnot ⟨rfl, heq⟩

/-!
## Time spent at a value
-/

/-- The time that a list spends at a value. -/
def total (value : Value) (spans : List (Span Value)) : Int :=
  (spans.map fun s => if s.value = value then s.stop - s.start else 0).sum

theorem total_snoc (value : Value) (spans : List (Span Value)) (s : Span Value) :
    total value (spans ++ [s]) =
      total value spans + if s.value = value then s.stop - s.start else 0 := by
  unfold total
  rw [List.map_append, List.sum_append, List.map_singleton, List.sum_singleton]

/-- The instants of a half-open interval. -/
def instants (start stop : Int) : Finset Int :=
  (Finset.range (stop - start).toNat).image fun n : Nat => start + n

@[simp] theorem mem_instants {start stop t : Int} :
    t ∈ instants start stop <-> start ≤ t ∧ t < stop := by
  unfold instants
  rw [Finset.mem_image]
  constructor
  · rintro ⟨n, hn, heq⟩
    have hlt := Finset.mem_range.mp hn
    omega
  · intro h
    exact ⟨(t - start).toNat, Finset.mem_range.mpr (by omega), by omega⟩

theorem card_instants {start stop : Int} (h : start ≤ stop) :
    ((instants start stop).card : Int) = stop - start := by
  unfold instants
  rw [Finset.card_image_of_injective, Finset.card_range,
    Int.toNat_of_nonneg (Int.sub_nonneg.mpr h)]
  intro n n' heq
  exact Int.ofNat_inj.mp (add_left_cancel heq)

theorem instants_self (start : Int) : instants start start = ∅ := by
  ext t
  rw [mem_instants]
  constructor
  · intro h
    exact absurd h.right (not_lt.mpr h.left)
  · intro h
    exact absurd h (Finset.notMem_empty t)

theorem instants_split {start mid stop : Int} (hmid : start ≤ mid)
    (hstop : mid ≤ stop) :
    instants start stop = instants start mid ∪ instants mid stop := by
  ext t
  rw [Finset.mem_union, mem_instants, mem_instants, mem_instants]
  constructor
  · intro h
    rcases lt_or_ge t mid with hbefore | hafter
    · exact Or.inl ⟨h.left, hbefore⟩
    · exact Or.inr ⟨hafter, h.right⟩
  · rintro (h | h)
    · exact ⟨h.left, lt_of_lt_of_le h.right hstop⟩
    · exact ⟨le_trans hmid h.left, h.right⟩

theorem instants_disjoint (start mid stop : Int) :
    Disjoint (instants start mid) (instants mid stop) := by
  rw [Finset.disjoint_left]
  intro t hbefore hafter
  rw [mem_instants] at hbefore hafter
  exact absurd hbefore.right (not_lt.mpr hafter.left)

/-- The time spent at a value counts the seconds at which the function has it. -/
theorem Tiles.total_eq_card {f : Int -> Value} {start stop : Int}
    {spans : List (Span Value)} (h : Tiles f start spans stop) (value : Value) :
    total value spans =
      (((instants start stop).filter fun t => f t = value).card : Int) := by
  induction h with
  | none =>
      rw [instants_self]
      rfl
  | @snoc spans mid stop value' hrest hlt hvalue ih =>
      have hdisjoint : Disjoint
          ((instants start mid).filter fun t => f t = value)
          ((instants mid stop).filter fun t => f t = value) :=
        Finset.disjoint_filter_filter (instants_disjoint start mid stop)
      rw [total_snoc, ih, instants_split hrest.le (le_of_lt hlt),
        Finset.filter_union, Finset.card_union_of_disjoint hdisjoint, Int.natCast_add]
      congr 1
      show (if value' = value then stop - mid else 0) = _
      split
      · rename_i heq
        rw [Finset.filter_true_of_mem, card_instants (le_of_lt hlt)]
        intro t ht
        rw [mem_instants] at ht
        rw [hvalue t ht.left ht.right, heq]
      · rename_i hne
        rw [Finset.filter_false_of_mem]
        · rfl
        · intro t ht heq
          rw [mem_instants] at ht
          exact hne ((hvalue t ht.left ht.right).symm.trans heq)

end Span

end HifiApi
