import HifiApi.Accounts.State
import Mathlib.Algebra.GroupWithZero.Nat
import Mathlib.Tactic.Common

/-!
# Texts

Lines and parts of a text as the methods of {lit}`str` find them, on the
characters of the text, and how many characters of it are not blank.
-/

namespace HifiApi

namespace Text

open AccountState

def trimStart (text : List Char) : List Char := text.dropWhile isWhitespace

/-- {lit}`split_once` -/
def splitOnce (separator : Char) : List Char -> Option (List Char × List Char)
  | [] => none
  | c :: rest =>
      if c = separator then some ([], rest)
      else (splitOnce separator rest).map fun parts => (c :: parts.1, parts.2)

/-- What follows the first occurrence of a marker. -/
def afterFirst (marker : List Char) : List Char -> Option (List Char)
  | [] => if marker.isPrefixOf [] then some [] else none
  | c :: rest =>
      if marker.isPrefixOf (c :: rest) then some ((c :: rest).drop marker.length)
      else afterFirst marker rest

/-- A line without the carriage return in front of its end. -/
def stripReturn (line : List Char) : List Char :=
  if line.getLast? = some '\r' then line.dropLast else line

/-- {lit}`str::lines`: what follows the last line feed is a line if there is any
of it. -/
def lines (text : List Char) : List (List Char) :=
  let pieces := text.splitOn '\n'
  pieces.dropLast.map stripReturn ++ pieces.getLast?.toList.filter (· ≠ [])

example : lines "a\r\n\nb\r".toList = ["a".toList, [], "b\r".toList] := by decide

/-- The characters of a text that are not blank. -/
def ink (text : List Char) : Nat := text.countP fun c => !isWhitespace c

/-!
## Parts
-/

theorem splitOnce_eq_some {separator : Char} {text before after : List Char} :
    splitOnce separator text = some (before, after) <->
      text = before ++ separator :: after ∧ separator ∉ before := by
  induction text generalizing before with
  | nil =>
      simp [splitOnce]
  | cons c rest ih =>
      rw [splitOnce]
      split
      · rename_i heq
        constructor
        · intro h
          cases h
          exact ⟨by rw [heq, List.nil_append], List.not_mem_nil⟩
        · rintro ⟨htext, hnot⟩
          cases before with
          | nil =>
              cases htext
              rfl
          | cons d before =>
              cases htext
              exact absurd List.mem_cons_self (heq ▸ hnot)
      · rename_i hne
        rw [Option.map_eq_some_iff]
        constructor
        · rintro ⟨⟨first, second⟩, hparts, heq⟩
          cases heq
          rcases ih.mp hparts with ⟨hrest, hnot⟩
          refine ⟨by rw [hrest, List.cons_append], ?_⟩
          intro hmem
          rcases List.mem_cons.mp hmem with hsame | hlater
          · exact hne hsame.symm
          · exact hnot hlater
        · rintro ⟨htext, hnot⟩
          cases before with
          | nil =>
              cases htext
              exact absurd rfl hne
          | cons d before =>
              cases htext
              refine ⟨(before, after), ih.mpr ⟨rfl, ?_⟩, rfl⟩
              exact fun hmem => hnot (List.mem_cons_of_mem _ hmem)

/-- A marker is found at its first place. -/
theorem afterFirst_append {marker before after : List Char} (hmarker : marker ≠ [])
    (hfirst : forall p s, before ++ (marker ++ after) = p ++ (marker ++ s) ->
      before.length ≤ p.length) :
    afterFirst marker (before ++ (marker ++ after)) = some after := by
  induction before with
  | nil =>
      cases marker with
      | nil => exact absurd rfl hmarker
      | cons c rest =>
          rw [List.nil_append, List.cons_append, afterFirst, ← List.cons_append,
            if_pos (List.isPrefixOf_iff_prefix.mpr (List.prefix_append _ _)),
            List.drop_left]
  | cons c rest ih =>
      rw [List.cons_append, afterFirst, if_neg]
      · apply ih
        intro p s heq
        have hlength := hfirst (c :: p) s (by rw [List.cons_append, List.cons_append, heq])
        exact Nat.le_of_succ_le_succ hlength
      · intro hprefix
        rcases List.isPrefixOf_iff_prefix.mp hprefix with ⟨s, hs⟩
        have hlength := hfirst [] s hs.symm
        exact absurd hlength (by simp)

/-- One part is shorter than the whole. -/
theorem length_lt_of_splitOnce {separator : Char} {text before after : List Char}
    (h : splitOnce separator text = some (before, after)) :
    after.length < text.length := by
  rw [(splitOnce_eq_some.mp h).left, List.length_append, List.length_cons]
  omega

theorem length_trimStart_le (text : List Char) :
    (trimStart text).length ≤ text.length :=
  (List.dropWhile_sublist isWhitespace).length_le

/-!
## Blanks
-/

theorem countP_dropWhile (p : Char -> Bool) (text : List Char) :
    (text.dropWhile p).countP (fun c => !p c) = text.countP fun c => !p c := by
  induction text with
  | nil =>
      rfl
  | cons c rest ih =>
      by_cases hc : p c = true
      · rw [List.dropWhile_cons_of_pos hc, ih, List.countP_cons, hc]
        rfl
      · rw [List.dropWhile_cons_of_neg hc]

@[simp] theorem ink_trimStart (text : List Char) : ink (trimStart text) = ink text :=
  countP_dropWhile isWhitespace text

@[simp] theorem ink_trim (text : List Char) : ink (trim text) = ink text := by
  unfold ink trim
  rw [List.countP_reverse, countP_dropWhile, List.countP_reverse, countP_dropWhile]

theorem ink_append (first second : List Char) :
    ink (first ++ second) = ink first + ink second :=
  List.countP_append

/-- Line feeds between lines are blank. -/
theorem ink_intercalate (parts : List (List Char)) :
    ink (['\n'].intercalate parts) = (parts.map ink).sum := by
  induction parts with
  | nil =>
      rfl
  | cons first rest ih =>
      cases rest with
      | nil =>
          rw [List.intercalate_singleton, List.map_singleton, List.sum_singleton]
      | cons second rest =>
          have hfeed : ink ['\n'] = 0 := by decide
          have hsum : ((first :: second :: rest).map ink).sum =
              ink first + ((second :: rest).map ink).sum := List.sum_cons
          rw [List.intercalate_cons_cons, ink_append, ink_append, ih, hfeed, hsum,
            Nat.add_zero]

end Text

end HifiApi
