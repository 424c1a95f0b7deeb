import Mathlib.Data.Char
import Mathlib.Tactic.Common

/-!
# Bytes as text

The bytes of a text, and the characters that bytes are read as when what is not UTF-8
is replaced: a character that breaks off gives one replacement character for the bytes
that could begin it.
-/

namespace HifiApi

def utf8Bytes (s : String) : List UInt8 := s.toByteArray.data.toList

theorem utf8Bytes_injective : Function.Injective utf8Bytes := by
  intro a b h
  have harrays : a.toByteArray.data = b.toByteArray.data := Array.toList_inj.mp h
  exact String.toByteArray_inj.mp (ByteArray.ext harrays)

namespace Utf8Lossy

def replacement : Char := '\uFFFD'

def isContinuation (b : UInt8) : Bool := 128 ≤ b && b ≤ 191

/-- The second byte of a character of three bytes; surrogates and characters that
two bytes could hold are left out. -/
def secondOfThree (first next : UInt8) : Bool :=
  (first == 224 && 160 ≤ next && next ≤ 191) ||
    (225 ≤ first && first ≤ 236 && isContinuation next) ||
    (first == 237 && 128 ≤ next && next ≤ 159) ||
    (238 ≤ first && first ≤ 239 && isContinuation next)

/-- The second byte of a character of four bytes. -/
def secondOfFour (first next : UInt8) : Bool :=
  (first == 240 && 144 ≤ next && next ≤ 191) ||
    (241 ≤ first && first ≤ 243 && isContinuation next) ||
    (first == 244 && 128 ≤ next && next ≤ 143)

/-- The character that begins with a byte, and the number of further bytes that are
read for it. -/
def charAt (first : UInt8) (rest : List UInt8) : Char × Nat :=
  let next := rest.getD 0 0
  let third := rest.getD 1 0
  let fourth := rest.getD 2 0
  let low (b : UInt8) := b.toNat - 128
  if first < 128 then (Char.ofNat first.toNat, 0)
  else if 194 ≤ first ∧ first ≤ 223 then
    if isContinuation next then
      (Char.ofNat ((first.toNat - 192) * 64 + low next), 1)
    else (replacement, 0)
  else if 224 ≤ first ∧ first ≤ 239 then
    if secondOfThree first next then
      if isContinuation third then
        (Char.ofNat (((first.toNat - 224) * 64 + low next) * 64 + low third), 2)
      else (replacement, 1)
    else (replacement, 0)
  else if 240 ≤ first ∧ first ≤ 244 then
    if secondOfFour first next then
      if isContinuation third then
        if isContinuation fourth then
          (Char.ofNat ((((first.toNat - 240) * 64 + low next) * 64 + low third) * 64 +
            low fourth), 3)
        else (replacement, 2)
      else (replacement, 1)
    else (replacement, 0)
  else (replacement, 0)

/-- The characters of the bytes behind those that have been read already. -/
def charsBehind : Nat -> List UInt8 -> List Char
  | _, [] => []
  | skip + 1, _ :: rest => charsBehind skip rest
  | 0, first :: rest =>
      let read := charAt first rest
      read.1 :: charsBehind read.2 rest

/-- {lit}`String::from_utf8_lossy` -/
def fromUtf8Lossy (bytes : List UInt8) : List Char := charsBehind 0 bytes

example : fromUtf8Lossy [226, 130, 172, 240, 144, 40, 128] =
    ['€', replacement, '(', replacement] := by decide

/-!
## Bytes of ASCII
-/

def asciiBytes (text : List Char) : List UInt8 := text.map fun c => UInt8.ofNat c.toNat

theorem fromUtf8Lossy_ascii {text : List Char} (h : forall c, c ∈ text -> c.toNat < 128)
    (rest : List UInt8) :
    fromUtf8Lossy (asciiBytes text ++ rest) = text ++ fromUtf8Lossy rest := by
  induction text with
  | nil => rfl
  | cons c text ih =>
      have hc := h c List.mem_cons_self
      have hbyte : (UInt8.ofNat c.toNat).toNat = c.toNat := by
        rw [UInt8.toNat_ofNat']
        omega
      have hlt : UInt8.ofNat c.toNat < 128 := by
        rw [UInt8.lt_iff_toNat_lt, hbyte]
        exact hc
      have hread : forall behind, charAt (UInt8.ofNat c.toNat) behind = (c, 0) := by
        intro behind
        rw [charAt, if_pos hlt, hbyte, Char.ofNat_toNat]
      have hrest := ih fun c' hc' => h c' (List.mem_cons_of_mem _ hc')
      unfold fromUtf8Lossy at hrest ⊢
      rw [asciiBytes, List.map_cons, List.cons_append, charsBehind, hread]
      dsimp only
      rw [← asciiBytes, hrest, List.cons_append]

theorem isDigit_ofNat {n : Nat} (h : ¬ (48 ≤ n ∧ n ≤ 57)) :
    (Char.ofNat n).isDigit = false := by
  have hvalue : (Char.ofNat n).toNat = n ∨ (Char.ofNat n).toNat = 0 := by
    by_cases hvalid : n.isValidChar
    · left
      rw [Char.ofNat, dif_pos hvalid]
      rfl
    · right
      rw [Char.ofNat, dif_neg hvalid]
      rfl
  rw [Bool.eq_false_iff, ne_eq, Char.isDigit_iff_toNat]
  have hzero : '0'.toNat = 48 := rfl
  have hnine : '9'.toNat = 57 := rfl
  omega

theorem secondOfThree_low {first next : UInt8} (h : secondOfThree first next = true) :
    2 ≤ (first.toNat - 224) * 64 + (next.toNat - 128) := by
  simp only [secondOfThree, isContinuation, Bool.or_eq_true, Bool.and_eq_true,
    decide_eq_true_eq, beq_iff_eq, UInt8.le_iff_toNat_le, ← UInt8.toNat_inj,
    UInt8.reduceToNat] at h
  omega

theorem secondOfFour_low {first next : UInt8} (h : secondOfFour first next = true) :
    1 ≤ (first.toNat - 240) * 64 + (next.toNat - 128) := by
  simp only [secondOfFour, isContinuation, Bool.or_eq_true, Bool.and_eq_true,
    decide_eq_true_eq, beq_iff_eq, UInt8.le_iff_toNat_le, ← UInt8.toNat_inj,
    UInt8.reduceToNat] at h
  omega

/-- A byte that is not a digit does not begin a character that is one. -/
theorem isDigit_charAt {first : UInt8} (h : ¬ (48 ≤ first ∧ first ≤ 57))
    (rest : List UInt8) : (charAt first rest).1.isDigit = false := by
  have hreplacement : replacement.isDigit = false := by decide
  have hread : forall n skip, 58 ≤ n -> ((Char.ofNat n, skip) : Char × Nat).1.isDigit =
      false := fun n _ hn => isDigit_ofNat (by omega)
  simp only [UInt8.le_iff_toNat_le, UInt8.reduceToNat] at h
  unfold charAt
  dsimp only
  split
  · exact isDigit_ofNat h
  · split
    · rename_i htwo
      simp only [UInt8.le_iff_toNat_le, UInt8.reduceToNat] at htwo
      split
      · exact hread _ _ (by omega)
      · exact hreplacement
    · split
      · split
        · rename_i hsecond
          have hlow := secondOfThree_low hsecond
          split
          · exact hread _ _ (by omega)
          · exact hreplacement
        · exact hreplacement
      · split
        · split
          · rename_i hsecond
            have hlow := secondOfFour_low hsecond
            split
            · split
              · exact hread _ _ (by omega)
              · exact hreplacement
            · exact hreplacement
          · exact hreplacement
        · exact hreplacement

end Utf8Lossy

end HifiApi
