import Mathlib.Data.List.Basic
import Mathlib.Tactic.Common

/-!
# Form-encoded texts

Pairs of texts as {lit}`name=value&name=value`: a space is a plus sign, every
other byte that does not stand for itself a percent sign with two digits.
Reading back what was written gives the pairs again.
-/

namespace HifiApi

namespace FormUrlencoded

/-!
## Bytes
-/

def hexDigit (n : Nat) : Char :=
  Char.ofNat (if n < 10 then 48 + n else 55 + n)

def hexValue (c : Char) : Option Nat :=
  if '0' ≤ c ∧ c ≤ '9' then some (c.toNat - 48)
  else if 'A' ≤ c ∧ c ≤ 'F' then some (c.toNat - 55)
  else if 'a' ≤ c ∧ c ≤ 'f' then some (c.toNat - 87)
  else none

/-- Characters that stand for themselves. -/
def isPlain (c : Char) : Bool :=
  c.isAlphanum || ['*', '-', '.', '_'].contains c

def encodeByte (b : UInt8) : List Char :=
  if isPlain (Char.ofNat b.toNat) then [Char.ofNat b.toNat]
  else if b.toNat = 32 then ['+']
  else ['%', hexDigit (b.toNat / 16), hexDigit (b.toNat % 16)]

/-- A percent sign without two digits after it stands for itself. -/
def decodeBytes : List Char -> List UInt8
  | [] => []
  | '+' :: rest => 32 :: decodeBytes rest
  | '%' :: hi :: lo :: rest =>
      match hexValue hi, hexValue lo with
      | some x, some y => UInt8.ofNat (16 * x + y) :: decodeBytes rest
      | _, _ => 37 :: decodeBytes (hi :: lo :: rest)
  | c :: rest => String.utf8EncodeChar c ++ decodeBytes rest

theorem hexValue_hexDigit {n : Nat} (h : n < 16) :
    hexValue (hexDigit n) = some n := by
  have hall : forall n, n < 16 -> hexValue (hexDigit n) = some n := by decide
  exact hall n h

theorem toNat_ofNat {n : Nat} (h : n < 256) : (Char.ofNat n).toNat = n := by
  have hvalid : n.isValidChar := Or.inl (Nat.lt_trans h (by decide))
  rw [Char.ofNat, dif_pos hvalid]
  rfl

theorem ofNat_ne {n : Nat} {c : Char} (h : n < 256) (hne : n ≠ c.toNat) :
    Char.ofNat n ≠ c := by
  intro heq
  rw [← heq, toNat_ofNat h] at hne
  exact hne rfl

/-- An ASCII character is one byte. -/
theorem utf8EncodeChar_ofNat {n : Nat} (h : n < 128) :
    String.utf8EncodeChar (Char.ofNat n) = [UInt8.ofNat n] := by
  have hself := toNat_ofNat (Nat.lt_trans h (by decide : 128 < 256))
  have hval : (Char.ofNat n).val.toNat ≤ 127 := by
    rw [Char.toNat_val, hself]
    omega
  rw [String.utf8EncodeChar]
  simp only [if_pos hval]
  rw [Char.toNat_val, hself]

theorem toNat_of_isPlain {c : Char} (h : isPlain c = true) :
    c.toNat < 128 ∧ c.toNat ≠ 43 ∧ c.toNat ≠ 37 := by
  unfold isPlain at h
  rcases Bool.or_eq_true_iff.mp h with halnum | hsign
  · delta Char.isAlphanum Char.isAlpha Char.isUpper Char.isLower Char.isDigit at halnum
    simp only [Bool.or_eq_true, Bool.and_eq_true, decide_eq_true_eq,
      UInt32.le_iff_toNat_le, ge_iff_le, Char.toNat_val, Char.reduceToNat] at halnum
    omega
  · rw [List.contains_iff_mem] at hsign
    simp only [List.mem_cons, List.not_mem_nil, or_false] at hsign
    rcases hsign with rfl | rfl | rfl | rfl <;> decide

/-- A plain character is one byte, and neither of the two signs. -/
theorem utf8EncodeChar_of_isPlain {b : UInt8}
    (h : isPlain (Char.ofNat b.toNat) = true) :
    String.utf8EncodeChar (Char.ofNat b.toNat) = [b] ∧
      Char.ofNat b.toNat ≠ '+' ∧ Char.ofNat b.toNat ≠ '%' := by
  have hplain := toNat_of_isPlain h
  rw [toNat_ofNat b.toNat_lt] at hplain
  rcases hplain with ⟨hlt, hplus, hpercent⟩
  refine ⟨?_, ofNat_ne b.toNat_lt hplus, ofNat_ne b.toNat_lt hpercent⟩
  rw [utf8EncodeChar_ofNat hlt, UInt8.ofNat_toNat]

theorem decodeBytes_plain {c : Char} (hplus : c ≠ '+') (hpercent : c ≠ '%')
    (rest : List Char) :
    decodeBytes (c :: rest) = String.utf8EncodeChar c ++ decodeBytes rest := by
  rw [decodeBytes]
  · exact hplus
  · intro _ _ _ hc
    exact absurd hc hpercent

theorem decodeBytes_encodeByte (b : UInt8) (rest : List Char) :
    decodeBytes (encodeByte b ++ rest) = b :: decodeBytes rest := by
  unfold encodeByte
  split
  · rename_i hplain
    rcases utf8EncodeChar_of_isPlain hplain with ⟨hbyte, hplus, hpercent⟩
    rw [List.singleton_append, decodeBytes_plain hplus hpercent, hbyte]
    rfl
  · split
    · rename_i hspace
      show 32 :: decodeBytes rest = b :: decodeBytes rest
      rw [← UInt8.ofNat_toNat (x := b), hspace]
      rfl
    · have hlt := b.toNat_lt
      have hhi : b.toNat / 16 < 16 := by omega
      have hlo : b.toNat % 16 < 16 := by omega
      show decodeBytes ('%' :: hexDigit _ :: hexDigit _ :: rest) = _
      rw [decodeBytes, hexValue_hexDigit hhi, hexValue_hexDigit hlo]
      show UInt8.ofNat _ :: _ = _
      rw [Nat.div_add_mod, UInt8.ofNat_toNat]

theorem decodeBytes_flatMap (bs : List UInt8) :
    decodeBytes (bs.flatMap encodeByte) = bs := by
  induction bs with
  | nil =>
      rfl
  | cons b rest ih =>
      rw [List.flatMap_cons, decodeBytes_encodeByte, ih]

theorem ne_of_isPlain {c : Char} (h : isPlain c = true) : c ≠ '&' ∧ c ≠ '=' := by
  constructor
  · intro hc
    rw [hc] at h
    exact absurd h (by decide)
  · intro hc
    rw [hc] at h
    exact absurd h (by decide)

theorem hexDigit_ne {n : Nat} (h : n < 16) :
    hexDigit n ≠ '&' ∧ hexDigit n ≠ '=' := by
  have hall : forall n, n < 16 -> hexDigit n ≠ '&' ∧ hexDigit n ≠ '=' := by decide
  exact hall n h

/-- The characters a byte is written with. -/
theorem mem_encodeByte {b : UInt8} {c : Char} (h : c ∈ encodeByte b) :
    c ≠ '&' ∧ c ≠ '=' := by
  have hb : b.toNat < 256 := b.toNat_lt
  unfold encodeByte at h
  split at h
  · rename_i hplain
    rw [List.mem_singleton.mp h]
    exact ne_of_isPlain hplain
  · split at h
    · rw [List.mem_singleton.mp h]
      decide
    · rcases List.mem_cons.mp h with hsign | hdigits
      · rw [hsign]
        decide
      · rcases List.mem_cons.mp hdigits with hhigh | hlow
        · rw [hhigh]
          exact hexDigit_ne (by omega)
        · rw [List.mem_singleton.mp hlow]
          exact hexDigit_ne (by omega)

/-!
## Texts
-/

def encodeText (s : String) : List Char :=
  s.toByteArray.data.toList.flatMap encodeByte

/-- Bytes that are no text read as a single replacement character. -/
def textOfBytes (bytes : List UInt8) : String :=
  (String.fromUTF8? ⟨bytes.toArray⟩).getD "\uFFFD"

def decodeText (chars : List Char) : String :=
  textOfBytes (decodeBytes chars)

theorem decodeText_encodeText (s : String) : decodeText (encodeText s) = s := by
  unfold decodeText encodeText textOfBytes
  rw [decodeBytes_flatMap]
  show (String.fromUTF8? s.toByteArray).getD _ = s
  rw [String.fromUTF8?, dif_pos s.isValidUTF8]
  rfl

theorem mem_encodeText {s : String} {c : Char} (h : c ∈ encodeText s) :
    c ≠ '&' ∧ c ≠ '=' := by
  rcases List.mem_flatMap.mp h with ⟨b, _, hc⟩
  exact mem_encodeByte hc

/-!
## Pairs
-/

def encodePair (pair : String × String) : List Char :=
  encodeText pair.1 ++ '=' :: encodeText pair.2

/-- A part without an equals sign is a name with an empty value. -/
def decodePair (part : List Char) : String × String :=
  (decodeText (part.takeWhile (· != '=')),
    decodeText ((part.dropWhile (· != '=')).drop 1))

def serialize (pairs : List (String × String)) : String :=
  String.ofList (['&'].intercalate (pairs.map encodePair))

/-- Empty parts are left out. -/
def parse (text : String) : List (String × String) :=
  ((text.toList.splitOn '&').filter (· != [])).map decodePair

theorem decodePair_encodePair (pair : String × String) :
    decodePair (encodePair pair) = pair := by
  have hname : forall c, c ∈ encodeText pair.1 -> (c != '=') = true := by
    intro c hc
    exact bne_iff_ne.mpr (mem_encodeText hc).right
  have hstop : ('=' != '=') = false := rfl
  unfold decodePair encodePair
  rw [List.takeWhile_append_of_pos hname, List.dropWhile_append_of_pos hname,
    List.takeWhile_cons_of_neg (by rw [hstop]; exact Bool.noConfusion),
    List.dropWhile_cons_of_neg (by rw [hstop]; exact Bool.noConfusion),
    List.append_nil, List.drop_one, List.tail_cons, decodeText_encodeText,
    decodeText_encodeText]

theorem encodePair_ne_nil (pair : String × String) : encodePair pair ≠ [] :=
  List.append_ne_nil_of_right_ne_nil _ (List.cons_ne_nil _ _)

theorem not_mem_encodePair (pair : String × String) : '&' ∉ encodePair pair := by
  intro h
  rcases List.mem_append.mp h with hname | hrest
  · exact (mem_encodeText hname).left rfl
  · rcases List.mem_cons.mp hrest with hsign | hvalue
    · exact absurd hsign (by decide)
    · exact (mem_encodeText hvalue).left rfl

/-- What was written is read back. -/
theorem parse_serialize (pairs : List (String × String)) :
    parse (serialize pairs) = pairs := by
  unfold parse serialize
  rw [String.toList_ofList]
  cases pairs with
  | nil =>
      rfl
  | cons first rest =>
      have hparts : forall part, part ∈ (first :: rest).map encodePair ->
          '&' ∉ part := by
        intro part hpart
        rcases List.mem_map.mp hpart with ⟨pair, _, hpair⟩
        rw [← hpair]
        exact not_mem_encodePair pair
      have hkept : ((first :: rest).map encodePair).filter (· != []) =
          (first :: rest).map encodePair := by
        rw [List.filter_eq_self]
        intro part hpart
        rcases List.mem_map.mp hpart with ⟨pair, _, hpair⟩
        rw [← hpair]
        exact bne_iff_ne.mpr (encodePair_ne_nil pair)
      rw [List.splitOn_intercalate '&' hparts (by simp), hkept, List.map_map]
      have hid : decodePair ∘ encodePair = id := funext decodePair_encodePair
      rw [hid, List.map_id]

end FormUrlencoded

end HifiApi
