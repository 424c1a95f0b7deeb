import HifiApi.Lib.FormUrlencoded

/-!
# Percent-encoded bytes

A byte that is to be kept is written as the character with its number, and every
other one as a percent sign with two digits.  As long as only ASCII characters other
than the percent sign are kept, decoding gives the bytes again.
-/

namespace HifiApi

namespace PercentEncoding

def encodeByte (keep : UInt8 -> Bool) (b : UInt8) : List Char :=
  if keep b then [Char.ofNat b.toNat]
  else ['%', FormUrlencoded.hexDigit (b.toNat / 16), FormUrlencoded.hexDigit (b.toNat % 16)]

def encode (keep : UInt8 -> Bool) (bytes : List UInt8) : List Char :=
  bytes.flatMap (encodeByte keep)

/-- A percent sign without two digits after it stands for itself. -/
def decode : List Char -> List UInt8
  | [] => []
  | '%' :: hi :: lo :: rest =>
      match FormUrlencoded.hexValue hi, FormUrlencoded.hexValue lo with
      | some x, some y => UInt8.ofNat (16 * x + y) :: decode rest
      | _, _ => 37 :: decode (hi :: lo :: rest)
  | c :: rest => String.utf8EncodeChar c ++ decode rest

/-- The characters that may be kept. -/
def Keepable (keep : UInt8 -> Bool) : Prop :=
  forall b, keep b = true -> b.toNat < 128 ∧ b.toNat ≠ 37

variable {keep : UInt8 -> Bool}

theorem utf8EncodeChar_ofNat {n : Nat} (hlt : n < 128) (hne : n ≠ 37) :
    String.utf8EncodeChar (Char.ofNat n) = [UInt8.ofNat n] ∧ Char.ofNat n ≠ '%' := by
  constructor
  · exact FormUrlencoded.utf8EncodeChar_ofNat hlt
  · exact FormUrlencoded.ofNat_ne (Nat.lt_trans hlt (by decide)) hne

theorem decode_plain {c : Char} (h : c ≠ '%') (rest : List Char) :
    decode (c :: rest) = String.utf8EncodeChar c ++ decode rest := by
  rw [decode]
  intro _ _ _ hc
  exact absurd hc h

/-- A byte is read in front of everything. -/
theorem decode_encodeByte (hkeep : Keepable keep) (b : UInt8) (rest : List Char) :
    decode (encodeByte keep b ++ rest) = b :: decode rest := by
  unfold encodeByte
  split
  · rename_i hkept
    rcases hkeep b hkept with ⟨hlt, hne⟩
    rcases utf8EncodeChar_ofNat hlt hne with ⟨hbyte, hpercent⟩
    rw [List.singleton_append, decode_plain hpercent, hbyte, UInt8.ofNat_toNat]
    rfl
  · have hlt := b.toNat_lt
    have hhi : b.toNat / 16 < 16 := by omega
    have hlo : b.toNat % 16 < 16 := by omega
    show decode ('%' :: FormUrlencoded.hexDigit _ :: FormUrlencoded.hexDigit _ :: rest) = _
    rw [decode, FormUrlencoded.hexValue_hexDigit hhi, FormUrlencoded.hexValue_hexDigit hlo]
    show UInt8.ofNat _ :: _ = _
    rw [Nat.div_add_mod, UInt8.ofNat_toNat]

theorem decode_encode (hkeep : Keepable keep) (bytes : List UInt8) :
    decode (encode keep bytes) = bytes := by
  induction bytes with
  | nil => rfl
  | cons b rest ih =>
      rw [encode, List.flatMap_cons, decode_encodeByte hkeep]
      exact congrArg (List.cons b) ih

/-- Every character is one that is kept, or belongs to an escape. -/
theorem mem_encode {bytes : List UInt8} {c : Char} (h : c ∈ encode keep bytes) :
    (exists b, keep b = true ∧ c = Char.ofNat b.toNat) ∨ c = '%' ∨
      exists n, n < 16 ∧ c = FormUrlencoded.hexDigit n := by
  rcases List.mem_flatMap.mp h with ⟨b, _, hc⟩
  have hlt := b.toNat_lt
  unfold encodeByte at hc
  split at hc
  · rename_i hkept
    exact Or.inl ⟨b, hkept, List.mem_singleton.mp hc⟩
  · right
    simp only [List.mem_cons, List.not_mem_nil, or_false] at hc
    rcases hc with hsign | hhigh | hlow
    · exact Or.inl hsign
    · exact Or.inr ⟨_, by omega, hhigh⟩
    · exact Or.inr ⟨_, by omega, hlow⟩

end PercentEncoding

end HifiApi
