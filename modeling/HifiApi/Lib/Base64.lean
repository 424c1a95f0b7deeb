import Mathlib.Data.List.Basic
import Mathlib.Tactic.Common

/-!
# Base64

Three bytes are written as four digits of six bits; a rest of one or two bytes has two
or three digits, which padding fills up to four.  The two alphabets differ in the last
two digits only.  The decoder takes a text that is the padded encoding of what it
reads.
-/

namespace HifiApi

namespace Base64

/-- The digits, of which the last two are a choice. -/
def digit (plus slash : Char) (n : Nat) : Char :=
  if n < 26 then Char.ofNat (65 + n)
  else if n < 52 then Char.ofNat (71 + n)
  else if n < 62 then Char.ofNat (n - 4)
  else if n = 62 then plus
  else slash

def standard : Nat -> Char := digit '+' '/'

def urlSafe : Nat -> Char := digit '-' '_'

/-- The groups of six bits. -/
def sextets : List UInt8 -> List Nat
  | [] => []
  | [a] => [a.toNat / 4, a.toNat % 4 * 16]
  | [a, b] => [a.toNat / 4, a.toNat % 4 * 16 + b.toNat / 16, b.toNat % 16 * 4]
  | a :: b :: c :: rest =>
      a.toNat / 4 :: (a.toNat % 4 * 16 + b.toNat / 16) ::
        (b.toNat % 16 * 4 + c.toNat / 64) :: c.toNat % 64 :: sextets rest

def unpadded (alphabet : Nat -> Char) (bytes : List UInt8) : List Char :=
  (sextets bytes).map alphabet

def padded (alphabet : Nat -> Char) (bytes : List UInt8) : List Char :=
  unpadded alphabet bytes ++ List.replicate ((3 - bytes.length % 3) % 3) '='

/-!
## Digits
-/

theorem sextets_lt {bytes : List UInt8} {n : Nat} (h : n ∈ sextets bytes) : n < 64 := by
  induction bytes using sextets.induct with
  | case1 => exact absurd h List.not_mem_nil
  | case2 a =>
      have ha := a.toNat_lt
      simp only [sextets, List.mem_cons, List.not_mem_nil, or_false] at h
      omega
  | case3 a b =>
      have ha := a.toNat_lt
      have hb := b.toNat_lt
      simp only [sextets, List.mem_cons, List.not_mem_nil, or_false] at h
      omega
  | case4 a b c rest ih =>
      have ha := a.toNat_lt
      have hb := b.toNat_lt
      have hc := c.toNat_lt
      simp only [sextets, List.mem_cons] at h
      rcases h with h | h | h | h | h
      · omega
      · omega
      · omega
      · omega
      · exact ih h

/-- The digits fill groups of four but for the rest. -/
theorem length_sextets (bytes : List UInt8) :
    (sextets bytes).length + (3 - bytes.length % 3) % 3 = 4 * ((bytes.length + 2) / 3) := by
  induction bytes using sextets.induct with
  | case1 => rfl
  | case2 a => simp [sextets]
  | case3 a b => simp [sextets]
  | case4 a b c rest ih =>
      simp only [sextets, List.length_cons]
      omega

/-- Another alphabet is a replacement of digits. -/
theorem map_unpadded (f : Char -> Char) (alphabet : Nat -> Char) (bytes : List UInt8) :
    (unpadded alphabet bytes).map f = unpadded (fun n => f (alphabet n)) bytes := by
  rw [unpadded, List.map_map]
  rfl

theorem mem_unpadded {alphabet : Nat -> Char} {bytes : List UInt8} {c : Char}
    (h : c ∈ unpadded alphabet bytes) : exists n, n < 64 ∧ alphabet n = c := by
  rcases List.mem_map.mp h with ⟨n, hn, hc⟩
  exact ⟨n, sextets_lt hn, hc⟩

/-!
## Decoding
-/

/-- The value of a digit of the standard alphabet. -/
def value (c : Char) : Nat :=
  if 'A' ≤ c ∧ c ≤ 'Z' then c.toNat - 65
  else if 'a' ≤ c ∧ c ≤ 'z' then c.toNat - 71
  else if '0' ≤ c ∧ c ≤ '9' then c.toNat + 4
  else if c = '+' then 62
  else 63

def ofSextets : List Nat -> List UInt8
  | a :: b :: c :: d :: rest =>
      UInt8.ofNat (a * 4 + b / 16) :: UInt8.ofNat (b % 16 * 16 + c / 4) ::
        UInt8.ofNat (c % 4 * 64 + d) :: ofSextets rest
  | [a, b, c] => [UInt8.ofNat (a * 4 + b / 16), UInt8.ofNat (b % 16 * 16 + c / 4)]
  | [a, b] => [UInt8.ofNat (a * 4 + b / 16)]
  | _ => []

/-- What a text in canonical form encodes. -/
def decodeStandard (text : List Char) : Option (List UInt8) :=
  let bytes := ofSextets ((text.takeWhile (· ≠ '=')).map value)
  if padded standard bytes = text then some bytes else none

theorem ofNat_eq {a : UInt8} {n : Nat} (h : n = a.toNat) : UInt8.ofNat n = a := by
  rw [h, UInt8.ofNat_toNat]

theorem ofSextets_sextets (bytes : List UInt8) : ofSextets (sextets bytes) = bytes := by
  induction bytes using sextets.induct with
  | case1 => rfl
  | case2 a =>
      simp only [sextets, ofSextets]
      rw [ofNat_eq (a := a) (by omega)]
  | case3 a b =>
      have hb := b.toNat_lt
      simp only [sextets, ofSextets]
      rw [ofNat_eq (a := a) (by omega), ofNat_eq (a := b) (by omega)]
  | case4 a b c rest ih =>
      have hb := b.toNat_lt
      have hc := c.toNat_lt
      simp only [sextets, ofSextets]
      rw [ofNat_eq (a := a) (by omega), ofNat_eq (a := b) (by omega),
        ofNat_eq (a := c) (by omega), ih]

theorem value_standard {n : Nat} (h : n < 64) : value (standard n) = n := by
  have hall : forall n : Fin 64, value (standard n.val) = n.val := by decide
  exact hall ⟨n, h⟩

theorem standard_ne_padding {n : Nat} (h : n < 64) : standard n ≠ '=' := by
  have hall : forall n : Fin 64, standard n.val ≠ '=' := by decide
  exact hall ⟨n, h⟩

/-- What has been encoded is decoded. -/
theorem decodeStandard_padded (bytes : List UInt8) :
    decodeStandard (padded standard bytes) = some bytes := by
  have hdigits : (padded standard bytes).takeWhile (· ≠ '=') = unpadded standard bytes := by
    rw [padded, List.takeWhile_append_of_pos]
    · have hpadding : (List.replicate ((3 - bytes.length % 3) % 3) '=').takeWhile
          (· ≠ '=') = [] := by
        rw [List.takeWhile_replicate]
        rfl
      rw [hpadding, List.append_nil]
    · intro c hc
      rcases mem_unpadded hc with ⟨n, hn, hdigit⟩
      rw [← hdigit]
      exact decide_eq_true (standard_ne_padding hn)
  have hvalues : (unpadded standard bytes).map value = sextets bytes := by
    rw [unpadded, List.map_map]
    exact (List.map_congr_left fun n hn => value_standard (sextets_lt hn)).trans
      (List.map_id _)
  unfold decodeStandard
  dsimp only
  rw [hdigits, hvalues, ofSextets_sextets, if_pos rfl]

/-!
## The alphabet for URLs
-/

/-- The digit of the standard alphabet with the same value. -/
def toStandard (c : Char) : Char :=
  if c = '-' then '+' else if c = '_' then '/' else c

/-- What a text in the alphabet for URLs, without padding, encodes. -/
def decodeUrlSafe (text : List Char) : Option (List UInt8) :=
  let bytes := ofSextets (text.map fun c => value (toStandard c))
  if unpadded urlSafe bytes = text then some bytes else none

theorem value_urlSafe {n : Nat} (h : n < 64) : value (toStandard (urlSafe n)) = n := by
  have hall : forall n : Fin 64, value (toStandard (urlSafe n.val)) = n.val := by decide
  exact hall ⟨n, h⟩

theorem decodeUrlSafe_eq_some {text : List Char} {bytes : List UInt8} :
    decodeUrlSafe text = some bytes <-> text = unpadded urlSafe bytes := by
  unfold decodeUrlSafe
  dsimp only
  constructor
  · intro h
    split at h
    · rename_i heq
      rw [← Option.some.inj h, heq]
    · cases h
  · intro h
    have hvalues : text.map (fun c => value (toStandard c)) = sextets bytes := by
      rw [h, unpadded, List.map_map]
      exact (List.map_congr_left fun n hn => value_urlSafe (sextets_lt hn)).trans
        (List.map_id _)
    rw [hvalues, ofSextets_sextets, h, if_pos rfl]

theorem unpadded_urlSafe_injective :
    Function.Injective (unpadded urlSafe) := by
  intro a b h
  have hread := decodeUrlSafe_eq_some.mpr h
  rw [decodeUrlSafe_eq_some.mpr rfl] at hread
  exact Option.some.inj hread

/-- A digit of the alphabet for URLs separates nothing in a cookie. -/
theorem urlSafe_ne_separator {n : Nat} (h : n < 64) :
    urlSafe n ≠ '.' ∧ urlSafe n ≠ ';' ∧ urlSafe n ≠ ' ' := by
  have hall : forall n : Fin 64,
      urlSafe n.val ≠ '.' ∧ urlSafe n.val ≠ ';' ∧ urlSafe n.val ≠ ' ' := by decide
  exact hall ⟨n, h⟩

end Base64

end HifiApi
