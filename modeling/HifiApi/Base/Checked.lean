import HifiApi.Base.Numbers
import Mathlib.Algebra.Group.Nat.Defs

/-!
# Checked arithmetic

The operators on machine integers, which end the program in a debug build when
the result is out of range; such an end is {lit}`none`.  The methods that
saturate or wrap have a result in every case.
-/

namespace HifiApi

namespace I64

/-- A difference as the operator forms it. -/
def sub? (a b : I64) : Option I64 := ofInt? (a.val - b.val)

/-- A sum as the operator forms it. -/
def add? (a b : I64) : Option I64 := ofInt? (a.val + b.val)

def saturated (n : Int) : I64 where
  val := saturate n
  lower := le_max_left _ _
  upper := by
    unfold saturate
    omega

def saturatingAdd (a b : I64) : I64 := saturated (a.val + b.val)

def saturatingSub (a b : I64) : I64 := saturated (a.val - b.val)

@[simp] theorem saturatingAdd_val (a b : I64) :
    (a.saturatingAdd b).val = saturate (a.val + b.val) := rfl

@[simp] theorem saturatingSub_val (a b : I64) :
    (a.saturatingSub b).val = saturate (a.val - b.val) := rfl

theorem max_val (a b : I64) : (Max.max a b).val = Max.max a.val b.val := by
  rcases le_total a b with h | h
  · have hval : a.val ≤ b.val := h
    rw [max_eq_right h, max_eq_right hval]
  · have hval : b.val ≤ a.val := h
    rw [max_eq_left h, max_eq_left hval]

/-- A difference fits that is less than the whole range below zero. -/
theorem sub?_of_le {a b : I64} (h : b.val ≤ a.val) (hb : 0 < b.val) :
    exists d, a.sub? b = some d ∧ d.val = a.val - b.val := by
  have hupper := a.upper
  have hfits : -9223372036854775808 ≤ a.val - b.val ∧
      a.val - b.val < 9223372036854775808 := by omega
  exact ⟨⟨a.val - b.val, hfits.left, hfits.right⟩, dif_pos hfits, rfl⟩

/-- Neither of two numbers that are not negative is out of reach of the other. -/
theorem sub?_of_nonneg {a b : I64} (ha : 0 ≤ a.val) (hb : 0 ≤ b.val) :
    exists d, a.sub? b = some d ∧ d.val = a.val - b.val := by
  have hupper := a.upper
  have hupper' := b.upper
  have hfits : -9223372036854775808 ≤ a.val - b.val ∧
      a.val - b.val < 9223372036854775808 := by omega
  exact ⟨⟨a.val - b.val, hfits.left, hfits.right⟩, dif_pos hfits, rfl⟩

theorem ofInt?_eq_some {n : Int} {c : I64} : ofInt? n = some c <-> c.val = n := by
  unfold ofInt?
  constructor
  · intro h
    split at h
    · cases h
      rfl
    · cases h
  · intro h
    have hlower := c.lower
    have hupper := c.upper
    rw [dif_pos (by omega)]
    congr 1
    exact val_injective h.symm

theorem add?_eq_some {a b c : I64} : a.add? b = some c <-> c.val = a.val + b.val :=
  ofInt?_eq_some

theorem sub?_eq_some {a b c : I64} : a.sub? b = some c <-> c.val = a.val - b.val :=
  ofInt?_eq_some

end I64

namespace U64

def one : U64 := ⟨1, by omega⟩

def saturatingMul (a b : U64) : U64 :=
  ⟨min (a.val * b.val) 18446744073709551615, by omega⟩

/-- A shift to the left; the distance is checked, and the bits that leave the range
are lost. -/
def shiftLeft? (a : U64) (distance : Nat) : Option U64 :=
  if distance < 64 then
    some ⟨a.val * 2 ^ distance % 18446744073709551616, Nat.mod_lt _ (by omega)⟩
  else
    none

def max (a b : U64) : U64 := if a.val ≤ b.val then b else a

def min (a b : U64) : U64 := if a.val ≤ b.val then a else b

@[simp] theorem max_val (a b : U64) : (a.max b).val = Max.max a.val b.val := by
  unfold max
  split
  · rename_i h
    exact (Nat.max_eq_right h).symm
  · rename_i h
    exact (Nat.max_eq_left (Nat.le_of_not_le h)).symm

@[simp] theorem min_val (a b : U64) : (a.min b).val = Min.min a.val b.val := by
  unfold min
  split
  · rename_i h
    exact (Nat.min_eq_left h).symm
  · rename_i h
    exact (Nat.min_eq_right (Nat.le_of_not_le h)).symm

theorem shiftLeft?_one {distance : Nat} (h : distance < 64) :
    exists x, shiftLeft? one distance = some x ∧ x.val = 2 ^ distance := by
  have hfits : 2 ^ distance < 18446744073709551616 :=
    Nat.pow_lt_pow_right (by omega) h
  have hval : 1 * 2 ^ distance % 18446744073709551616 = 2 ^ distance := by
    rw [Nat.one_mul, Nat.mod_eq_of_lt hfits]
  exact ⟨_, if_pos h, hval⟩

theorem neg_le_val (a : U64) : -9223372036854775808 ≤ (a.val : Int) := by
  omega

theorem val_lt {a : U64} (h : a.val < 9223372036854775808) :
    (a.val : Int) < 9223372036854775808 := by
  omega

/-- {lit}`i64::try_from(n).unwrap_or(i64::MAX)` -/
def toI64OrMax (a : U64) : I64 :=
  if h : a.val < 9223372036854775808 then ⟨a.val, a.neg_le_val, val_lt h⟩
  else ⟨9223372036854775807, by omega, by omega⟩

/-- A deadline from a time that is not negative. -/
theorem saturatingAdd_toI64OrMax {now : I64} (h : 0 ≤ now.val) (a : U64) :
    (now.saturatingAdd a.toI64OrMax).val =
      Min.min (now.val + a.val) 9223372036854775807 := by
  have hupper := now.upper
  rw [I64.saturatingAdd_val]
  unfold toI64OrMax I64.saturate
  split
  · dsimp only
    omega
  · dsimp only
    omega

end U64

/-- The integers of type {lit}`u32`. -/
structure U32 where
  val : Nat
  upper : val < 4294967296
  deriving DecidableEq

namespace U32

theorem ext_val {a b : U32} (h : a.val = b.val) : a = b := by
  cases a
  cases b
  cases h
  rfl

def zero : U32 := ⟨0, by omega⟩

def one : U32 := ⟨1, by omega⟩

def max (a b : U32) : U32 := if a.val ≤ b.val then b else a

/-- A sum as the operator forms it. -/
def add? (a : U32) (n : Nat) : Option U32 :=
  if h : a.val + n < 4294967296 then some ⟨a.val + n, h⟩ else none

/-- Addition as {lit}`fetch_add` does it, wrapping at the end of the range. -/
def wrappingAdd (a : U32) (n : Nat) : U32 :=
  ⟨(a.val + n) % 4294967296, Nat.mod_lt _ (by omega)⟩

@[simp] theorem max_val (a b : U32) : (a.max b).val = Max.max a.val b.val := by
  unfold max
  split
  · rename_i h
    exact (Nat.max_eq_right h).symm
  · rename_i h
    exact (Nat.max_eq_left (Nat.le_of_not_le h)).symm

theorem wrappingAdd_val {a : U32} {n : Nat} (h : a.val + n < 4294967296) :
    (a.wrappingAdd n).val = a.val + n :=
  Nat.mod_eq_of_lt h

/-- The checked and the wrapping sum are the same while there is one. -/
theorem add?_of_lt {a : U32} {n : Nat} (h : a.val + n < 4294967296) :
    a.add? n = some (a.wrappingAdd n) := by
  rw [add?, dif_pos h]
  congr 1
  apply ext_val
  exact (Nat.mod_eq_of_lt h).symm

theorem add?_of_ge {a : U32} {n : Nat} (h : 4294967296 ≤ a.val + n) :
    a.add? n = none :=
  dif_neg (Nat.not_lt.mpr h)

end U32

end HifiApi
