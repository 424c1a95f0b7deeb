import Mathlib.Order.Lattice

/-!
# Machine integers

Timestamps and database columns are 64-bit signed integers, counters are 64-bit
unsigned ones.  A value carries its range, so a number outside it cannot be
built; the casts below are those of Rust's {lit}`as`.
-/

namespace HifiApi

/-- The integers of type {lit}`i64`. -/
structure I64 where
  val : Int
  lower : -9223372036854775808 ≤ val
  upper : val < 9223372036854775808
  deriving DecidableEq

namespace I64

theorem val_injective : Function.Injective I64.val := by
  intro a b h
  cases a
  cases b
  cases h
  rfl

instance : LinearOrder I64 := LinearOrder.lift' I64.val val_injective

instance : Zero I64 := ⟨⟨0, by decide, by decide⟩⟩

instance : Inhabited I64 := ⟨0⟩

/-- A number as it is written; above the range the largest one. -/
def ofNat (n : Nat) : I64 := ⟨(min n 9223372036854775807 : Nat), by omega, by omega⟩

@[simp] theorem val_zero : (0 : I64).val = 0 := rfl

/-- An integer as {lit}`i64`, when it fits. -/
def ofInt? (n : Int) : Option I64 :=
  if h : -9223372036854775808 ≤ n ∧ n < 9223372036854775808 then
    some ⟨n, h.left, h.right⟩
  else
    none

@[simp] theorem ofInt?_val (n : I64) : ofInt? n.val = some n := by
  unfold ofInt?
  rw [dif_pos ⟨n.lower, n.upper⟩]

end I64

/-- A result of {lit}`saturating_add` or {lit}`saturating_sub`. -/
def I64.saturate (n : Int) : Int :=
  max (-9223372036854775808) (min n 9223372036854775807)

/-- A difference of {lit}`i64` numbers that wraps. -/
def I64.wrap (n : Int) : Int :=
  (n + 9223372036854775808) % 18446744073709551616 - 9223372036854775808

/-- The integers of type {lit}`u64`. -/
structure U64 where
  val : Nat
  upper : val < 18446744073709551616
  deriving DecidableEq

namespace U64

instance : Zero U64 := ⟨⟨0, by decide⟩⟩

instance : Inhabited U64 := ⟨0⟩

/-- A number as it is written; above the range the largest one. -/
def ofNat (n : Nat) : U64 := ⟨min n 18446744073709551615, by omega⟩

@[simp] theorem val_zero : (0 : U64).val = 0 := rfl

theorem ext_val {a b : U64} (h : a.val = b.val) : a = b := by
  cases a
  cases b
  cases h
  rfl

/-- A natural number as {lit}`u64`, when it fits. -/
def ofNat? (n : Nat) : Option U64 :=
  if h : n < 18446744073709551616 then some ⟨n, h⟩ else none

@[simp] theorem ofNat?_val (n : U64) : ofNat? n.val = some n := by
  unfold ofNat?
  rw [dif_pos n.upper]

/-- Addition as {lit}`fetch_add` does it, wrapping at the end of the range. -/
def wrappingAdd (a : U64) (n : Nat) : U64 :=
  ⟨(a.val + n) % 18446744073709551616, Nat.mod_lt _ (by decide)⟩

/-- The cast {lit}`as i64`. -/
def toI64 (a : U64) : I64 :=
  if h : a.val < 9223372036854775808 then
    ⟨a.val, by omega, by omega⟩
  else
    ⟨(a.val : Int) - 18446744073709551616, by omega, by
      have hupper := a.upper
      omega⟩

/-- A column read back: {lit}`n.max(0) as u64`. -/
def ofColumn (n : I64) : U64 :=
  ⟨n.val.toNat, by
    have hupper := n.upper
    omega⟩

theorem wrappingAdd_val_of_lt {a : U64} {n : Nat}
    (h : a.val + n < 18446744073709551616) :
    (a.wrappingAdd n).val = a.val + n :=
  Nat.mod_eq_of_lt h

theorem ofColumn_toI64 {a : U64} (h : a.val < 9223372036854775808) :
    ofColumn a.toI64 = a := by
  apply ext_val
  simp [ofColumn, toI64, h]

end U64

/-!
## Decimal notation
-/

namespace Decimal

theorem isDigit_of_mem_repr {n : Nat} {c : Char} (h : c ∈ (Nat.repr n).toList) :
    c.isDigit = true := by
  rw [Nat.toList_repr] at h
  exact Nat.isDigit_of_mem_toDigits (by omega) (by omega) h

theorem mem_repr {n : Int} {c : Char} (h : c ∈ (Int.repr n).toList) :
    c.isDigit = true ∨ c = '-' := by
  cases n with
  | ofNat n => exact Or.inl (isDigit_of_mem_repr h)
  | negSucc n =>
      have hchars : c ∈ ("-" ++ Nat.repr n.succ).toList := h
      rw [String.toList_append, List.mem_append] at hchars
      rcases hchars with hsign | hdigits
      · exact Or.inr (List.mem_singleton.mp hsign)
      · exact Or.inl (isDigit_of_mem_repr hdigits)

theorem nat_repr_inj {m n : Nat} (h : Nat.repr m = Nat.repr n) : m = n := by
  have hdigits := congrArg String.toList h
  rw [Nat.toList_repr, Nat.toList_repr] at hdigits
  have hread := congrArg (fun digits => Nat.ofDigitChars 10 digits 0) hdigits
  rw [Nat.ofDigitChars_ten_toDigits, Nat.ofDigitChars_ten_toDigits] at hread
  exact hread

/-- A number that is not negative does not begin with a sign. -/
theorem repr_ne_sign {m n : Nat} : Nat.repr m ≠ "-" ++ Nat.repr n := by
  intro h
  have hin : '-' ∈ (Nat.repr m).toList := by
    rw [h, String.toList_append]
    exact List.mem_append_left _ (by decide)
  exact absurd (isDigit_of_mem_repr hin) (by decide)

theorem int_repr_inj {m n : Int} (h : Int.repr m = Int.repr n) : m = n := by
  cases m with
  | ofNat m =>
      cases n with
      | ofNat n => rw [nat_repr_inj h]
      | negSucc n => exact absurd h repr_ne_sign
  | negSucc m =>
      cases n with
      | ofNat n => exact absurd h.symm repr_ne_sign
      | negSucc n =>
          have hlist := congrArg String.toList h
          show Int.negSucc m = Int.negSucc n
          have hrest : Nat.repr m.succ = Nat.repr n.succ := by
            have happend : ("-" ++ Nat.repr m.succ).toList =
              ("-" ++ Nat.repr n.succ).toList := hlist
            rw [String.toList_append, String.toList_append] at happend
            exact String.toList_inj.mp (List.append_cancel_left happend)
          rw [Nat.succ.inj (nat_repr_inj hrest)]

end Decimal

end HifiApi
