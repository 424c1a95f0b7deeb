/-!
# Client secrets

Older helpers stored URL-escaped secrets.  Every constructor of an account
decodes the percent escapes once; a secret whose decoded bytes are not UTF-8 is
kept as it is.
-/

namespace HifiApi

/-- The value of a hexadecimal digit. -/
def hexDigit (b : UInt8) : Option UInt8 :=
  if 48 ≤ b ∧ b ≤ 57 then
    some (b - 48)
  else if 65 ≤ b ∧ b ≤ 70 then
    some (b - 55)
  else if 97 ≤ b ∧ b ≤ 102 then
    some (b - 87)
  else
    none

/-- {lit}`percent_decode`: an escape that is not two hexadecimal digits stays. -/
def percentDecode : List UInt8 -> List UInt8
  | 37 :: high :: low :: rest =>
      match hexDigit high, hexDigit low with
      | some x, some y => (x * 16 + y) :: percentDecode rest
      | _, _ => 37 :: percentDecode (high :: low :: rest)
  | b :: rest => b :: percentDecode rest
  | [] => []

def normalizeClientSecret (secret : String) : String :=
  let decoded := percentDecode secret.toByteArray.data.toList
  (String.fromUTF8? ⟨decoded.toArray⟩).getD secret

example : normalizeClientSecret "secret%3D" = "secret=" := by decide

end HifiApi
