import HifiApi.Base.Checked
import HifiApi.Base.Text
import HifiApi.Base.Utf8Lossy
import HifiApi.Cache.Responses
import HifiApi.Lib.Base64
import HifiApi.Lib.Separated
import HifiApi.Settings.Loaders

/-!
# Sessions of the admin panel

The cookie that a login hands out names the second it expires and carries a keyed hash
of that name.  It is read back from the header of a later request, among other cookies.
The hash function is a parameter; the keyed hash over it is the one of the source.
-/

namespace HifiApi

/-- The number that digits write. -/
def readDigits (digits : List Char) : Option Nat :=
  if digits = [] ∨ ¬ digits.all Char.isDigit then none
  else some (Nat.ofDigitChars 10 digits 0)

/-- A text as {lit}`i64`: digits, after a sign at most. -/
def parseI64 : List Char -> Option I64
  | '-' :: digits => (readDigits digits).bind fun n => I64.ofInt? (-(n : Int))
  | all => (readDigits (withoutPlus all)).bind fun n => I64.ofInt? (n : Int)

/-- A second of {lit}`Utc`: the years it knows keep far from the ends of {lit}`i64`. -/
structure UtcSecond where
  val : Int
  lower : -10000000000000 ≤ val
  upper : val ≤ 10000000000000

/-- {lit}`headers.get(name)` as far as it is a text. -/
def headerText (headers : List Header) (name : String) : Option String :=
  (headers.find? fun h => h.name = name).bind Header.text

/-- {lit}`strip_prefix` -/
def stripPrefix (start text : List Char) : Option (List Char) :=
  if start.isPrefixOf text then some (text.drop start.length) else none

namespace AdminSession

abbrev Digest := { bytes : List UInt8 // bytes.length = 32 }

def sessionSeconds : Int := 30 * 24 * 60 * 60

/-- {lit}`SESSION_COOKIE` with the sign behind it. -/
def cookieStart : List Char := "hifi_admin_session=".toList

def version : List Char := "v1".toList

section Signed

variable (sha256 : List UInt8 -> Digest)

/-- The key filled up to a block; a longer one is hashed first. -/
def block (key : String) : List UInt8 :=
  let bytes := utf8Bytes key
  let short := if 64 < bytes.length then (sha256 bytes).val else bytes
  short ++ List.replicate (64 - short.length) 0

def sessionSignature (key : String) (expiry : I64) : Digest :=
  let padded := block sha256 key
  let inner := sha256 (padded.map (0x36 ^^^ ·) ++
    utf8Bytes ("hifi-admin-session-v1:" ++ Int.repr expiry.val))
  sha256 (padded.map (0x5c ^^^ ·) ++ inner.val)

/-- The value of the cookie that expires at a second. -/
def cookieValue (key : String) (expiry : I64) : List Char :=
  version ++ '.' :: ((Int.repr expiry.val).toList ++
    '.' :: Base64.unpadded Base64.urlSafe (sessionSignature sha256 key expiry).val)

/-- The second at which a session of a login expires. -/
def expiryOf (now : UtcSecond) : I64 where
  val := now.val + sessionSeconds
  lower := by
    have := now.lower
    unfold sessionSeconds
    omega
  upper := by
    have := now.upper
    unfold sessionSeconds
    omega

/-- The header {lit}`Set-Cookie` of a login. -/
def loginCookie (key : String) (now : UtcSecond) (secure : Bool) : List Char :=
  cookieStart ++ (cookieValue sha256 key (expiryOf now) ++
    (("; Path=/admin; Max-Age=2592000; HttpOnly; SameSite=Strict" : String).toList ++
      if secure then "; Secure".toList else []))

/-- The header {lit}`Set-Cookie` of a logout. -/
def logoutCookie : List Char :=
  "hifi_admin_session=; Path=/admin; Max-Age=0; HttpOnly; SameSite=Strict".toList

/-- The value of the first cookie with the right name. -/
def sessionValue (cookie : List Char) : Option (List Char) :=
  (cookie.splitOn ';').findSome? fun part =>
    stripPrefix cookieStart (AccountState.trim part)

/-- The comparison of two hashes, byte by byte to the end. -/
def difference (signature expected : List UInt8) : UInt8 :=
  (signature.zip expected).foldl (fun acc pair => acc ||| (pair.1 ^^^ pair.2)) 0

/-- The value of a cookie is a session at a second. -/
def acceptsValue (key : String) (now : UtcSecond) (value : List Char) : Bool :=
  match value.splitOn '.' with
  | [first, expiry, signature] =>
      if first ≠ version then false
      else
        match parseI64 expiry with
        | none => false
        | some expiry =>
            if expiry.val < now.val ∨ now.val + sessionSeconds < expiry.val then false
            else
              match Base64.decodeUrlSafe signature with
              | none => false
              | some bytes =>
                  let expected := (sessionSignature sha256 key expiry).val
                  if bytes.length ≠ expected.length then false
                  else difference bytes expected == 0
  | _ => false

def validSession (headers : List Header) (key : String) (now : UtcSecond) : Bool :=
  match headerText headers "cookie" with
  | none => false
  | some cookie =>
      match sessionValue cookie.toList with
      | none => false
      | some value => acceptsValue sha256 key now value

end Signed

end AdminSession

/-!
## Numbers read back
-/

theorem readDigits_repr (n : Nat) : readDigits (Nat.repr n).toList = some n := by
  have hdigits : forall c, c ∈ Nat.toDigits 10 n -> c.isDigit = true := fun _ hc =>
    Nat.isDigit_of_mem_toDigits (by decide) (by decide) hc
  unfold readDigits
  rw [Nat.toList_repr, if_neg, Nat.ofDigitChars_ten_toDigits]
  rw [not_or, not_not]
  exact ⟨Nat.toDigits_ne_nil, List.all_eq_true.mpr hdigits⟩

/-- The decimal text of a number of the type is read back. -/
theorem parseI64_repr (n : I64) : parseI64 (Int.repr n.val).toList = some n := by
  rcases n with ⟨val, lower, upper⟩
  cases val with
  | ofNat m =>
      have hdigits : forall c, c ∈ (Nat.repr m).toList -> c.isDigit = true :=
        fun c hc => Decimal.isDigit_of_mem_repr hc
      show parseI64 (Nat.repr m).toList = _
      unfold parseI64
      split
      · rename_i digits heq
        have hsign := hdigits '-' (heq ▸ List.mem_cons_self)
        exact absurd hsign (by decide)
      · rw [withoutPlus_of_digits hdigits, readDigits_repr, Option.bind_some]
        exact I64.ofInt?_eq_some.mpr rfl
  | negSucc m =>
      have htext : (Int.repr (Int.negSucc m)).toList = '-' :: (Nat.repr m.succ).toList := by
        show ("-" ++ Nat.repr m.succ).toList = _
        rw [String.toList_append]
        rfl
      rw [htext]
      show (readDigits (Nat.repr m.succ).toList).bind _ = _
      rw [readDigits_repr, Option.bind_some]
      exact I64.ofInt?_eq_some.mpr rfl

theorem digit_of_readDigits {digits : List Char} {n : Nat}
    (h : readDigits digits = some n) {c : Char} (hc : c ∈ digits) : c.isDigit = true := by
  unfold readDigits at h
  split at h
  · cases h
  · rename_i hall
    rw [not_or, not_not] at hall
    exact List.all_eq_true.mp hall.right c hc

/-- What is read as a number has digits and a sign only. -/
theorem mem_of_parseI64 {text : List Char} {n : I64} (h : parseI64 text = some n)
    {c : Char} (hc : c ∈ text) : c.isDigit = true ∨ c = '-' ∨ c = '+' := by
  unfold parseI64 at h
  split at h
  · rename_i digits
    rcases Option.bind_eq_some_iff.mp h with ⟨m, hm, _⟩
    rcases List.mem_cons.mp hc with hsign | hdigit
    · exact Or.inr (Or.inl hsign)
    · exact Or.inl (digit_of_readDigits hm hdigit)
  · rcases Option.bind_eq_some_iff.mp h with ⟨m, hm, _⟩
    unfold withoutPlus at hm
    split at hm
    · rcases List.mem_cons.mp hc with hsign | hdigit
      · exact Or.inr (Or.inr hsign)
      · exact Or.inl (digit_of_readDigits hm hdigit)
    · exact Or.inl (digit_of_readDigits hm hc)

theorem stripPrefix_append (start rest : List Char) :
    stripPrefix start (start ++ rest) = some rest := by
  unfold stripPrefix
  rw [if_pos (List.isPrefixOf_iff_prefix.mpr (List.prefix_append _ _)), List.drop_left]

namespace AdminSession

/-!
## The comparison of hashes
-/

theorem foldl_difference (pairs : List (UInt8 × UInt8)) (acc : UInt8) :
    pairs.foldl (fun acc pair => acc ||| (pair.1 ^^^ pair.2)) acc = 0 <->
      acc = 0 ∧ forall pair, pair ∈ pairs -> pair.1 = pair.2 := by
  induction pairs generalizing acc with
  | nil =>
      simp
  | cons pair rest ih =>
      rw [List.foldl_cons, ih, UInt8.or_eq_zero_iff, UInt8.xor_eq_zero_iff,
        List.forall_mem_cons, and_assoc]

theorem eq_of_zip {a b : List UInt8} (hlength : a.length = b.length)
    (h : forall pair, pair ∈ a.zip b -> pair.1 = pair.2) : a = b := by
  induction a generalizing b with
  | nil =>
      exact (List.length_eq_zero_iff.mp hlength.symm).symm
  | cons x rest ih =>
      cases b with
      | nil => cases hlength
      | cons y rest' =>
          rw [List.zip_cons_cons, List.forall_mem_cons] at h
          have hhead : x = y := h.left
          rw [hhead, ih (Nat.succ.inj hlength) h.right]

/-- The comparison to the end is equality. -/
theorem difference_eq_zero {a b : List UInt8} (hlength : a.length = b.length) :
    difference a b = 0 <-> a = b := by
  unfold difference
  rw [foldl_difference]
  constructor
  · exact fun h => eq_of_zip hlength h.right
  · intro heq
    refine ⟨rfl, ?_⟩
    rw [heq]
    intro pair hpair
    rcases List.mem_iff_getElem.mp hpair with ⟨i, hi, hget⟩
    rw [← hget, List.getElem_zip]

section Signed

variable (sha256 : List UInt8 -> Digest)

/-!
## Which values are sessions
-/

theorem not_mem_of_parseI64 {text : List Char} {n : I64} (h : parseI64 text = some n) :
    '.' ∉ text := by
  intro hdot
  rcases mem_of_parseI64 h hdot with hdigit | hsign | hsign
  · exact absurd hdigit (by decide)
  · exact absurd hsign (by decide)
  · exact absurd hsign (by decide)

theorem not_mem_unpadded {c : Char} (hc : c = '.' ∨ c = ';' ∨ c = ' ')
    (bytes : List UInt8) : c ∉ Base64.unpadded Base64.urlSafe bytes := by
  intro hmem
  rcases Base64.mem_unpadded hmem with ⟨n, hn, hdigit⟩
  have hne := Base64.urlSafe_ne_separator hn
  rw [hdigit] at hne
  rcases hc with hdot | hsemicolon | hblank
  · exact hne.left hdot
  · exact hne.right.left hsemicolon
  · exact hne.right.right hblank

/-- Three parts of a value. -/
theorem splitOn_three {first second third : List Char} (hfirst : '.' ∉ first)
    (hsecond : '.' ∉ second) (hthird : '.' ∉ third) :
    (first ++ '.' :: (second ++ '.' :: third)).splitOn '.' = [first, second, third] := by
  rw [List.splitOn_append_cons_self_of_not_mem hfirst,
    List.splitOn_append_cons_self_of_not_mem hsecond, List.splitOn_eq_singleton hthird]

theorem eq_of_splitOn_three {value first second third : List Char}
    (h : value.splitOn '.' = [first, second, third]) :
    value = first ++ '.' :: (second ++ '.' :: third) := by
  have hjoin := @List.intercalate_splitOn _ value _ _ '.'
  rw [h] at hjoin
  rw [← hjoin, List.intercalate_cons_cons, List.intercalate_cons_cons,
    List.intercalate_singleton]
  simp

/-- A value is a session exactly when it names a second within the next thirty days
and carries the keyed hash of that name. -/
theorem acceptsValue_iff {key : String} {now : UtcSecond} {value : List Char} :
    acceptsValue sha256 key now value = true <->
      exists (text : List Char) (expiry : I64),
        value = version ++ '.' :: (text ++ '.' ::
          Base64.unpadded Base64.urlSafe (sessionSignature sha256 key expiry).val) ∧
        parseI64 text = some expiry ∧ now.val ≤ expiry.val ∧
        expiry.val ≤ now.val + sessionSeconds := by
  constructor
  · intro h
    unfold acceptsValue at h
    split at h
    · rename_i first text signature hparts
      split at h
      · cases h
      · rename_i hversion
        split at h
        · cases h
        · rename_i expiry hexpiry
          split at h
          · cases h
          · rename_i htime
            split at h
            · cases h
            · rename_i bytes hbytes
              dsimp only at h
              split at h
              · cases h
              · rename_i hlength
                have hsame := (difference_eq_zero (not_not.mp hlength)).mp
                  (eq_of_beq h)
                refine ⟨text, expiry, ?_, hexpiry, by omega, by omega⟩
                rw [eq_of_splitOn_three hparts, not_not.mp hversion,
                  Base64.decodeUrlSafe_eq_some.mp hbytes, hsame]
    · cases h
  · rintro ⟨text, expiry, hvalue, hexpiry, hlater, hsoon⟩
    have hparts : value.splitOn '.' = [version, text, Base64.unpadded Base64.urlSafe
        (sessionSignature sha256 key expiry).val] := by
      rw [hvalue]
      exact splitOn_three (by decide) (not_mem_of_parseI64 hexpiry)
        (not_mem_unpadded (Or.inl rfl) _)
    have hbytes := Base64.decodeUrlSafe_eq_some.mpr
      (rfl : Base64.unpadded Base64.urlSafe (sessionSignature sha256 key expiry).val = _)
    unfold acceptsValue
    rw [hparts]
    dsimp only
    rw [if_neg (not_not.mpr rfl), hexpiry]
    dsimp only
    rw [if_neg (by omega), hbytes]
    dsimp only
    rw [if_neg (not_not.mpr rfl), (difference_eq_zero rfl).mpr rfl]
    rfl

/-!
## Cookies among others
-/

theorem not_mem_repr {c : Char} (hdigit : c.isDigit = false) (hsign : c ≠ '-') (n : Int) :
    c ∉ (Int.repr n).toList := by
  intro hmem
  rcases Decimal.mem_repr hmem with hyes | hminus
  · rw [hdigit] at hyes
    cases hyes
  · exact hsign hminus

theorem not_mem_cookieValue (key : String) (expiry : I64) :
    ';' ∉ cookieValue sha256 key expiry := by
  unfold cookieValue
  simp only [List.mem_append, List.mem_cons, not_or]
  exact ⟨by decide, by decide, not_mem_repr (by decide) (by decide) _, by decide,
    not_mem_unpadded (Or.inr (Or.inl rfl)) _⟩

/-- The name and the value of a cookie that is set. -/
def pair (setCookie : List Char) : List Char := setCookie.takeWhile (· ≠ ';')

theorem pair_loginCookie (key : String) (now : UtcSecond) (secure : Bool) :
    pair (loginCookie sha256 key now secure) =
      cookieStart ++ cookieValue sha256 key (expiryOf now) := by
  have hstart : cookieStart.all (fun c => decide (c ≠ ';')) = true := by decide
  have hvalue : forall c, c ∈ cookieValue sha256 key (expiryOf now) ->
      decide (c ≠ ';') = true := by
    intro c hc
    apply decide_eq_true
    intro heq
    exact not_mem_cookieValue sha256 key (expiryOf now) (heq ▸ hc)
  unfold pair loginCookie
  rw [List.takeWhile_append_of_pos (List.all_eq_true.mp hstart),
    List.takeWhile_append_of_pos hvalue]
  cases secure with
  | false => exact congrArg (cookieStart ++ ·) (List.append_nil _)
  | true => exact congrArg (cookieStart ++ ·) (List.append_nil _)

/-- The first cookie of a request with the name of a session. -/
def Carries (headers : List Header) (cookie : List Char) : Prop :=
  exists (before : List (List Char)) (part : List Char) (after : List (List Char)),
    headerText headers "cookie" =
        some (String.ofList ([';'].intercalate (before ++ part :: after))) ∧
      (forall p, p ∈ before ++ part :: after -> ';' ∉ p) ∧
      (forall p, p ∈ before -> stripPrefix cookieStart (AccountState.trim p) = none) ∧
      AccountState.trim part = cookie

theorem sessionValue_of_parts {before after : List (List Char)} {part value : List Char}
    (hfree : forall p, p ∈ before ++ part :: after -> ';' ∉ p)
    (hbefore : forall p, p ∈ before ->
      stripPrefix cookieStart (AccountState.trim p) = none)
    (hpart : AccountState.trim part = cookieStart ++ value) :
    sessionValue ([';'].intercalate (before ++ part :: after)) = some value := by
  have hnone : before.findSome? (fun p => stripPrefix cookieStart (AccountState.trim p)) =
      none := List.findSome?_eq_none_iff.mpr hbefore
  unfold sessionValue
  rw [List.splitOn_intercalate ';' hfree (by simp), List.findSome?_append, hnone,
    Option.none_or, List.findSome?_cons, hpart, stripPrefix_append]

theorem validSession_of_carries {headers : List Header} {value : List Char}
    (h : Carries headers (cookieStart ++ value)) (key : String) (now : UtcSecond) :
    validSession sha256 headers key now = acceptsValue sha256 key now value := by
  rcases h with ⟨before, part, after, hheader, hfree, hbefore, hpart⟩
  unfold validSession
  rw [hheader]
  dsimp only
  rw [String.toList_ofList, sessionValue_of_parts hfree hbefore hpart]

theorem cookieValue_inj {key key' : String} {expiry expiry' : I64} {text : List Char}
    (htext : '.' ∉ text)
    (h : cookieValue sha256 key expiry = version ++ '.' :: (text ++ '.' ::
      Base64.unpadded Base64.urlSafe (sessionSignature sha256 key' expiry').val)) :
    (Int.repr expiry.val).toList = text ∧
      sessionSignature sha256 key expiry = sessionSignature sha256 key' expiry' := by
  have hrepr : '.' ∉ (Int.repr expiry.val).toList :=
    not_mem_repr (by decide) (by decide) _
  have hrest := List.append_cancel_left h
  have hinner := Separated.append_cons_inj hrepr htext (List.cons.inj hrest).right
  exact ⟨hinner.left, Subtype.ext (Base64.unpadded_urlSafe_injective hinner.right)⟩

end Signed

/-- The hash function on the two blocks that sign the second 1702592000 with the key
{lit}`secret`. -/
def sampleSha256 (bytes : List UInt8) : Digest :=
  if bytes.length = 96 then
    ⟨[166, 108, 201, 194, 60, 41, 18, 237, 216, 153, 235, 49, 144, 0, 62, 254, 252, 187,
      136, 203, 194, 66, 149, 162, 200, 147, 82, 17, 225, 42, 17, 185], rfl⟩
  else
    ⟨[174, 64, 51, 96, 172, 48, 61, 138, 166, 153, 115, 226, 30, 156, 221, 222, 83, 147,
      175, 182, 9, 152, 94, 138, 102, 99, 207, 93, 248, 151, 9, 29], rfl⟩

def sampleLogin : UtcSecond where
  val := 1700000000
  lower := by omega
  upper := by omega

def sampleHeaders : List Header :=
  [⟨"x-forwarded-proto", some "https"⟩,
    ⟨"cookie", some ("theme=dark; hifi_admin_session=v1.1702592000." ++
      "pmzJwjwpEu3YmesxkAA-_vy7iMvCQpWiyJNSEeEqEbk; lang=en")⟩]

set_option maxRecDepth 4000 in
theorem carries_sampleHeaders :
    Carries sampleHeaders (pair (loginCookie sampleSha256 "secret" sampleLogin true)) :=
  ⟨["theme=dark".toList],
    (" hifi_admin_session=v1.1702592000." ++
      "pmzJwjwpEu3YmesxkAA-_vy7iMvCQpWiyJNSEeEqEbk").toList,
    [" lang=en".toList], by decide, by decide, by decide, by decide⟩

section Signed

variable (sha256 : List UInt8 -> Digest)

/-- The cookie of a logout is no session. -/
theorem validSession_logoutCookie {key : String} {now : UtcSecond} {headers : List Header}
    (h : Carries headers (pair logoutCookie)) :
    validSession sha256 headers key now = false := by
  have hpair : pair logoutCookie = cookieStart ++ [] := by decide
  rw [hpair] at h
  rw [validSession_of_carries sha256 h]
  rfl

end Signed

end AdminSession

end HifiApi
