import HifiApi.Base.Text
import HifiApi.Base.Utf8Lossy
import HifiApi.Lib.Base64

/-!
# The track id in a manifest URL

The URL of a manifest holds a message in URL-safe base64 that begins with the id of its
track.  The id is the first run of five digits or more in the message, which stands
out because nothing in front of it is a digit and what follows does not begin with one.
The decoder for standard base64 is a parameter.
-/

namespace HifiApi

namespace ManifestId

open Base64 Utf8Lossy

def marker : List Char := "/manifests/".toList

/-- The characters that end the message in a URL. -/
def ends (c : Char) : Bool := c == '.' || c == '?' || c == '/' || c == '&'

/-- The length of a text in bytes. -/
def utf8Len (text : List Char) : Nat := (text.map Char.utf8Size).sum

/-- Padding is added until the length is a multiple of four, in so many rounds at
most. -/
def padRounds : Nat -> List Char -> List Char
  | 0, b64 => b64
  | rounds + 1, b64 =>
      if utf8Len b64 % 4 ≠ 0 then padRounds rounds (b64 ++ ['=']) else b64

/-- The loop over the characters of the message. -/
def firstRun : List Char -> List Char -> Option (List Char)
  | run, [] => if 5 ≤ run.length then some run else none
  | run, ch :: rest =>
      if ch.isDigit then firstRun (run ++ [ch]) rest
      else if 5 ≤ run.length then some run
      else firstRun [] rest

section Code

variable (decode : List Char -> Option (List UInt8))

def manifestTrackId (mpdUrl : List Char) : Option (List Char) :=
  match Text.afterFirst marker mpdUrl with
  | none => none
  | some rest =>
      let b64 := ((rest.takeWhile fun c => !ends c).map
        fun c => if c = '-' then '+' else c).map fun c => if c = '_' then '/' else c
      match decode (padRounds 3 b64) with
      | none => none
      | some raw => firstRun [] (fromUtf8Lossy raw)

def manifestMatchesTrack (uri trackId : List Char) : Bool :=
  match manifestTrackId decode uri with
  | none => true
  | some mid => mid == AccountState.trim trackId

end Code

/-!
## Manifest URLs
-/

/-- A decimal id of five to twenty digits. -/
structure TrackId where
  digits : List Char
  decimal : forall c, c ∈ digits -> c.isDigit = true
  five : 5 ≤ digits.length
  twenty : digits.length ≤ 20

/-- A message that begins with an id. -/
def message (id : TrackId) (tail : List UInt8) : List UInt8 :=
  18 :: UInt8.ofNat id.digits.length :: (asciiBytes id.digits ++ tail)

def manifestUrl (before : List Char) (id : TrackId) (tail : List UInt8)
    (after : List Char) : List Char :=
  before ++ (marker ++ (unpadded urlSafe (message id tail) ++ after))

/-!
## The way back to the message
-/

theorem utf8Len_append (first second : List Char) :
    utf8Len (first ++ second) = utf8Len first + utf8Len second := by
  rw [utf8Len, List.map_append, List.sum_append]
  rfl

/-- Three rounds are enough. -/
theorem padRounds_eq {rounds missing : Nat} (hrounds : missing ≤ rounds)
    (hmissing : missing < 4) {b64 : List Char} (h : (utf8Len b64 + missing) % 4 = 0) :
    padRounds rounds b64 = b64 ++ List.replicate missing '=' := by
  induction rounds generalizing missing b64 with
  | zero =>
      rw [Nat.le_zero.mp hrounds, List.replicate_zero, List.append_nil]
      rfl
  | succ rounds ih =>
      cases missing with
      | zero =>
          rw [padRounds, if_neg (by omega), List.replicate_zero, List.append_nil]
      | succ missing =>
          have hlen : utf8Len (b64 ++ ['=']) = utf8Len b64 + 1 := utf8Len_append _ _
          rw [padRounds, if_pos (by omega),
            ih (Nat.le_of_succ_le_succ hrounds) (by omega) (by rw [hlen]; omega),
            List.append_assoc, List.singleton_append, ← List.replicate_succ]

/-- The loop has come to its end then, whatever the text is. -/
theorem utf8Len_padRounds (b64 : List Char) : utf8Len (padRounds 3 b64) % 4 = 0 := by
  have hmod := Nat.mod_lt (utf8Len b64) (show 4 > 0 by omega)
  have hpadding : forall missing : Nat, utf8Len (List.replicate missing '=') = missing := by
    intro missing
    rw [utf8Len, List.map_replicate, List.sum_replicate_nat]
    exact Nat.mul_one missing
  have hfull : (utf8Len b64 + (4 - utf8Len b64 % 4) % 4) % 4 = 0 := by omega
  have hpadded := padRounds_eq (show (4 - utf8Len b64 % 4) % 4 ≤ 3 by omega)
    (by omega) hfull
  rw [hpadded, utf8Len_append, hpadding]
  omega

theorem utf8Len_unpadded (bytes : List UInt8) :
    utf8Len (unpadded standard bytes) = (sextets bytes).length := by
  have hsize : forall n : Fin 64, (standard n.val).utf8Size = 1 := by decide
  have hall : forall n, n ∈ sextets bytes -> (standard n).utf8Size = 1 :=
    fun n hn => hsize ⟨n, sextets_lt hn⟩
  rw [utf8Len, unpadded, List.map_map]
  have hones : (sextets bytes).map (Char.utf8Size ∘ standard) =
      (sextets bytes).map fun _ => 1 := List.map_congr_left hall
  rw [hones, List.map_const', List.sum_replicate_nat, Nat.mul_one]

/-- The rounds of padding give the padded form. -/
theorem padRounds_unpadded (bytes : List UInt8) :
    padRounds 3 (unpadded standard bytes) = padded standard bytes := by
  have hlength := length_sextets bytes
  apply padRounds_eq
  · omega
  · omega
  · rw [utf8Len_unpadded, hlength]
    omega

/-- The two replacements lead from one alphabet to the other. -/
theorem standard_of_urlSafe (bytes : List UInt8) :
    (((unpadded urlSafe bytes).map fun c => if c = '-' then '+' else c).map
      fun c => if c = '_' then '/' else c) = unpadded standard bytes := by
  have hdigit : forall n : Fin 64, (fun c => if c = '_' then '/' else c)
      ((fun c => if c = '-' then '+' else c) (urlSafe n.val)) = standard n.val := by
    decide
  rw [map_unpadded, map_unpadded]
  exact List.map_congr_left fun n hn => hdigit ⟨n, sextets_lt hn⟩

theorem takeWhile_unpadded (bytes : List UInt8) {after : List Char}
    (hafter : forall c, c ∈ after.head? -> ends c = true) :
    ((unpadded urlSafe bytes ++ after).takeWhile fun c => !ends c) =
      unpadded urlSafe bytes := by
  have hdigit : forall n : Fin 64, (!ends (urlSafe n.val)) = true := by decide
  rw [List.takeWhile_append_of_pos]
  · have hstop : (after.takeWhile fun c => !ends c) = [] := by
      cases after with
      | nil => rfl
      | cons c rest =>
          rw [List.takeWhile_cons, hafter c rfl]
          rfl
    rw [hstop, List.append_nil]
  · intro c hc
    rcases mem_unpadded hc with ⟨n, hn, hc⟩
    rw [← hc]
    exact hdigit ⟨n, hn⟩

/-!
## The id in the message
-/

theorem firstRun_append {digits : List Char} (h : forall c, c ∈ digits -> c.isDigit = true)
    (run rest : List Char) :
    firstRun run (digits ++ rest) = firstRun (run ++ digits) rest := by
  induction digits generalizing run with
  | nil => rw [List.nil_append, List.append_nil]
  | cons c digits ih =>
      rw [List.cons_append, firstRun, if_pos (h c List.mem_cons_self),
        ih fun c' hc' => h c' (List.mem_cons_of_mem _ hc'), List.append_assoc,
        List.singleton_append]

theorem firstRun_ends {run : List Char} (hrun : 5 ≤ run.length) {tail : List UInt8}
    (htail : forall b, b ∈ tail.head? -> ¬ (48 ≤ b ∧ b ≤ 57)) :
    firstRun run (fromUtf8Lossy tail) = some run := by
  cases tail with
  | nil => exact if_pos hrun
  | cons b rest =>
      have hdigit := isDigit_charAt (htail b rfl) rest
      show firstRun run ((charAt b rest).1 :: charsBehind (charAt b rest).2 rest) = _
      rw [firstRun, hdigit, if_neg Bool.false_ne_true, if_pos hrun]

/-- Nothing in front of the id is a digit. -/
theorem firstRun_message (id : TrackId) {tail : List UInt8}
    (htail : forall b, b ∈ tail.head? -> ¬ (48 ≤ b ∧ b ≤ 57)) :
    firstRun [] (fromUtf8Lossy (message id tail)) = some id.digits := by
  have hlength : forall n : Fin 21, (Char.ofNat n.val).toNat = n.val ∧
      (Char.ofNat n.val).isDigit = false := by decide
  have hlen := hlength ⟨id.digits.length, Nat.lt_succ_of_le id.twenty⟩
  have hmessage : message id tail =
      asciiBytes ('\x12' :: Char.ofNat id.digits.length :: id.digits) ++ tail := by
    rw [asciiBytes, List.map_cons, List.map_cons, hlen.left]
    rfl
  have hascii : forall c, c ∈ '\x12' :: Char.ofNat id.digits.length :: id.digits ->
      c.toNat < 128 := by
    intro c hc
    rcases List.mem_cons.mp hc with heq | hc
    · rw [heq]
      decide
    · rcases List.mem_cons.mp hc with heq | hc
      · have htwenty := id.twenty
        rw [heq, hlen.left]
        omega
      · have hdigit := (Char.isDigit_iff_toNat.mp (id.decimal c hc)).right
        have hnine : '9'.toNat = 57 := rfl
        omega
  have hfirst : '\x12'.isDigit = false := by decide
  rw [hmessage, fromUtf8Lossy_ascii hascii, List.cons_append, List.cons_append, firstRun,
    hfirst, if_neg Bool.false_ne_true, if_neg (by decide), firstRun, hlen.right,
    if_neg Bool.false_ne_true, if_neg (by decide), firstRun_append id.decimal,
    List.nil_append]
  exact firstRun_ends id.five htail

/-- The id is read back from the URL of its manifest. -/
theorem manifestTrackId_manifestUrl {decode : List Char -> Option (List UInt8)}
    (hdecode : forall bytes, decode (padded standard bytes) = some bytes)
    (id : TrackId) {tail : List UInt8}
    (htail : forall b, b ∈ tail.head? -> ¬ (48 ≤ b ∧ b ≤ 57))
    {before after : List Char} (hafter : forall c, c ∈ after.head? -> ends c = true)
    (hfirst : forall p s, manifestUrl before id tail after = p ++ (marker ++ s) ->
      before.length ≤ p.length) :
    manifestTrackId decode (manifestUrl before id tail after) = some id.digits ∧
      forall requested,
        manifestMatchesTrack decode (manifestUrl before id tail after) requested = true <->
          AccountState.trim requested = id.digits := by
  have hid : manifestTrackId decode (manifestUrl before id tail after) =
      some id.digits := by
    have hmarker : marker ≠ [] := by decide
    have hrest := Text.afterFirst_append hmarker hfirst
    rw [manifestTrackId, manifestUrl, hrest]
    dsimp only
    rw [takeWhile_unpadded _ hafter, standard_of_urlSafe, padRounds_unpadded, hdecode]
    exact firstRun_message id htail
  refine ⟨hid, fun requested => ?_⟩
  rw [manifestMatchesTrack, hid]
  dsimp only
  rw [beq_iff_eq]
  exact eq_comm

def observedId : TrackId :=
  ⟨"230909390".toList, List.all_eq_true.mp (by decide), by decide, by decide⟩

/-- An observed URL, with the decoder of the library. -/
theorem manifestTrackId_manifestUrl_observed :
    manifestUrl "https://im-cf.manifest.tidal.com/1".toList observedId
        [24, 2, 40, 1, 88, 245, 154, 231, 99] ".mpd".toList =
      "https://im-cf.manifest.tidal.com/1/manifests/EgkyMzA5MDkzOTAYAigBWPWa52M.mpd".toList ∧
    manifestTrackId decodeStandard
        (manifestUrl "https://im-cf.manifest.tidal.com/1".toList observedId
          [24, 2, 40, 1, 88, 245, 154, 231, 99] ".mpd".toList) =
      some "230909390".toList := by
  have hfirst : forall p s, manifestUrl "https://im-cf.manifest.tidal.com/1".toList observedId
      [24, 2, 40, 1, 88, 245, 154, 231, 99] ".mpd".toList = p ++ (marker ++ s) ->
      "https://im-cf.manifest.tidal.com/1".toList.length ≤ p.length := by
    intro p s heq
    have hplaces : forall k : Fin 34, marker.isPrefixOf
        ((manifestUrl "https://im-cf.manifest.tidal.com/1".toList observedId
          [24, 2, 40, 1, 88, 245, 154, 231, 99] ".mpd".toList).drop k.val) = false := by
      decide
    by_contra hlt
    have hplace := hplaces ⟨p.length, Nat.lt_of_not_le hlt⟩
    dsimp only at hplace
    rw [heq, List.drop_left, Bool.eq_false_iff] at hplace
    exact hplace (List.isPrefixOf_iff_prefix.mpr (List.prefix_append _ _))
  have htail : forall b : UInt8, b ∈ [24, 2, 40, 1, 88, 245, 154, 231, 99].head? ->
      ¬ (48 ≤ b ∧ b ≤ 57) := by
    intro b hb
    cases hb
    decide
  have hafter : forall c, c ∈ ".mpd".toList.head? -> ends c = true := by
    intro c hc
    cases hc
    rfl
  have hread := manifestTrackId_manifestUrl decodeStandard_padded observedId htail hafter hfirst
  exact ⟨by decide, hread.left⟩

end ManifestId

end HifiApi
