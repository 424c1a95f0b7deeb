import HifiApi.Accounts.State
import HifiApi.Base.Utf8Lossy
import HifiApi.Lib.PercentEncoding
import HifiApi.Lib.UrlPaths

/-!
# Redis commands in the path of a URL

The REST backend sends a command as the segments of a path, each of them
percent-encoded.  The client removes dot segments from the path before it sends the
request, and the encoding keeps dots as they are: an argument that is one dot or two
is lost, and with two dots what is in front of it.  All other arguments arrive.
-/

namespace HifiApi

namespace UpstashStore

open UrlPath

/-!
## Requests
-/

/-- The unreserved characters of RFC 3986. -/
def unreserved (b : UInt8) : Bool :=
  (65 ≤ b && b ≤ 90) || (97 ≤ b && b ≤ 122) || (48 ≤ b && b ≤ 57) ||
    b == 45 || b == 95 || b == 46 || b == 126

def enc (seg : String) : List Char := PercentEncoding.encode unreserved (utf8Bytes seg)

example : enc "a/b c+d=e" = "a%2Fb%20c%2Bd%3De".toList := by decide

def singleUrl (base : List Char) (parts : List String) : List Char :=
  parts.foldl (fun u p => u ++ '/' :: enc p) base

def isHttp (base : List Char) : Bool :=
  "https://".toList.isPrefixOf base || "http://".toList.isPrefixOf base

/-- The base that {lit}`from_env` takes from the variables of the REST backend. -/
def restBase (url token : List Char) : Option (List Char) :=
  let base := ((AccountState.trim url).reverse.dropWhile (· == '/')).reverse
  if base = [] ∨ AccountState.trim token = [] then none
  else if isHttp base then some base
  else none

/-- The URL of a command as the client requests it. -/
def request (base : List Char) (parts : List String) : Url :=
  let url := Url.parse (singleUrl base parts)
  { url with path := removeDotSegments url.path }

/-!
## What arrives
-/

/-- The command that a request has in its path behind the base. -/
def readCommand (base : List Char) (url : Url) : Option (List (List UInt8)) :=
  let home := Url.parse base
  if url.site = home.site ∧ url.tail = [] then
    (below home.path url.path).map fun segs => segs.map PercentEncoding.decode
  else none

/-- The arguments arrive as they are. -/
def Survives (base : List Char) (parts : List String) : Prop :=
  readCommand base (request base parts) = some (parts.map utf8Bytes)

instance (base : List Char) (parts : List String) : Decidable (Survives base parts) :=
  inferInstanceAs (Decidable (_ = _))

def IsDots (part : String) : Prop := part = "." ∨ part = ".."

instance (part : String) : Decidable (IsDots part) := inferInstanceAs (Decidable (_ ∨ _))

/-- The base has neither query nor fragment, no argument is a dot segment, and a
command of no arguments does not end in one of the base. -/
structure Addressable (base : List Char) (parts : List String) : Prop where
  bare : '?' ∉ base ∧ '#' ∉ base
  plain : forall part, part ∈ parts -> ¬ IsDots part
  closed : parts = [] -> ¬ EndsInDot (segments (Url.parse base).path)

/-!
## Encoded arguments
-/

theorem toNat_of_unreserved {b : UInt8} (h : unreserved b = true) :
    b.toNat < 128 ∧ b.toNat ≠ 35 ∧ b.toNat ≠ 37 ∧ b.toNat ≠ 47 ∧ b.toNat ≠ 63 := by
  simp only [unreserved, Bool.or_eq_true, Bool.and_eq_true, decide_eq_true_eq,
    UInt8.le_iff_toNat_le, beq_iff_eq, ← UInt8.toNat_inj, UInt8.reduceToNat] at h
  omega

theorem keepable_unreserved : PercentEncoding.Keepable unreserved := by
  intro b hb
  rcases toNat_of_unreserved hb with ⟨hlt, _, hpercent, _, _⟩
  exact ⟨hlt, hpercent⟩

theorem decode_enc (part : String) : PercentEncoding.decode (enc part) = utf8Bytes part :=
  PercentEncoding.decode_encode keepable_unreserved _

theorem enc_injective : Function.Injective enc := by
  intro p q h
  have hbytes := congrArg PercentEncoding.decode h
  rw [decode_enc, decode_enc] at hbytes
  exact utf8Bytes_injective hbytes

/-- An encoded argument neither ends its segment nor the path. -/
theorem mem_enc {part : String} {c : Char} (h : c ∈ enc part) :
    c ≠ '/' ∧ endsPath c = false := by
  have hdigit : forall n, n < 16 -> FormUrlencoded.hexDigit n ≠ '/' ∧
      endsPath (FormUrlencoded.hexDigit n) = false := by
    decide
  rcases PercentEncoding.mem_encode h with ⟨b, hb, hc⟩ | hsign | ⟨n, hn, hc⟩
  · rcases toNat_of_unreserved hb with ⟨_, hhash, _, hslash, hquery⟩
    rw [hc]
    refine ⟨FormUrlencoded.ofNat_ne b.toNat_lt hslash, ?_⟩
    unfold endsPath
    rw [Bool.or_eq_false_iff, beq_eq_false_iff_ne, beq_eq_false_iff_ne]
    exact ⟨FormUrlencoded.ofNat_ne b.toNat_lt hquery,
      FormUrlencoded.ofNat_ne b.toNat_lt hhash⟩
  · rw [hsign]
    decide
  · rw [hc]
    exact hdigit n hn

theorem isDot_enc_iff (part : String) : IsDot (enc part) <-> IsDots part := by
  have hone : enc "." = ['.'] := by decide
  have htwo : enc ".." = ['.', '.'] := by decide
  unfold IsDot IsDots
  rw [← htwo, ← hone, enc_injective.eq_iff, enc_injective.eq_iff]

theorem free_map_enc (parts : List String) : Free (parts.map enc) := by
  intro s hs hslash
  rcases List.mem_map.mp hs with ⟨part, _, hpart⟩
  rw [← hpart] at hslash
  exact (mem_enc hslash).left rfl

theorem endsPath_of_mem_join {parts : List String} {c : Char}
    (h : c ∈ join (parts.map enc)) : endsPath c = false := by
  rcases List.mem_flatMap.mp h with ⟨s, hs, hc⟩
  rcases List.mem_map.mp hs with ⟨part, _, hpart⟩
  rcases List.mem_cons.mp hc with hslash | hin
  · rw [hslash]
    decide
  · rw [← hpart] at hin
    exact (mem_enc hin).right

theorem singleUrl_eq (base : List Char) (parts : List String) :
    singleUrl base parts = base ++ join (parts.map enc) := by
  induction parts generalizing base with
  | nil => exact (List.append_nil base).symm
  | cons part rest ih =>
      rw [List.map_cons, join_cons, singleUrl, List.foldl_cons]
      show singleUrl (base ++ '/' :: enc part) rest = _
      rw [ih, List.append_assoc, List.cons_append]

/-!
## Bases
-/

section Base

variable {base : List Char}

theorem scheme_of_isHttp (h : isHttp base = true) : exists scheme rest,
    base = scheme ++ ':' :: '/' :: '/' :: rest ∧
      forall c, c ∈ scheme -> c ≠ ':' ∧ endsPath c = false := by
  have hall : forall scheme : List Char,
      (scheme.all fun c => decide (c ≠ ':' ∧ endsPath c = false)) = true ->
        forall c, c ∈ scheme -> c ≠ ':' ∧ endsPath c = false :=
    fun scheme hscheme c hc => of_decide_eq_true (List.all_eq_true.mp hscheme c hc)
  rcases Bool.or_eq_true_iff.mp h with hsecure | hplain
  · rcases List.isPrefixOf_iff_prefix.mp hsecure with ⟨rest, hrest⟩
    exact ⟨"https".toList, rest, hrest.symm, hall _ (by decide)⟩
  · rcases List.isPrefixOf_iff_prefix.mp hplain with ⟨rest, hrest⟩
    exact ⟨"http".toList, rest, hrest.symm, hall _ (by decide)⟩

theorem isHttp_of_restBase {url token : List Char} (h : restBase url token = some base) :
    isHttp base = true := by
  unfold restBase at h
  dsimp only at h
  split at h
  · cases h
  · split at h
    · rename_i hhttp
      cases h
      exact hhttp
    · cases h

theorem tail_eq_nil_iff_bare (h : isHttp base = true) :
    (Url.parse base).tail = [] <-> '?' ∉ base ∧ '#' ∉ base := by
  rcases scheme_of_isHttp h with ⟨scheme, rest, hbase, hscheme⟩
  have hcolon : ':' ∉ scheme := fun hin => (hscheme ':' hin).left rfl
  rw [hbase, tail_eq_nil_iff hcolon]
  constructor
  · intro hrest
    have hall : forall c, c ∈ scheme ++ ':' :: '/' :: '/' :: rest -> endsPath c = false := by
      intro c hc
      simp only [List.mem_append, List.mem_cons] at hc
      rcases hc with hin | hcolon | hslash | hslash | hin
      · exact (hscheme c hin).right
      · rw [hcolon]
        rfl
      · rw [hslash]
        rfl
      · rw [hslash]
        rfl
      · exact hrest c hin
    exact ⟨fun hin => absurd (hall _ hin) (by decide),
      fun hin => absurd (hall _ hin) (by decide)⟩
  · rintro ⟨hquery, hfragment⟩ c hc
    have hin : c ∈ scheme ++ ':' :: '/' :: '/' :: rest := by
      simp only [List.mem_append, List.mem_cons]
      exact Or.inr (Or.inr (Or.inr (Or.inr hc)))
    rw [endsPath, Bool.or_eq_false_iff, beq_eq_false_iff_ne, beq_eq_false_iff_ne]
    exact ⟨fun heq => hquery (heq ▸ hin), fun heq => hfragment (heq ▸ hin)⟩

/-- A request has its arguments in the path, unless the base has more than a path. -/
theorem request_spec (h : isHttp base = true) (parts : List String) :
    ((Url.parse base).tail = [] -> request base parts =
      ⟨(Url.parse base).site,
        removeDotSegments ((Url.parse base).path ++ join (parts.map enc)), []⟩) ∧
      ((Url.parse base).tail ≠ [] -> (request base parts).tail ≠ []) := by
  rcases scheme_of_isHttp h with ⟨scheme, rest, hbase, hscheme⟩
  have hcolon : ':' ∉ scheme := fun hin => (hscheme ':' hin).left rfl
  have hparse := parse_append rest hcolon (head?_join (parts.map enc))
    fun c => endsPath_of_mem_join
  rw [← hbase] at hparse
  unfold request
  rw [singleUrl_eq]
  dsimp only at hparse ⊢
  rcases hparse with ⟨hsite, hpath, htail⟩
  refine ⟨fun hbare => ?_, htail⟩
  rw [hsite, (hpath hbare).left, (hpath hbare).right]

theorem readCommand_request (h : isHttp base = true) (parts : List String) :
    readCommand base (request base parts) =
      if (Url.parse base).tail = [] then
        (below (Url.parse base).path (request base parts).path).map fun segs =>
          segs.map PercentEncoding.decode
      else none := by
  rcases request_spec h parts with ⟨hbare, htail⟩
  unfold readCommand
  dsimp only
  split
  · rename_i hread
    rw [if_pos]
    by_contra hnot
    exact htail hnot hread.right
  · rename_i hread
    rw [if_neg]
    intro hnone
    rw [hbare hnone] at hread
    exact hread ⟨rfl, rfl⟩

end Base

/-!
## Arguments that arrive
-/

section Arguments

variable {base : List Char} {parts other : List String}

theorem exists_isDot_enc (h : exists part, part ∈ parts ∧ IsDots part) :
    exists s, s ∈ parts.map enc ∧ IsDot s := by
  rcases h with ⟨part, hpart, hdots⟩
  exact ⟨enc part, List.mem_map_of_mem hpart, (isDot_enc_iff part).mpr hdots⟩

theorem survives_iff_below (h : isHttp base = true) :
    Survives base parts <-> (Url.parse base).tail = [] ∧ exists found,
      below (join (segments (Url.parse base).path))
          (removeDotSegments (join (segments (Url.parse base).path) ++
            join (parts.map enc))) = some found ∧
        found.map PercentEncoding.decode = parts.map utf8Bytes := by
  rw [Survives, readCommand_request h, join_segments (head?_path base)]
  by_cases hbare : (Url.parse base).tail = []
  · rw [if_pos hbare, Option.map_eq_some_iff, (request_spec h parts).left hbare]
    exact (and_iff_right hbare).symm
  · rw [if_neg hbare]
    exact iff_of_false (fun hnone => by cases hnone) fun hand => hbare hand.left

/-- An argument that is a dot segment is not read back. -/
theorem plain_of_survives (h : isHttp base = true) (hsurvives : Survives base parts) :
    forall part, part ∈ parts -> ¬ IsDots part := by
  intro part hpart hdots
  rcases ((survives_iff_below h).mp hsurvives).right with ⟨found, hfound, hread⟩
  have hlength := congrArg List.length hread
  rw [List.length_map, List.length_map] at hlength
  rcases below_of_isDot (free_segments _) (free_map_enc parts)
    (exists_isDot_enc ⟨part, hpart, hdots⟩) hfound with hlt | ⟨hends, hempty⟩
  · rw [List.length_map] at hlt
    omega
  · -- the last argument is dots, and an empty one is read in its place
    rcases exists_isDot_of_endsInDot hends with ⟨s, _, hdot, hlast⟩
    have hlasts := congrArg List.getLast? hread
    rw [List.getLast?_map, List.getLast?_map, hempty] at hlasts
    rw [List.getLast?_map] at hlast
    rcases Option.map_eq_some_iff.mp hlast with ⟨last, hlast, hs⟩
    rw [hlast] at hlasts
    have hnone : utf8Bytes last = [] := (Option.some.inj hlasts).symm
    rw [← hs, isDot_enc_iff] at hdot
    rcases hdot with hone | htwo
    · rw [hone] at hnone
      exact absurd hnone (by decide)
    · rw [htwo] at hnone
      exact absurd hnone (by decide)

theorem addressable_of_survives (h : isHttp base = true) (hsurvives : Survives base parts) :
    Addressable base parts := by
  rcases (survives_iff_below h).mp hsurvives with ⟨hbare, found, hfound, hread⟩
  refine ⟨(tail_eq_nil_iff_bare h).mp hbare, plain_of_survives h hsurvives, ?_⟩
  intro hnil
  rw [hnil] at hread hfound
  rw [List.map_nil, List.map_eq_nil_iff] at hread
  rw [hread, List.map_nil, append_join_nil] at hfound
  exact (below_nil_iff (free_segments _)).mp hfound

theorem survives_of_addressable (h : isHttp base = true)
    (haddressable : Addressable base parts) : Survives base parts := by
  rw [survives_iff_below h]
  refine ⟨(tail_eq_nil_iff_bare h).mpr haddressable.bare, parts.map enc, ?_, ?_⟩
  · by_cases hnil : parts = []
    · have hends := haddressable.closed hnil
      rw [hnil, List.map_nil, append_join_nil]
      exact (below_nil_iff (free_segments _)).mpr hends
    · apply below_of_plain (free_segments _) (free_map_enc parts)
      · exact fun hmap => hnil (List.map_eq_nil_iff.mp hmap)
      · intro s hs hdot
        rcases List.mem_map.mp hs with ⟨part, hpart, heq⟩
        rw [← heq, isDot_enc_iff] at hdot
        exact haddressable.plain part hpart hdot
  · rw [List.map_map]
    exact List.map_congr_left fun part _ => decode_enc part

/-- A command has the request of the same one with a dot in front. -/
theorem request_cons_dot (h : isHttp base = true) (hbare : '?' ∉ base ∧ '#' ∉ base)
    (hne : parts ≠ []) : request base ("." :: parts) = request base parts := by
  have htail := (tail_eq_nil_iff_bare h).mpr hbare
  have hone : enc "." = ['.'] := by decide
  have hmap : parts.map enc ≠ [] := fun hmap => hne (List.map_eq_nil_iff.mp hmap)
  have hfree := free_map_enc parts
  have hbase := free_segments (Url.parse base).path
  have hdot : Free (['.'] :: parts.map enc) := free_cons.mpr ⟨by decide, hfree⟩
  rw [(request_spec h _).left htail, (request_spec h _).left htail, List.map_cons, hone,
    ← join_segments (head?_path base), ← join_append, ← join_append,
    removeDotSegments_join (free_append.mpr ⟨hbase, hdot⟩),
    removeDotSegments_join (free_append.mpr ⟨hbase, hfree⟩),
    resolve_append (List.cons_ne_nil _ _), resolve_append hmap,
    resolve_cons fun hand => hmap hand.right]
  rfl

end Arguments

/-- The arguments arrive exactly if the base is nothing but a path, and none of them
is a dot segment; commands whose arguments arrive have different requests. -/
theorem survives_iff {base : List Char} (hbase : isHttp base = true) :
    (forall parts, Survives base parts <-> Addressable base parts) ∧
      forall parts other, Addressable base parts -> Addressable base other ->
        request base parts = request base other -> parts = other := by
  refine ⟨fun parts => ⟨addressable_of_survives hbase, survives_of_addressable hbase⟩, ?_⟩
  intro parts other hparts hother hsame
  have hread : Survives base parts := survives_of_addressable hbase hparts
  have hread' : Survives base other := survives_of_addressable hbase hother
  rw [Survives] at hread hread'
  rw [hsame, hread'] at hread
  exact (List.map_injective_iff.mpr utf8Bytes_injective (Option.some.inj hread)).symm

theorem survives_iff_upstash :
    Survives "https://db.upstash.io".toList ["SET", "hifi:settings:note", "a/b c.."] <->
      Addressable "https://db.upstash.io".toList
        ["SET", "hifi:settings:note", "a/b c.."] := by
  have hbase : isHttp "https://db.upstash.io".toList = true := by decide
  exact (survives_iff hbase).left _

/-- A member that is two dots is lost together with the key of its set, and the
request is that of another command. -/
theorem not_survives_member :
    ¬ Survives "https://db.upstash.io".toList ["SREM", "hifi:apikeys", ".."] ∧
      request "https://db.upstash.io".toList ["SREM", "hifi:apikeys", ".."] =
        request "https://db.upstash.io".toList ["SREM", ""] := by
  decide

end UpstashStore

end HifiApi
