import HifiApi.Base.DebugText
import HifiApi.Base.Numbers
import HifiApi.Settings.Loaders

/-!
# The keys of cached answers

An answer to a playback request is cached under a key in which the inputs of the
request stand between bars.  The keys of tracks and of DASH streams determine their
requests.  In the key of a manifest most inputs stand as they are, and where one of
them holds a bar, there is another request with the same key.
-/

namespace HifiApi

structure TrackManifestsParams where
  adaptive : String
  manifestType : String
  uriScheme : String
  usage : String
  countryCode : Option String
  atmos : Option String
  deriving DecidableEq

inductive PlaybackOp where
  | track (id : I64) (quality : String) (immersive : Bool)
  | manifest (trackId : String) (params : TrackManifestsParams)
      (rawQuery : Option String) (host : String)
  | dash (trackId : String) (atmos : Option String)
  | video (id : I64) (quality mode presentation : String)
  | widevine (method : String) (contentType : Option String) (body : List UInt8)
  deriving DecidableEq

/-- The preferences of the server that shape an answer. -/
structure Preferences where
  defaultFormat : String
  v1Endpoint : V1PlaybackEndpoint
  offered : defaultFormat ∈ ["prefer", "high", "off"]

def AppSettings.preferences (s : AppSettings) (h : s.Reachable) : Preferences where
  defaultFormat := s.atmosMode
  v1Endpoint := s.v1PlaybackEndpoint
  offered := h.normal (.atmosMode s.atmosMode)
    (List.mem_cons_of_mem _ List.mem_cons_self)

namespace PlaybackOp

/-!
## What the routes build
-/

inductive TrackFormat where
  | high
  | v2 (format : String)
  deriving DecidableEq

def trackFormat (quality : String) : Option TrackFormat :=
  let upper := String.ofList ((AccountState.trim quality.toList).map Char.toUpper)
  if upper = "HIGH" then some .high
  else if upper = "LOW" ∨ upper = "HEAACV1" then some (.v2 "HEAACV1")
  else if upper = "AACLC" then some (.v2 "AACLC")
  else if upper = "LOSSLESS" ∨ upper = "FLAC" then some (.v2 "FLAC")
  else if upper = "HI_RES_LOSSLESS" ∨ upper = "FLAC_HIRES" then some (.v2 "FLAC_HIRES")
  else if upper = "DOLBY_ATMOS" ∨ upper = "ATMOS" ∨ upper = "EAC3_JOC" then
    some (.v2 "EAC3_JOC")
  else none

/-- {lit}`default_adaptive` and the other defaults. -/
def defaultParams : TrackManifestsParams where
  adaptive := "true"
  manifestType := "MPEG_DASH"
  uriScheme := "HTTPS"
  usage := "PLAYBACK"
  countryCode := none
  atmos := none

/-- The operation of {lit}`dispatch_track`, if the quality is supported. -/
def dispatchTrack (id : I64) (quality : String) (immersive : Bool)
    (host : Option String) : Option PlaybackOp :=
  (trackFormat quality).map fun format =>
    match format with
    | .high => .track id "HIGH" immersive
    | .v2 format =>
        .manifest (toString id.val) defaultParams (some s!"formats={format}")
          (host.getD "localhost")

/-- An operation that a route builds; a host is the one of the headers. -/
inductive Built : PlaybackOp -> Prop where
  | track {id : I64} {quality : String} {immersive : Bool} {host : Option String}
      {op : PlaybackOp} (h : dispatchTrack id quality immersive host = some op) : Built op
  | manifests (trackId : String) (params : TrackManifestsParams)
      (query host : Option String) :
      Built (.manifest trackId params query (host.getD "localhost"))
  | dash (trackId : String) (atmos : Option String) : Built (.dash trackId atmos)
  | video (id : I64) (quality mode presentation : String) :
      Built (.video id quality mode presentation)
  | widevine (method : String) (contentType : Option String) (body : List UInt8) :
      Built (.widevine method (some (contentType.getD "application/octet-stream")) body)

/-!
## Keys
-/

open DebugText in
def cacheKey (unprintable : Char -> Bool) (op : PlaybackOp)
    (defaultFormat v1Endpoint : String) : Option String :=
  match op with
  | .track id quality immersive =>
      some s!"track|{id.val}|{quality}|{immersive}|{defaultFormat}|{v1Endpoint}"
  | .manifest trackId params rawQuery host =>
      let query := rawQuery.getD ""
      let countryCode := debugOption unprintable params.countryCode
      let atmos := debugOption unprintable params.atmos
      some (s!"manifest|{trackId}|{host}|{query}|{params.adaptive}|" ++
        s!"{params.manifestType}|{params.uriScheme}|{params.usage}|" ++
        s!"{countryCode}|{atmos}|{defaultFormat}")
  | .dash trackId atmos =>
      let atmos := debugOption unprintable atmos
      some s!"dash|{trackId}|{atmos}|{defaultFormat}|{v1Endpoint}"
  | .video _ _ _ _ => none
  | .widevine _ _ _ => none

def key (unprintable : Char -> Bool) (op : PlaybackOp) (p : Preferences) :
    Option String :=
  op.cacheKey unprintable p.defaultFormat p.v1Endpoint.asStr

/-- The endpoint shapes the answers for tracks and DASH streams. -/
def usesEndpoint : PlaybackOp -> Bool
  | .track _ _ _ => true
  | .dash _ _ => true
  | _ => false

/-- One answer serves both requests. -/
structure SameAnswer (a b : PlaybackOp) (p q : Preferences) : Prop where
  op : a = b
  format : p.defaultFormat = q.defaultFormat
  endpoint : a.usesEndpoint = true -> p.v1Endpoint = q.v1Endpoint

/-- No other request is answered from the cache with the answer to this one. -/
def Identified (unprintable : Char -> Bool) (a : PlaybackOp) (p : Preferences) : Prop :=
  forall b q, Built b -> a.key unprintable p ≠ none ->
    a.key unprintable p = b.key unprintable q -> SameAnswer a b p q

/-- The inputs of a manifest that stand in its key as they are. -/
def rawFields (trackId : String) (params : TrackManifestsParams)
    (rawQuery : Option String) (host : String) : List (List Char) :=
  [trackId.toList, host.toList, (rawQuery.getD "").toList, params.adaptive.toList,
    params.manifestType.toList, params.uriScheme.toList, params.usage.toList]

/-- A request for a manifest has a query that is not empty, and no bars. -/
def FreeOfBars : PlaybackOp -> Prop
  | .manifest trackId params rawQuery host =>
      (exists query, rawQuery = some query ∧ query ≠ "") ∧
        forall field, field ∈ rawFields trackId params rawQuery host -> '|' ∉ field
  | _ => True

/-!
## The characters of a key
-/

section Characters

variable (unprintable : Char -> Bool) (p : Preferences) {k : String}

theorem toList_key_track {id : I64} {quality : String} {immersive : Bool}
    (h : (track id quality immersive).key unprintable p = some k) :
    k.toList = List.intercalate ['|'] ["track".toList, (Int.repr id.val).toList,
      quality.toList, (toString immersive).toList, p.defaultFormat.toList,
      p.v1Endpoint.asStr.toList] := by
  cases h
  simp [List.intercalate_cons_cons, toString]

theorem toList_key_manifest {trackId host : String} {params : TrackManifestsParams}
    {rawQuery : Option String}
    (h : (manifest trackId params rawQuery host).key unprintable p = some k) :
    k.toList = "manifest|".toList ++
      (List.intercalate ['|'] (rawFields trackId params rawQuery host) ++
        '|' :: ((DebugText.debugOption unprintable params.countryCode).toList ++
          '|' :: ((DebugText.debugOption unprintable params.atmos).toList ++
            '|' :: p.defaultFormat.toList))) := by
  cases h
  simp [rawFields, List.intercalate_cons_cons, toString]

theorem toList_key_dash {trackId : String} {atmos : Option String}
    (h : (dash trackId atmos).key unprintable p = some k) :
    k.toList = "dash|".toList ++ (trackId.toList ++
      '|' :: ((DebugText.debugOption unprintable atmos).toList ++
        '|' :: (p.defaultFormat.toList ++ '|' :: p.v1Endpoint.asStr.toList))) := by
  cases h
  simp [toString]

theorem bar_not_mem_repr (n : Int) : '|' ∉ (Int.repr n).toList := by
  intro hin
  rcases Decimal.mem_repr hin with hdigit | hsign
  · exact absurd hdigit (by decide)
  · exact absurd hsign (by decide)

theorem bar_not_mem_format : '|' ∉ p.defaultFormat.toList := by
  have hall : forall mode, mode ∈ ["prefer", "high", "off"] -> '|' ∉ mode.toList := by decide
  exact hall _ p.offered

theorem bar_not_mem_asStr (e : V1PlaybackEndpoint) : '|' ∉ e.asStr.toList := by
  cases e <;> decide

theorem asStr_inj {e f : V1PlaybackEndpoint} (h : e.asStr.toList = f.asStr.toList) :
    e = f := by
  have hparse := congrArg V1PlaybackEndpoint.parse (String.toList_inj.mp h)
  rw [V1PlaybackEndpoint.parse_asStr, V1PlaybackEndpoint.parse_asStr] at hparse
  exact Except.ok.inj hparse

end Characters

/-!
## Requests and their keys
-/

section Requests

variable {unprintable : Char -> Bool} {p q : Preferences}

theorem dispatchTrack_eq_some {id : I64} {quality : String} {immersive : Bool}
    {host : Option String} {op : PlaybackOp}
    (h : dispatchTrack id quality immersive host = some op) :
    op = .track id "HIGH" immersive ∨
      exists trackId params query, op = .manifest trackId params query
        (host.getD "localhost") := by
  rcases Option.map_eq_some_iff.mp h with ⟨format, -, hop⟩
  cases format with
  | high => exact Or.inl hop.symm
  | v2 format => exact Or.inr ⟨_, _, _, hop.symm⟩

theorem Built.track_quality {id : I64} {quality : String} {immersive : Bool}
    (h : Built (.track id quality immersive)) : quality = "HIGH" := by
  cases h with
  | track h =>
      rcases dispatchTrack_eq_some h with hop | ⟨_, _, _, hop⟩
      · cases hop
        rfl
      · cases hop

theorem Built.manifest (trackId : String) (params : TrackManifestsParams)
    (query : Option String) (host : String) : Built (.manifest trackId params query host) :=
  .manifests trackId params query (some host)

/-- What a key is for stands at its beginning. -/
def initial : PlaybackOp -> Char
  | .track _ _ _ => 't'
  | .manifest _ _ _ _ => 'm'
  | .dash _ _ => 'd'
  | _ => '-'

theorem head_key {a : PlaybackOp} {k : String} (h : a.key unprintable p = some k) :
    k.toList.head? = some a.initial := by
  cases a with
  | track id quality immersive =>
      rw [toList_key_track unprintable p h, List.intercalate_cons_cons, List.append_assoc]
      have htrack : "track".toList = 't' :: ['r', 'a', 'c', 'k'] := by decide
      rw [htrack]
      rfl
  | manifest trackId params rawQuery host =>
      have hmanifest : "manifest|".toList =
        'm' :: ['a', 'n', 'i', 'f', 'e', 's', 't', '|'] := by decide
      rw [toList_key_manifest unprintable p h, hmanifest]
      rfl
  | dash trackId atmos =>
      have hdash : "dash|".toList = 'd' :: ['a', 's', 'h', '|'] := by decide
      rw [toList_key_dash unprintable p h, hdash]
      rfl
  | video id quality mode presentation => cases h
  | widevine method contentType body => cases h

theorem key_track_inj {id id' : I64} {quality quality' : String} {immersive immersive' : Bool}
    {k : String} (ha : (track id quality immersive).key unprintable p = some k)
    (hb : (track id' quality' immersive').key unprintable q = some k)
    (hquality : '|' ∉ quality.toList) :
    id = id' ∧ quality = quality' ∧ immersive = immersive' ∧
      p.defaultFormat = q.defaultFormat ∧ p.v1Endpoint = q.v1Endpoint := by
  have hparts := (toList_key_track unprintable p ha).symm.trans
    (toList_key_track unprintable q hb)
  have hfree : forall part, part ∈ ["track".toList, (Int.repr id.val).toList,
      quality.toList, (toString immersive).toList, p.defaultFormat.toList,
      p.v1Endpoint.asStr.toList] -> '|' ∉ part := by
    intro part hpart
    simp only [List.mem_cons, List.not_mem_nil, or_false] at hpart
    rcases hpart with rfl | rfl | rfl | rfl | rfl | rfl
    · decide
    · exact bar_not_mem_repr _
    · exact hquality
    · cases immersive <;> decide
    · exact bar_not_mem_format p
    · exact bar_not_mem_asStr _
  have hequal := Separated.intercalate_inj (by rfl) hfree hparts
  simp only [List.cons.injEq, and_true, true_and, String.toList_inj] at hequal
  rcases hequal with ⟨hid, hquality, himmersive, hformat, hendpoint⟩
  have himm : immersive = immersive' := by
    cases immersive <;> cases immersive' <;> first | rfl | exact absurd himmersive (by decide)
  exact ⟨I64.val_injective (Decimal.int_repr_inj hid), hquality, himm, hformat,
    asStr_inj (congrArg String.toList hendpoint)⟩

theorem key_dash_inj {trackId trackId' : String} {atmos atmos' : Option String} {k : String}
    (ha : (dash trackId atmos).key unprintable p = some k)
    (hb : (dash trackId' atmos').key unprintable q = some k) :
    trackId = trackId' ∧ atmos = atmos' ∧ p.defaultFormat = q.defaultFormat ∧
      p.v1Endpoint = q.v1Endpoint := by
  have hchars := List.append_cancel_left ((toList_key_dash unprintable p ha).symm.trans
    (toList_key_dash unprintable q hb))
  simp only [Separated.append_cons_append_cons] at hchars
  rcases Separated.append_cons_inj_right (bar_not_mem_asStr _) (bar_not_mem_asStr _)
    hchars with ⟨hrest, hendpoint⟩
  rcases Separated.append_cons_inj_right (bar_not_mem_format p) (bar_not_mem_format q)
    hrest with ⟨hrest, hformat⟩
  rcases DebugText.append_debugOption_inj unprintable hrest with ⟨htrack, hatmos⟩
  exact ⟨String.toList_inj.mp htrack, hatmos, String.toList_inj.mp hformat,
    asStr_inj hendpoint⟩

theorem key_manifest_inj {trackId trackId' host host' : String}
    {params params' : TrackManifestsParams} {query query' : Option String} {k : String}
    (ha : (manifest trackId params query host).key unprintable p = some k)
    (hb : (manifest trackId' params' query' host').key unprintable q = some k) :
    List.intercalate ['|'] (rawFields trackId params query host) =
        List.intercalate ['|'] (rawFields trackId' params' query' host') ∧
      params.countryCode = params'.countryCode ∧ params.atmos = params'.atmos ∧
      p.defaultFormat = q.defaultFormat := by
  have hchars := List.append_cancel_left ((toList_key_manifest unprintable p ha).symm.trans
    (toList_key_manifest unprintable q hb))
  simp only [Separated.append_cons_append_cons] at hchars
  rcases Separated.append_cons_inj_right (bar_not_mem_format p) (bar_not_mem_format q)
    hchars with ⟨hrest, hformat⟩
  rcases DebugText.append_debugOption_inj unprintable hrest with ⟨hrest, hatmos⟩
  rcases DebugText.append_debugOption_inj unprintable hrest with ⟨hfields, hcountry⟩
  exact ⟨hfields, hcountry, hatmos, String.toList_inj.mp hformat⟩

/-- The raw fields of a manifest are any seven texts. -/
theorem exists_rawFields (params : TrackManifestsParams) {fields : List (List Char)}
    (h : fields.length = 7) :
    exists trackId params' query host,
      rawFields trackId params' (some query) host = fields ∧
        params'.countryCode = params.countryCode ∧ params'.atmos = params.atmos := by
  match fields, h with
  | [t, h, q, a, m, u, s], _ =>
      refine ⟨String.ofList t, { params with
        adaptive := String.ofList a
        manifestType := String.ofList m
        uriScheme := String.ofList u
        usage := String.ofList s }, String.ofList q, String.ofList h, ?_, rfl, rfl⟩
      simp only [rawFields, String.toList_ofList, Option.getD_some]

theorem rawFields_inj {trackId trackId' host host' : String}
    {params params' : TrackManifestsParams} {query query' : Option String}
    (h : rawFields trackId params query host = rawFields trackId' params' query' host')
    (hcountry : params.countryCode = params'.countryCode)
    (hatmos : params.atmos = params'.atmos) :
    trackId = trackId' ∧ host = host' ∧ query.getD "" = query'.getD "" ∧
      params = params' := by
  simp only [rawFields, List.cons.injEq, and_true, String.toList_inj] at h
  rcases h with ⟨htrack, hhost, hquery, hadaptive, htype, hscheme, husage⟩
  refine ⟨htrack, hhost, hquery, ?_⟩
  cases params
  cases params'
  simp only [TrackManifestsParams.mk.injEq]
  exact ⟨hadaptive, htype, hscheme, husage, hcountry, hatmos⟩

/-- Manifests with the same raw fields in one word have the same key. -/
theorem key_manifest_congr {trackId trackId' host host' : String}
    {params params' : TrackManifestsParams} {query query' : Option String}
    (h : List.intercalate ['|'] (rawFields trackId params query host) =
      List.intercalate ['|'] (rawFields trackId' params' query' host'))
    (hcountry : params.countryCode = params'.countryCode)
    (hatmos : params.atmos = params'.atmos) :
    (manifest trackId params query host).key unprintable p =
      (manifest trackId' params' query' host').key unprintable p := by
  rcases hk : (manifest trackId params query host).key unprintable p with _ | k
  · cases hk
  · rcases hk' : (manifest trackId' params' query' host').key unprintable p with _ | k'
    · cases hk'
    · have hchars := toList_key_manifest unprintable p hk
      rw [h, hcountry, hatmos, ← toList_key_manifest unprintable p hk'] at hchars
      rw [String.toList_inj.mp hchars]

/-- Two manifests with the same raw fields in one word are the same, if one of them
is identified. -/
theorem Identified.manifest_eq {trackId trackId' host host' : String}
    {params params' : TrackManifestsParams} {query query' : Option String}
    (hidentified : Identified unprintable (manifest trackId params query host) p)
    (h : List.intercalate ['|'] (rawFields trackId params query host) =
      List.intercalate ['|'] (rawFields trackId' params' query' host'))
    (hcountry : params.countryCode = params'.countryCode)
    (hatmos : params.atmos = params'.atmos) :
    manifest trackId params query host = manifest trackId' params' query' host' := by
  have hsome : (manifest trackId params query host).key unprintable p ≠ none := by
    intro hnone
    cases hnone
  exact (hidentified _ p (.manifest trackId' params' query' host') hsome
    (key_manifest_congr h hcountry hatmos)).op

/-- An identified manifest has a query, and not the empty one. -/
theorem Identified.query_ne {trackId host : String} {params : TrackManifestsParams}
    {query : Option String}
    (h : Identified unprintable (manifest trackId params query host) p) :
    exists text, query = some text ∧ text ≠ "" := by
  have hquery : forall other, query.getD "" = other.getD "" -> query = other := by
    intro other hother
    have hfields : rawFields trackId params query host =
        rawFields trackId params other host := by
      rw [rawFields, rawFields, hother]
    have hsame := h.manifest_eq (congrArg _ hfields) rfl rfl
    injection hsame
  cases query with
  | none => exact absurd (hquery (some "") rfl).symm (Option.some_ne_none _)
  | some text =>
      refine ⟨text, rfl, fun hempty => ?_⟩
      rw [hempty] at hquery
      exact absurd (hquery none rfl) (Option.some_ne_none _)

/-- An identified manifest has no bar: behind it the word could be split elsewhere. -/
theorem Identified.bar_not_mem {trackId host : String} {params : TrackManifestsParams}
    {query : Option String}
    (h : Identified unprintable (manifest trackId params query host) p) {field : List Char}
    (hfield : field ∈ rawFields trackId params query host) : '|' ∉ field := by
  intro hbar
  rcases Separated.exists_intercalate_eq (a := rawFields trackId params query host)
    (by simp [rawFields]) ⟨field, hfield, hbar⟩ with ⟨fields, hlength, hne, hword⟩
  rcases exists_rawFields params hlength with
    ⟨trackId', params', query', host', hfields, hcountry, hatmos⟩
  rw [← hfields] at hword hne
  have hsame := h.manifest_eq hword.symm hcountry.symm hatmos.symm
  injection hsame with htrack hparams hquery hhost
  exact hne (by rw [htrack, hparams, hquery, hhost])

theorem sameAnswer_of_manifest {trackId host : String} {params : TrackManifestsParams}
    {query : Option String} {b : PlaybackOp} {k : String}
    (hfree : FreeOfBars (manifest trackId params query host))
    (ha : (manifest trackId params query host).key unprintable p = some k)
    (hb : b.key unprintable q = some k)
    (hinitial : (manifest trackId params query host).initial = b.initial) :
    SameAnswer (manifest trackId params query host) b p q := by
  cases b with
  | manifest trackId' params' query' host' =>
      rcases hfree with ⟨⟨text, hquery, hempty⟩, hbars⟩
      rcases key_manifest_inj ha hb with ⟨hword, hcountry, hatmos, hformat⟩
      have hfields := Separated.intercalate_inj (by rfl) hbars hword
      rcases rawFields_inj hfields hcountry hatmos with
        ⟨htrack, hhost, hqueries, hparams⟩
      have hquery' : query' = some text := by
        cases query' with
        | none =>
            rw [hquery] at hqueries
            exact absurd hqueries hempty
        | some text' =>
            rw [hquery] at hqueries
            exact congrArg some hqueries.symm
      refine ⟨?_, hformat, fun h => absurd h Bool.false_ne_true⟩
      rw [htrack, hparams, hquery, hquery', hhost]
  | track | dash | video | widevine =>
      simp only [initial] at hinitial
      exact absurd hinitial (by decide)

end Requests

def offPreferences : Preferences := ⟨"off", .postpaywall, by decide⟩

def asciiUnprintable (c : Char) : Bool := c.toNat < 32 || 127 ≤ c.toNat

/-- {lit}`/trackManifests/{id}?formats=FLAC` -/
def flacManifest (trackId host : String) : PlaybackOp :=
  .manifest trackId defaultParams (some "formats=FLAC") host

end PlaybackOp

end HifiApi
