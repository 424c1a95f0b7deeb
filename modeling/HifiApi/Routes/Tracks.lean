import HifiApi.Access.Sessions
import HifiApi.Base.AppError
import HifiApi.Lib.FormUrlencoded
import HifiApi.Playback.CacheKey
import HifiApi.Routes.ManifestId

/-!
# Tracks, manifests and DASH streams

What the three playback routes ask Tidal for, and what they make of an answer: a preview
is refused, and so is the audio of another track, unless it is a re-release of the
requested one.
-/

namespace HifiApi

namespace Value

/-- A token of a JSON pointer as an index: digits without a leading zero. -/
def arrayIndex (token : String) : Option Nat :=
  match token.toList with
  | '+' :: _ => none
  | ['0'] => some 0
  | '0' :: _ => none
  | _ => ResponseCache.parseUsize token

def child (v : Value) (token : String) : Option Value :=
  match v with
  | .object _ => v.get token
  | .array items => (arrayIndex token).bind (items[·]?)
  | _ => none

/-- {lit}`pointer`, whose path is the list of its tokens. -/
def pointer (v : Value) : List String -> Option Value
  | [] => some v
  | token :: rest => (v.child token).bind fun w => w.pointer rest

/-- {lit}`get_mut` on an object, and a change of what it finds. -/
def modifyField (v : Value) (k : String) (f : Value -> Value) : Value :=
  match v with
  | .object fields =>
      .object (fields.map fun field => if field.1 = k then (k, f field.2) else field)
  | other => other

end Value

namespace Tracks

/-!
## Requests
-/

def defaultFormats : List String := ["HEAACV1", "AACLC", "FLAC", "FLAC_HIRES", "EAC3_JOC"]

/-- The formats that a query lists, over all its fields {lit}`formats`. -/
def listedFormats (rawQuery : String) : List String :=
  ((FormUrlencoded.parse rawQuery).filter fun pair => pair.1 = "formats").flatMap fun pair =>
    ((pair.2.toList.splitOn ',').map fun part => String.ofList (AccountState.trim part)).filter
      (· ≠ "")

/-- The wish for Atmos in a request; the words that count are ASCII. -/
def atmosMode (atmos : Option String) : Option String :=
  (atmos.map fun s => String.ofList ((AccountState.trim s.toList).map Char.toLower)).filter
    (· ≠ "")

def atmosFirst (formats : List String) : List String :=
  "EAC3_JOC" :: formats.filter (· ≠ "EAC3_JOC")

def resolveFormats (rawQuery atmos : Option String) (defaultPrefer : Bool) : List String :=
  let explicit := (rawQuery.map listedFormats).filter (· ≠ [])
  let mode := atmosMode atmos
  if mode = some "only" then ["EAC3_JOC"]
  else if mode ∈ [some "true", some "1", some "prefer"] then
    atmosFirst (explicit.getD defaultFormats)
  else
    match explicit with
    | some formats => formats
    | none =>
        if mode ∈ [some "false", some "0", some "off"] then
          defaultFormats.filter (· ≠ "EAC3_JOC")
        else if defaultPrefer then atmosFirst defaultFormats
        else defaultFormats

def useHighForDash (atmos : Option String) (highDefault : Bool) : Bool :=
  highDefault &&
    !(atmos.map fun s => String.ofList ((AccountState.trim s.toList).map Char.toLower)).any
      fun mode => decide (mode ∈ ["true", "1", "prefer", "only"])

def dashFormats (atmos : Option String) (defaultPrefer : Bool) : String :=
  let mode := atmosMode atmos
  if mode = some "only" then "EAC3_JOC"
  else if mode ∈ [some "true", some "1", some "prefer"] then "EAC3_JOC,FLAC_HIRES,FLAC,AACLC"
  else if mode ∈ [some "false", some "0", some "off"] then "FLAC_HIRES,FLAC,AACLC"
  else if defaultPrefer then "EAC3_JOC,FLAC_HIRES,FLAC,AACLC"
  else "FLAC_HIRES,FLAC,EAC3_JOC,AACLC"

/-- What an operation fetches, once the preference of the server is read. -/
inductive Fetch where
  | track (id : I64) (quality : String) (immersive : Bool)
  /-- {lit}`/dash` as a direct file of v1. -/
  | high (id : I64)
  | manifest (trackId : String) (params : TrackManifestsParams) (rawQuery : Option String)
      (host : String)
  | dash (trackId : String) (atmos : Option String)
  deriving DecidableEq

/-- The settings and the configuration that the fetches read. -/
structure Server where
  atmosMode : String
  endpoint : V1PlaybackEndpoint
  countryCode : String

namespace Fetch

/-- The fetch of an operation; those of videos and licenses are elsewhere. -/
def of (s : Server) : PlaybackOp -> Option (Except AppError Fetch)
  | .track id quality immersive => some (.ok (.track id quality immersive))
  | .manifest trackId params rawQuery host => some (.ok (.manifest trackId params rawQuery host))
  | .dash trackId atmos =>
      if useHighForDash atmos (decide (s.atmosMode = "high")) then
        match parseI64 trackId.toList with
        | none => some (.error (.badRequest "Invalid track id"))
        | some id => some (.ok (.high id))
      else some (.ok (.dash trackId atmos))
  | .video _ _ _ _ | .widevine _ _ _ => none

/-- The address and the parameters of the request to Tidal. -/
def request (s : Server) : Fetch -> String × List (String × String)
  | .track id quality immersive => v1 id quality immersive
  | .high id => v1 id "HIGH" false
  | .manifest trackId params rawQuery _ =>
      (s!"https://openapi.tidal.com/v2/trackManifests/{trackId}",
        [("adaptive", params.adaptive), ("manifestType", params.manifestType),
          ("uriScheme", params.uriScheme), ("usage", params.usage),
          ("countryCode", params.countryCode.getD s.countryCode)] ++
        (resolveFormats rawQuery params.atmos (decide (s.atmosMode = "prefer"))).map
          fun format => ("formats", format))
  | .dash trackId atmos =>
      (s!"https://openapi.tidal.com/v2/trackManifests/{trackId}",
        [("adaptive", "true"), ("manifestType", "MPEG_DASH"), ("uriScheme", "HTTPS"),
          ("usage", "PLAYBACK"), ("countryCode", s.countryCode),
          ("formats", dashFormats atmos (decide (s.atmosMode = "prefer")))])
where
  v1 (id : I64) (quality : String) (immersive : Bool) : String × List (String × String) :=
    (s!"https://api.tidal.com/v1/tracks/{id.val}/{s.endpoint.asStr}",
      [("audioquality", quality), ("playbackmode", "STREAM"), ("assetpresentation", "FULL"),
        ("immersiveaudio", toString immersive)])

/-- The id that is asked for. -/
def requested : Fetch -> String
  | .track id _ _ | .high id => Int.repr id.val
  | .manifest trackId _ _ _ | .dash trackId _ => trackId

/-!
## Answers
-/

/-- An answer of v2 with its DRM data behind the proxy. -/
def withProxy (host : String) (v : Value) : Value :=
  let url := Value.string s!"https://{host}/widevine"
  v.modifyField "data" fun data => data.modifyField "data" fun inner =>
    inner.modifyField "attributes" fun attributes => attributes.modifyField "drmData" fun drm =>
      (drm.insert "licenseUrl" url).insert "certificateUrl" url

end Fetch

/-- A track id from JSON, a number or a text. -/
def jsonTrackId (v : Value) : Option String :=
  match v.asI64 with
  | some n => some (Int.repr n.val)
  | none =>
      match v.asU64 with
      | some n => some (Nat.repr n.val)
      | none => v.asStr.map fun s => String.ofList (AccountState.trim s.toList)

/-- A rendition in Dolby Atmos among the formats or the modes. -/
def manifestHasAtmos (result : Value) : Bool :=
  let lists := fun (field format : String) =>
    (((result.pointer ["data", "data", "attributes"]).bind fun a => a.get field).bind
      Value.asArray).any fun items => items.any fun item => item.asStr == some format
  lists "formats" "EAC3_JOC" || lists "audioModes" "DOLBY_ATMOS"

/-- The parser of JSON and the one of URLs, which gives the scheme and the host. -/
structure Parsers where
  fromSlice : List UInt8 -> Option Value
  url : String -> Option (String × Option String)

def highAudioUri (p : Parsers) (result : Value) : Except AppError String :=
  if (result.pointer ["data", "audioQuality"]).bind Value.asStr ≠ some "HIGH" then
    .error (.badGateway "Tidal did not return HIGH audio")
  else
    match (result.pointer ["data", "manifest"]).bind Value.asStr with
    | none => .error (.internal "No v1 audio manifest in response")
    | some manifest =>
        match Base64.decodeStandard manifest.toList with
        | none => .error (.internal "Invalid v1 audio manifest encoding")
        | some bytes =>
            match p.fromSlice bytes with
            | none => .error (.internal "Invalid v1 audio manifest JSON")
            | some decoded =>
                match (decoded.pointer ["urls", "0"]).bind Value.asStr with
                | none => .error (.internal "No URL in v1 audio manifest")
                | some uri =>
                    match p.url uri with
                    | some (scheme, some _) =>
                        if scheme = "https" then .ok uri
                        else .error (.internal "Invalid URL in v1 audio manifest")
                    | _ => .error (.internal "Invalid URL in v1 audio manifest")

/-- What a fetch ends with. -/
inductive Payload where
  | json (v : Value)
  | redirect (uri : String)

namespace Fetch

def attributeText (result : Value) (field : String) : Option String :=
  (result.pointer ["data", "data", "attributes", field]).bind Value.asStr

/-- A preview of a track is refused, with its reason. -/
def preview (f : Fetch) (result : Value) : Option AppError :=
  match f with
  | .track id _ _ | .high id =>
      if (result.pointer ["data", "assetPresentation"]).bind Value.asStr = some "PREVIEW" then
        let reason := ((result.pointer ["data", "previewReason"]).bind Value.asStr).getD
          "FULL_REQUIRES_SUBSCRIPTION"
        some (.previewOnly (s!"Preview only ({reason}): track {id.val} requires subscription " ++
          "or is not available as FULL in this region"))
      else none
  | .manifest trackId _ _ _ | .dash trackId _ =>
      if attributeText result "trackPresentation" = some "PREVIEW" then
        let reason := (attributeText result "previewReason").getD "PREVIEW"
        some (.previewOnly
          s!"Preview only ({reason}): track {trackId} not available as FULL")
      else none

/-- What an answer must have before the ids are compared. -/
def incomplete (f : Fetch) (result : Value) : Option AppError :=
  match f with
  | .dash _ _ =>
      if attributeText result "uri" = none then
        some (.internal "No manifest URI in response")
      else none
  | .track _ _ _ | .high _ | .manifest _ _ _ _ => none

/-- The track that the answer is for, as far as it says. -/
def named (f : Fetch) (result : Value) : Option String :=
  match f with
  | .track _ _ _ | .high _ =>
      [["data", "trackId"], ["data", "data", "trackId"]].findSome? fun path =>
        (result.pointer path).bind jsonTrackId
  | .manifest _ _ _ _ | .dash _ _ =>
      (attributeText result "uri").bind fun uri =>
        (ManifestId.manifestTrackId Base64.decodeStandard uri.toList).map String.ofList

/-- The id that the named one has to be. -/
def expected : Fetch -> String
  | .track id _ _ | .high id => Int.repr id.val
  | .manifest trackId _ _ _ | .dash trackId _ =>
      String.ofList (AccountState.trim trackId.toList)

/-- The other track that the answer is for. -/
def strange (f : Fetch) (result : Value) : Option String :=
  (f.named result).filter (· ≠ f.expected)

def refused (f : Fetch) (seen reason : String) : AppError :=
  match f with
  | .track id _ _ | .high id =>
      .upstreamError ⟨409, "Conflict"⟩ (s!"Tidal returned audio for track {seen} for " ++
        s!"requested {id.val}: refusing to serve a different track ({reason})")
  | .manifest trackId _ _ _ | .dash trackId _ =>
      .upstreamError ⟨409, "Conflict"⟩ (s!"Tidal returned manifest for track {seen} for " ++
        s!"requested {trackId}: refusing to serve a different track ({reason})")

/-- What is sent for an answer that is not refused. -/
def finish (p : Parsers) (f : Fetch) (result : Value) : Except AppError Payload :=
  match f with
  | .track _ _ _ => .ok (.json result)
  | .high _ => (highAudioUri p result).map .redirect
  | .manifest _ _ _ host =>
      .ok (.json (withProxy host
        (result.insert "atmos_available" (.bool (manifestHasAtmos result)))))
  | .dash _ _ =>
      match attributeText result "uri" with
      | none => .error (.internal "No manifest URI in response")
      | some uri => .ok (.redirect uri)

end Fetch

end Tracks

end HifiApi
