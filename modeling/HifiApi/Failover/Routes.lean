import HifiApi.Failover.Requests

/-!
# Videos and licenses

{lit}`fetch_video_playback` and {lit}`fetch_widevine_license`: failover loops of
their own, with one request on an account and a second one after a refreshed token.
-/

namespace HifiApi

open Prog TidalCall

/-- What a round of a failover loop leads to. -/
abbrev FailoverRound (σ ρ : Type) : Type := σ ⊕ Except AppError ρ

/-- The loop over the accounts. -/
def overAccounts {σ ρ : Type} (tryOne : Nat -> σ -> TidalProg (FailoverRound σ ρ))
    (finish : σ -> Except AppError ρ) (start : σ) : TidalProg (Except AppError ρ) := do
  let count ← ask playbackCount
  match ← times tryOne (max count 1) 0 start with
  | .inl s => return finish s
  | .inr result => return result

/-- A 429: another account, or the error. -/
def continueLimited {ρ : Type} (accountTry : Nat) (a : AccountRef) (e : AppError)
    (s : Failover) : TidalProg (FailoverRound Failover ρ) :=
  match s.schedule accountTry a.id e with
  | .error e => return .inr (.error e)
  | .ok f => return .inl f

def continueFailed {ρ : Type} (a : AccountRef) (message : String) (e : AppError)
    (s : Failover) : TidalProg (FailoverRound Failover ρ) := do
  ask (markAccountError a.id message (some e))
  return .inl (s.fail a.id e)

/-- A failure on an account: a 429 or any other. -/
def continueAfter {ρ : Type} (accountTry : Nat) (a : AccountRef) (message : String)
    (e : AppError) (s : Failover) : TidalProg (FailoverRound Failover ρ) :=
  if e.isRateLimited then continueLimited accountTry a e s
  else continueFailed a message e s

/-!
## One request with a given token
-/

/-- A body as JSON. -/
def readJson (status : StatusCode) : TidalProg (Except AppError Value) := do
  match ← ask readText with
  | .error e => return .error (.ofReqwest e)
  | .ok body =>
      match body.json with
      | .error detail => return .error (parseError status detail body)
      | .ok data => return .ok data

/-- The pause of the account of a request, which may have been deleted. -/
def pauseOf (account : Option AccountRef) : TidalProg (Option Nat) :=
  match account with
  | some a => ask (rateLimitRemaining a)
  | none => return none

/-- The seconds of a 429. -/
def pauseFor (account : Option AccountRef) (retryAfter : Option String) :
    TidalProg Nat :=
  match account with
  | some a => ask (pauseAccount a retryAfter)
  | none => ask (retryAfterSecs retryAfter)

def readAuthed (account : Option AccountRef) (accountId : String) (r : TidalResponse) :
    TidalProg (Except AppError Value) := do
  if r.status.code = 429 then
    let seconds ← pauseFor account r.retryAfter
    ask (markAccountError accountId "Tidal HTTP 429" none)
    return .error (.rateLimited seconds)
  else if r.status.isSuccess then
    readJson r.status
  else
    return .error (.upstreamError r.status "Upstream API error")

def sendAuthed (account : Option AccountRef) (url : String)
    (params : List (String × String)) (token accountId : String) :
    TidalProg (Except AppError Value) := do
  match ← ask (send account url params token) with
  | .error e =>
      noteTransport accountId e
      return .error (.ofReqwest e)
  | .ok r =>
      ask (noteSuccessFor accountId)
      readAuthed account accountId r

/-- {lit}`make_authed_request` -/
def makeAuthedRequest (url : String) (params : List (String × String))
    (token accountId : String) : TidalProg (Except AppError Value) := do
  let account ← ask (getAccountById accountId)
  match ← pauseOf account with
  | some seconds => return .error (.rateLimited seconds)
  | none =>
      match ← ask (workingClientFor accountId) with
      | .error e => return .error e
      | .ok _ => sendAuthed account url params token accountId

/-!
## Videos
-/

structure VideoRequest where
  id : Int
  quality : String
  mode : String
  presentation : String
  apiVersion : String

namespace VideoRequest

def url (v : VideoRequest) : String :=
  s!"https://api.tidal.com/v1/videos/{v.id}/playbackinfo"

def params (v : VideoRequest) : List (String × String) :=
  [("videoquality", v.quality), ("playbackmode", v.mode),
    ("assetpresentation", v.presentation)]

def envelope (v : VideoRequest) (data : Value) : Value :=
  .object [("version", .string v.apiVersion), ("video", data)]

end VideoRequest

def isUnauthorized : AppError -> Bool
  | .upstreamError status _ => decide (status.code = 401)
  | _ => false

/-- The second request on an account. -/
def retryVideo (v : VideoRequest) (accountTry : Nat) (a : AccountRef) (fresh : String)
    (s : Failover) : TidalProg (FailoverRound Failover Value) := do
  match ← makeAuthedRequest v.url v.params fresh a.id with
  | .ok data => return .inr (.ok (v.envelope data))
  | .error e =>
      if isUnauthorized e then
        ask (rejectRefreshedToken a fresh)
      continueAfter accountTry a "video retry failed: " e s

def refreshVideo (v : VideoRequest) (accountTry : Nat) (a : AccountRef)
    (token : String) (s : Failover) : TidalProg (FailoverRound Failover Value) := do
  match ← ask (refreshAfterUnauthorized a token) with
  | .ok fresh => retryVideo v accountTry a fresh s
  | .error e => continueAfter accountTry a "token refresh failure: " e s

def onVideo (v : VideoRequest) (accountTry : Nat) (a : AccountRef) (token : String)
    (s : Failover) : Except AppError Value -> TidalProg (FailoverRound Failover Value)
  | .ok data => return .inr (.ok (v.envelope data))
  | .error (.upstreamError status detail) => do
      if status.code = 401 then
        refreshVideo v accountTry a token s
      else if status.code = 403 ∨ 500 ≤ status.code then
        ask (markAccountError a.id s!"Tidal HTTP {status.code}" none)
        return .inl (s.fail a.id (.upstreamError status detail))
      else
        return .inr (.error (.upstreamError status detail))
  | .error (.rateLimited seconds) =>
      continueLimited accountTry a (.rateLimited seconds) s
  | .error e => return .inr (.error e)

/-- The error after the last account. -/
def finishVideo (s : Failover) : Except AppError Value :=
  .error (s.lastError.getD (.serviceUnavailable "All accounts failed"))

def tryVideo (v : VideoRequest) (accountTry : Nat) (s : Failover) :
    TidalProg (FailoverRound Failover Value) := do
  if s.rateLimits.exhausted accountTry then
    return .inr (finishVideo s)
  else
    match ← ask (leasePoolAccount s.failedIds .playback) with
    | .error e => return .inr (.error (e.afterFailover s.lastError))
    | .ok a =>
        match ← ask (workingClientFor a.id) with
        | .error e => return .inr (.error e)
        | .ok _ =>
            match ← ask (getToken a) with
            | .error e => continueAfter accountTry a "token failure: " e s
            | .ok token =>
                let result ← makeAuthedRequest v.url v.params token a.id
                onVideo v accountTry a token s result

/-- {lit}`fetch_video_playback` -/
def fetchVideoPlayback (v : VideoRequest) : TidalProg (Except AppError Value) :=
  overAccounts (tryVideo v) finishVideo .start

/-!
## Licenses
-/

structure LicenseRequest where
  method : String
  contentType : Option String
  body : List UInt8

/-- The status, the content type and the body of a license. -/
structure License where
  code : Nat
  contentType : String
  content : List UInt8

/-- What the loop over the accounts carries. -/
structure LicenseTry extends Failover where
  /-- The last answer that is worth another account. -/
  lastHttp : Option License

namespace LicenseTry

def start : LicenseTry := ⟨.start, none⟩

/-- A 429 is reported before an answer of Tidal, an answer before another error. -/
def outcome (s : LicenseTry) (otherwise : AppError) : Except AppError License :=
  match s.lastError with
  | some (.rateLimited seconds) => .error (.rateLimited seconds)
  | _ =>
      match s.lastHttp with
      | some r => .ok r
      | none => .error otherwise

/-- After the last account. -/
def finish (s : LicenseTry) : Except AppError License :=
  s.outcome (s.lastError.getD (.serviceUnavailable "All accounts failed"))

end LicenseTry

/-- The round of a license goes on with what the other loop goes on with. -/
def LicenseTry.lift (s : LicenseTry) (p : TidalProg (FailoverRound Failover License)) :
    TidalProg (FailoverRound LicenseTry License) := do
  match ← p with
  | .inl f => return .inl { s with toFailover := f }
  | .inr result => return .inr result

def communicationError : AppError :=
  .serviceUnavailable "Error communicating with widevine server"

/-- A request for a license, as far as its answer. -/
def sendLicenseOnce (l : LicenseRequest) (a : AccountRef) (token : String) :
    TidalProg (Except AppError TidalResponse) := do
  match ← ask (sendLicense a l.method
      (l.contentType.getD "application/octet-stream") l.body token) with
  | .error e =>
      noteTransport a.id e
      return .error communicationError
  | .ok r =>
      ask (noteSuccessFor a.id)
      return .ok r

/-- Another account after an answer that is worth one. -/
def passLicense (a : AccountRef) (r : TidalResponse) (license : License)
    (s : LicenseTry) : TidalProg (FailoverRound LicenseTry License) := do
  ask (markAccountError a.id s!"Tidal HTTP {r.status.code}" none)
  return .inl
    { s with
      toFailover := s.fail a.id (.upstreamError r.status "Upstream API error")
      lastHttp := some license }

def readLicense (a : AccountRef) (r : TidalResponse) (s : LicenseTry) :
    TidalProg (FailoverRound LicenseTry License) := do
  let content ← ask readBytes
  let license : License :=
    ⟨r.status.code, r.contentType.getD "application/json", content⟩
  if r.status.code = 403 ∨ 500 ≤ r.status.code then
    passLicense a r license s
  else
    return .inr (.ok license)

/-- The last answer on an account, with the token it was given for. -/
def onLicense (accountTry : Nat) (a : AccountRef) (token : String) (r : TidalResponse)
    (s : LicenseTry) : TidalProg (FailoverRound LicenseTry License) := do
  if r.status.code = 401 then
    ask (rejectRefreshedToken a token)
    readLicense a r s
  else if r.status.code = 429 then
    let seconds ← ask (pauseAccount a r.retryAfter)
    ask (markAccountError a.id "Tidal HTTP 429" none)
    s.lift (continueLimited accountTry a (.rateLimited seconds) s.toFailover)
  else
    readLicense a r s

/-- The second request on an account. -/
def retryLicense (l : LicenseRequest) (accountTry : Nat) (a : AccountRef)
    (fresh : String) (s : LicenseTry) : TidalProg (FailoverRound LicenseTry License) := do
  match ← ask (workingClientFor a.id) with
  | .error e => return .inr (.error e)
  | .ok _ =>
      match ← sendLicenseOnce l a fresh with
      | .error e => return .inr (.error e)
      | .ok r => onLicense accountTry a fresh r s

def refreshLicense (l : LicenseRequest) (accountTry : Nat) (a : AccountRef)
    (token : String) (s : LicenseTry) : TidalProg (FailoverRound LicenseTry License) := do
  match ← ask (refreshAfterUnauthorized a token) with
  | .ok fresh => retryLicense l accountTry a fresh s
  | .error e =>
      s.lift (continueAfter accountTry a "token refresh failure: " e s.toFailover)

/-- The first request on an account, with its token at hand. -/
def requestLicense (l : LicenseRequest) (accountTry : Nat) (a : AccountRef)
    (token : String) (s : LicenseTry) : TidalProg (FailoverRound LicenseTry License) := do
  match ← ask (rateLimitRemaining a) with
  | some seconds =>
      s.lift (continueLimited accountTry a (.rateLimited seconds) s.toFailover)
  | none =>
      match ← ask (workingClientFor a.id) with
      | .error e => return .inr (.error e)
      | .ok _ =>
          match ← sendLicenseOnce l a token with
          | .error e => return .inr (.error e)
          | .ok r =>
              if r.status.code = 401 then
                refreshLicense l accountTry a token s
              else
                onLicense accountTry a token r s

def tryLicense (l : LicenseRequest) (accountTry : Nat) (s : LicenseTry) :
    TidalProg (FailoverRound LicenseTry License) := do
  if s.rateLimits.exhausted accountTry then
    return .inr s.finish
  else
    match ← ask (leasePoolAccount s.failedIds .playback) with
    | .error e => return .inr (s.outcome (e.afterFailover s.lastError))
    | .ok a =>
        match ← ask (workingClientFor a.id) with
        | .error e => return .inr (.error e)
        | .ok _ =>
            match ← ask (getToken a) with
            | .error e =>
                s.lift (continueAfter accountTry a "token failure: " e s.toFailover)
            | .ok token => requestLicense l accountTry a token s

/-- {lit}`fetch_widevine_license` -/
def fetchWidevineLicense (l : LicenseRequest) :
    TidalProg (Except AppError License) :=
  overAccounts (tryLicense l) LicenseTry.finish .start

end HifiApi
