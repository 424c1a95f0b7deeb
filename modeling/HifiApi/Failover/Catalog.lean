import HifiApi.Failover.Requests

/-!
# Metadata requests

{lit}`catalog_get`: the static token, then up to two catalog accounts, then the
playback pool.  A panic of an {lit}`unwrap` is a request without a result.
-/

namespace HifiApi

open Prog TidalCall

/-- A metadata request; an empty catalog token means that there is none. -/
structure CatalogRequest where
  url : String
  params : List (String × String)
  catalogToken : String
  apiVersion : String

def readCatalog (status : StatusCode) : TidalProg (Except AppError Value) := do
  match ← ask readText with
  | .error e => return .error (.ofReqwest e)
  | .ok body =>
      match body.json with
      | .error detail =>
          return .error (.upstreamError status s!"Failed to parse Tidal response: {detail}")
      | .ok data => return .ok data

/-!
## The static token
-/

def onStaticAnswer (r : TidalResponse) : TidalProg (Except AppError Value) := do
  if r.status.code = 429 then
    let seconds ← ask (retryAfterSecs r.retryAfter)
    ask (pauseCatalogToken seconds)
    return .error (.rateLimited seconds)
  else if r.status.isSuccess then
    readCatalog r.status
  else
    return .error (.upstreamError r.status "Catalog token request failed")

def sendStatic (q : CatalogRequest) : TidalProg (Except AppError Value) := do
  match ← ask (send none q.url q.params q.catalogToken) with
  | .error e =>
      if e.isConnect || e.isTimeout then
        ask noteFailure
      return .error (.ofReqwest e)
  | .ok r =>
      ask noteSuccess
      onStaticAnswer r

/-- {lit}`catalog_static_get` -/
def catalogStaticGet (q : CatalogRequest) : TidalProg (Except AppError Value) := do
  match ← ask catalogTokenPause with
  | some seconds => return .error (.rateLimited seconds)
  | none =>
      match ← ask workingClient with
      | .error e => return .error e
      | .ok _ => sendStatic q

/-!
## A catalog account
-/

/-- Another attempt with a token, or the result. -/
abbrev CatalogAttempted : Type := String ⊕ Except AppError Value

/-- Any status but 429, and but a 401 that leads to a refresh. -/
def onCatalogStatus (attempts attempt : Nat) (token : String) (r : TidalResponse) :
    TidalProg CatalogAttempted := do
  if r.status.isSuccess then
    let result ← readCatalog r.status
    return .inr result
  else if attempt + 1 < attempts ∧ (r.status.code = 403 ∨ 500 ≤ r.status.code) then
    return .inl token
  else
    return .inr (.error (.upstreamError r.status "Catalog account request failed"))

def onCatalogAnswer (attempts : Nat) (a : AccountRef) (attempt : Nat) (token : String)
    (r : TidalResponse) : TidalProg CatalogAttempted := do
  if r.status.code = 429 then
    let seconds ← ask (pauseAccount a r.retryAfter)
    ask (markAccountError a.id "Tidal HTTP 429" none)
    return .inr (.error (.rateLimited seconds))
  else if r.status.code = 401 ∧ attempt + 1 < attempts then
    match ← ask (refreshAfterUnauthorized a token) with
    | .error e => return .inr (.error e)
    | .ok fresh => return .inl fresh
  else
    if r.status.code = 401 ∧ 0 < attempt then
      ask (rejectRefreshedToken a token)
    onCatalogStatus attempts attempt token r

def sendCatalog (q : CatalogRequest) (attempts : Nat) (a : AccountRef) (attempt : Nat)
    (token : String) : TidalProg CatalogAttempted := do
  match ← ask (send (some a) q.url q.params token) with
  | .error e =>
      noteTransport a.id e
      return .inr (.error (.ofReqwest e))
  | .ok r =>
      ask (noteSuccessFor a.id)
      onCatalogAnswer attempts a attempt token r

def catalogAttempt (q : CatalogRequest) (attempts : Nat) (a : AccountRef)
    (attempt : Nat) (token : String) : TidalProg CatalogAttempted := do
  match ← ask (rateLimitRemaining a) with
  | some seconds => return .inr (.error (.rateLimited seconds))
  | none =>
      match ← ask (workingClientFor a.id) with
      | .error e => return .inr (.error e)
      | .ok _ => sendCatalog q attempts a attempt token

/-- All attempts on a catalog account, with its token at hand. -/
def catalogAttempts (q : CatalogRequest) (a : AccountRef) (token : String) :
    TidalProg (Except AppError Value) := do
  let perAccount ← ask catalogRequestsPerAccount
  match ← times (catalogAttempt q (max perAccount 1) a) (max perAccount 1) 0 token with
  | .inl _ => return .error (.unauthorized "Catalog account unauthorized")
  | .inr result => return result

/-- {lit}`catalog_account_get` -/
def catalogAccountGet (q : CatalogRequest) (a : AccountRef) :
    TidalProg (Except AppError Value) := do
  match ← ask (rateLimitRemaining a) with
  | some seconds => return .error (.rateLimited seconds)
  | none =>
      match ← ask (workingClientFor a.id) with
      | .error e => return .error e
      | .ok _ =>
          match ← ask (getToken a) with
          | .error e => return .error e
          | .ok token => catalogAttempts q a token

/-!
## The request
-/

/-- What the loop over the catalog accounts carries. -/
structure CatalogTry where
  rateLimitError : Option AppError
  fallbackTried : Bool
  catalogBusy : Bool

namespace CatalogTry

def start : CatalogTry := ⟨none, false, false⟩

/-- {lit}`Err(rate_limit_error.unwrap())` -/
def unwrap (s : CatalogTry) : Option (Except AppError Value) :=
  s.rateLimitError.map .error

/-- The next credential is the one that may still be tried after a 429. -/
def claimed (s : CatalogTry) : CatalogTry :=
  if s.rateLimitError.isSome then { s with fallbackTried := true } else s

end CatalogTry

/-- The outcome of a catalog call, marked. -/
def marked (p : TidalProg (Except AppError Value)) :
    TidalProg (Except AppError Value) := do
  let result ← p
  ask (catalogReturned result)
  return result

/-- Another round, the break, or the result. -/
abbrev CatalogRound : Type :=
  CatalogTry ⊕ Tried CatalogTry (Option (Except AppError Value))

def onCatalogResult (s : CatalogTry) : Except AppError Value -> TidalProg CatalogRound
  | .ok data => return .inr (.answered (some (.ok data)))
  | .error e => do
      if s.fallbackTried then
        return .inr (.answered (some (.error e)))
      else if e.isRateLimited then
        return .inl { s with rateLimitError := some e }
      else
        return .inr (.failover s)

def tryCatalog (q : CatalogRequest) (concurrency : Nat) (_round : Nat)
    (s : CatalogTry) : TidalProg CatalogRound := do
  if s.rateLimitError.isSome = true ∧ s.fallbackTried = true then
    return .inr (.answered s.unwrap)
  else
    match ← ask (claimCatalogSlot concurrency) with
    | .busy => return .inr (.failover { s with catalogBusy := true })
    | .unavailable => return .inr (.failover s)
    | .slot a =>
        let result ← marked (catalogAccountGet q a)
        onCatalogResult s.claimed result

/-- The request to the pool. -/
def CatalogRequest.pool (q : CatalogRequest) (limit : Option Nat) (perAccount : Nat) :
    PoolRequest :=
  ⟨q.url, some q.params, none, limit, perAccount, .metadata, q.apiVersion⟩

/-- {lit}`wrapped.get("data").cloned().unwrap_or(Value::Null)` -/
def unwrapData (wrapped : Value) : Value := (wrapped.get "data").getD .null

def askPool (q : CatalogRequest) (limit : Option Nat) :
    TidalProg (Except AppError Value) := do
  let perAccount ← ask catalogRequestsPerAccount
  let result ← makeRequestWithLimit (q.pool limit perAccount)
  ask (poolReturned result)
  return result

/-- After a 429 an empty pool is no reason of its own. -/
def afterLimited (previous : AppError) : Except AppError Value -> Except AppError Value
  | .ok wrapped => .ok (unwrapData wrapped)
  | .error (.serviceUnavailable _) => .error previous
  | .error e => .error e

/-- {lit}`CATALOG_BUSY` -/
def catalogBusyMessage : String :=
  "Catalog accounts are at their concurrent request limit"

def normalRequest (q : CatalogRequest) :
    TidalProg (Option (Except AppError Value)) := do
  let result ← askPool q none
  return some (result.map unwrapData)

/-- No 429 has been met. -/
def overflow (q : CatalogRequest) (s : CatalogTry) :
    TidalProg (Option (Except AppError Value)) := do
  if s.catalogBusy then
    let count ← ask playbackCount
    if count = 0 then
      return some (.error (.accountsBusy catalogBusyMessage 1))
    else
      normalRequest q
  else
    normalRequest q

/-- The 429 of the request, or a pause of the catalog accounts. -/
def limitedBy (s : CatalogTry) : TidalProg (Option AppError) := do
  match s.rateLimitError with
  | some e => return some e
  | none =>
      let remaining ← ask catalogRateLimitRemaining
      return remaining.map .rateLimited

def afterCatalog (q : CatalogRequest) (s : CatalogTry) :
    TidalProg (Option (Except AppError Value)) := do
  if s.fallbackTried then
    return s.unwrap
  else
    match ← limitedBy s with
    | some previous =>
        let result ← askPool q (some 1)
        return some (afterLimited previous result)
    | none => overflow q s

/-- The catalog accounts, with the static token behind. -/
def overCatalog (q : CatalogRequest) (concurrency : Nat) (s : CatalogTry) :
    TidalProg (Option (Except AppError Value)) := do
  match ← times (tryCatalog q concurrency) 2 0 s with
  | .inl s' => afterCatalog q s'
  | .inr (.failover s') => afterCatalog q s'
  | .inr (.answered result) => return result

/-- {lit}`catalog_get` -/
def catalogGet (q : CatalogRequest) : TidalProg (Option (Except AppError Value)) := do
  let concurrency ← ask catalogConcurrency
  if q.catalogToken = "" then
    overCatalog q concurrency .start
  else
    match ← marked (catalogStaticGet q) with
    | .ok data => return some (.ok data)
    | .error e =>
        if e.isRateLimited then
          overCatalog q concurrency { CatalogTry.start with rateLimitError := some e }
        else
          overCatalog q concurrency .start

end HifiApi
