/-!
# Errors

The errors that the modelled functions answer with, and the texts they are
recorded as.
-/

namespace HifiApi

/-- An HTTP status and the reason its display adds. -/
structure StatusCode where
  code : Nat
  reason : String
  deriving DecidableEq

namespace StatusCode

def isClientError (s : StatusCode) : Bool := 400 ≤ s.code && s.code < 500

def isSuccess (s : StatusCode) : Bool := 200 ≤ s.code && s.code < 300

def toString (s : StatusCode) : String := s!"{s.code} {s.reason}"

end StatusCode

inductive AppError where
  | notFound (detail : String)
  | badRequest (detail : String)
  | unauthorized (detail : String)
  | upstreamError (status : StatusCode) (detail : String)
  | rateLimited (retryAfter : Nat)
  | timeout
  | badGateway (detail : String)
  | previewOnly (detail : String)
  | serviceUnavailable (detail : String)
  | serviceUnavailableRetry (detail : String) (retryAfter : Nat)
  | accountsBusy (detail : String) (retryAfter : Nat)
  | internal (detail : String)
  deriving DecidableEq

/-- The text {lit}`Display` writes. -/
def AppError.toString : AppError -> String
  | notFound d => s!"Not found: {d}"
  | badRequest d => s!"Bad request: {d}"
  | unauthorized d => s!"Unauthorized: {d}"
  | upstreamError s d => s!"Upstream {s.toString}: {d}"
  | rateLimited s => s!"Tidal rate limited the account; retry in {s}s"
  | timeout => "Timeout"
  | badGateway d => s!"Bad gateway: {d}"
  | previewOnly d => d
  | serviceUnavailable d => s!"Service unavailable: {d}"
  | serviceUnavailableRetry d s => s!"Service unavailable: {d} (retry in {s}s)"
  | accountsBusy d _ => d
  | internal d => s!"Internal error: {d}"

/-- The HTTP status an error is sent with. -/
def AppError.status : AppError -> Nat
  | notFound _ => 404
  | badRequest _ => 400
  | unauthorized _ => 401
  | upstreamError s _ => if s.isClientError then s.code else 502
  | rateLimited _ => 429
  | timeout => 504
  | badGateway _ => 502
  | previewOnly _ => 403
  | serviceUnavailable _ => 503
  | serviceUnavailableRetry _ _ => 503
  | accountsBusy _ _ => 429
  | internal _ => 500

end HifiApi
