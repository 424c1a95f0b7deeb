import HifiApi.Base.AppError
import HifiApi.Base.Json

/-!
# Responses

What a handler hands to the framework.  The names of headers are in lower case,
as they are sent.
-/

namespace HifiApi

inductive ResponseBody where
  | empty
  | json (v : Value)
  | bytes (b : List UInt8)

structure Response where
  status : Nat
  headers : List (String × String)
  body : ResponseBody

namespace Response

/-- {lit}`(status, Json(v)).into_response()` -/
def json (status : Nat) (v : Value) : Response where
  status := status
  headers := []
  body := .json v

/-- {lit}`headers_mut().insert`, in the place of an older value. -/
def insertHeader (r : Response) (name value : String) : Response :=
  { r with headers := (name, value) :: r.headers.filter fun h => decide (h.1 ≠ name) }

def header (r : Response) (name : String) : Option String :=
  (r.headers.find? fun h => decide (h.1 = name)).map (·.2)

/-- A field of a JSON body. -/
def field (r : Response) (name : String) : Option Value :=
  match r.body with
  | .json v => v.get name
  | _ => none

theorem header_insertHeader (r : Response) (name value : String) :
    (r.insertHeader name value).header name = some value := by
  simp [insertHeader, header]

@[simp] theorem header_json (status : Nat) (v : Value) (name : String) :
    (json status v).header name = none := rfl

@[simp] theorem field_json (status : Nat) (v : Value) (name : String) :
    (json status v).field name = v.get name := rfl

@[simp] theorem field_insertHeader (r : Response) (name value key : String) :
    (r.insertHeader name value).field key = r.field key := rfl

end Response

/-- {lit}`StatusCode::from_u16`, with the status that stands for what it refuses. -/
def statusOfU16 (code otherwise : Nat) : Nat :=
  if 100 ≤ code ∧ code ≤ 999 then code else otherwise

namespace AppError

/-- {lit}`into_response` -/
def intoResponse (e : AppError) : Response :=
  let plain (detail : String) := Response.json e.status (.object [("detail", .string detail)])
  match e with
  | notFound d => plain d
  | badRequest d => plain d
  | unauthorized d => plain d
  | upstreamError _ d => plain d
  | badGateway d => plain d
  | serviceUnavailable d => plain d
  | internal d => plain d
  | rateLimited secs =>
      (plain "Tidal rate limited the account").insertHeader "retry-after" (ToString.toString secs)
  | timeout => plain "Upstream timeout"
  | serviceUnavailableRetry d secs =>
      if 0 < secs then
        (plain d).insertHeader "retry-after" (ToString.toString secs)
      else
        plain d
  | previewOnly d =>
      Response.json e.status
        (.object [("detail", .string d), ("code", .string "preview_only")])
  | accountsBusy d secs =>
      (Response.json e.status
        (.object [("detail", .string d), ("code", .string "accounts_busy"),
          ("retry_after", .number secs)])).insertHeader
            "retry-after" (ToString.toString (max secs 1))

theorem intoResponse_status (e : AppError) : e.intoResponse.status = e.status := by
  cases e with
  | serviceUnavailableRetry d secs =>
      simp only [intoResponse]
      split
      · rfl
      · rfl
  | _ =>
      rfl

/-- The status of an error is one that can be sent. -/
theorem status_bounds (e : AppError) : 100 ≤ e.status ∧ e.status ≤ 999 := by
  cases e with
  | upstreamError s d =>
      simp only [status]
      split
      · rename_i hclient
        simp only [StatusCode.isClientError, Bool.and_eq_true, decide_eq_true_eq] at hclient
        omega
      · decide
  | _ =>
      simp [status]

end AppError

end HifiApi
