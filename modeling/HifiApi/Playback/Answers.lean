import HifiApi.Base.Response
import HifiApi.Playback.Lifecycle

/-!
# Answers of the playback queue

What {lit}`dispatch`, {lit}`get_playback_request` and
{lit}`cancel_playback_request` send, and how a failure that is polled for stands
to the error that the request would have been answered with.
-/

namespace HifiApi

variable {Id : Type}

/-- {lit}`job_result_response` -/
def jobResultResponse : JobResult -> Response
  | .json v => Response.json 200 v
  | .redirect uri => { status := 307, headers := [("location", uri)], body := .empty }
  | .binary status contentType body =>
      { status := statusOfU16 status 502
        headers := [("content-type", contentType)]
        body := .bytes body }

/-- {lit}`JobState::as_str` -/
def JobState.asStr : JobState -> String
  | pending => "pending"
  | processing => "processing"
  | completed => "completed"
  | failed => "failed"
  | cancelled => "cancelled"

namespace PlaybackQueue

def payload (id state : String) (position pool active : Nat) : Value :=
  .object
    [("status", .string state),
      ("requestId", .string id),
      ("queuePosition", .number position),
      ("statusUrl", .string s!"/playback/requests/{id}"),
      ("cancelUrl", .string s!"/playback/requests/{id}"),
      ("playbackAccounts", .number pool),
      ("activePlaybackRequests", .number active)]

def pendingResponse (id : String) (position pool active : Nat) : Response where
  status := 202
  headers :=
    [("location", s!"/playback/requests/{id}"),
      ("retry-after", "1"),
      ("x-playback-queue-position", toString position),
      ("x-playback-request-id", id)]
  body := .json (payload id "pending" position pool active)

def notFoundResponse : Response :=
  Response.json 404 (.object [("detail", .string "Playback request not found or expired")])

/-- The answer of {lit}`get_playback_request` for the job it reads. -/
def jobResponse (id : String) (position pool active : Nat) (j : Job Id) : Response :=
  match j.state with
  | .pending => pendingResponse id position pool active
  | .processing => pendingResponse id 0 pool active
  | .completed => jobResultResponse (j.result.getD (.json (.object [])))
  | .cancelled =>
      Response.json 410 ((payload id "cancelled" 0 pool active).insert "detail"
        (.string "Playback request was cancelled"))
  | .failed =>
      let body := (payload id "failed" 0 pool active).insert "detail"
        (.string (j.error.getD "Playback request failed"))
      let response := Response.json (statusOfU16 j.errorStatus 500) body
      match j.errorRetryAfter with
      | some seconds => response.insertHeader "retry-after" (toString seconds)
      | none => response

variable [DecidableEq Id]

/-- {lit}`get_playback_request` from its read of the jobs on, with the queue as
it is then and, for a pending job, as it is when the position is counted. -/
def getPlaybackRequest (render : Id -> String) (q later : PlaybackQueue Id)
    (order : Table.Iteration (Job Id)) (pool active : Nat) (id : Id) : Response :=
  match q.jobs.lookup id with
  | none => notFoundResponse
  | some j => jobResponse (render id) (later.pendingPosition order id) pool active j

/-- What {lit}`cancel_playback_request` answers after its section. -/
def cancelPlaybackRequest (render : Id -> String) (q : PlaybackQueue Id) (pool active : Nat)
    (now : Int) (id : Id) : Response :=
  match (q.cancel id now).jobs.lookup id with
  | none => notFoundResponse
  | some j => Response.json 200 (payload (render id) j.state.asStr 0 pool active)

end PlaybackQueue

/-- A reply of {lit}`dispatch` as it is sent. -/
def PlaybackReply.response (render : Id -> String) : PlaybackReply Id -> Response
  | .cached hit => (jobResultResponse hit).insertHeader "x-cache" "HIT"
  | .result answer => jobResultResponse answer
  | .error e => e.intoResponse
  | .pending id position accounts active =>
      PlaybackQueue.pendingResponse (render id) position accounts active

/-!
## Failures, at once and by poll
-/

/-- The seconds that a failed job keeps. -/
def AppError.jobRetryAfter : AppError -> Option Nat
  | rateLimited secs => some secs
  | accountsBusy _ secs => some secs
  | _ => none

/-- A failed job holds what {lit}`app_error_parts` makes of an error. -/
structure Job.Fails (j : Job Id) (e : AppError) : Prop where
  error : j.error = some (appErrorParts e).2
  errorStatus : j.errorStatus = e.status
  errorRetryAfter : j.errorRetryAfter = e.jobRetryAfter

/-- Errors whose header {lit}`Retry-After` a poll does not repeat. -/
def AppError.losesRetryAfter : AppError -> Bool
  | serviceUnavailableRetry _ secs => decide (0 < secs)
  | accountsBusy _ secs => decide (secs = 0)
  | _ => false

theorem AppError.intoResponse_detail (e : AppError) :
    e.intoResponse.field "detail" = some (.string (appErrorParts e).2) := by
  cases e with
  | serviceUnavailableRetry d secs =>
      simp only [intoResponse]
      split
      · rfl
      · rfl
  | _ =>
      rfl

theorem AppError.intoResponse_retryAfter (e : AppError) :
    e.losesRetryAfter = false ->
      e.intoResponse.header "retry-after" = e.jobRetryAfter.map ToString.toString := by
  cases e with
  | serviceUnavailableRetry d secs =>
      intro h
      have hsecs : ¬ 0 < secs := of_decide_eq_false h
      simp only [intoResponse, if_neg hsecs]
      rfl
  | accountsBusy d secs =>
      intro h
      have hsecs : secs ≠ 0 := of_decide_eq_false h
      have hmax : max secs 1 = secs := by omega
      simp only [intoResponse, Response.header_insertHeader, jobRetryAfter, hmax,
        Option.map_some]
  | rateLimited secs =>
      intro _
      simp only [intoResponse, Response.header_insertHeader, jobRetryAfter,
        Option.map_some]
  | _ =>
      intro _
      rfl

theorem AppError.intoResponse_retryAfter_ne (e : AppError) (h : e.losesRetryAfter = true) :
    e.intoResponse.header "retry-after" ≠ e.jobRetryAfter.map ToString.toString := by
  cases e with
  | serviceUnavailableRetry d secs =>
      have hsecs : 0 < secs := of_decide_eq_true h
      simp [intoResponse, hsecs, Response.header_insertHeader, jobRetryAfter]
  | accountsBusy d secs =>
      have hsecs : secs = 0 := of_decide_eq_true h
      subst hsecs
      have hsent : some (ToString.toString 1) ≠ some (ToString.toString 0) := by decide
      rw [intoResponse, Response.header_insertHeader]
      exact hsent
  | _ =>
      cases h

/-- A failure that is polled for, beside the error that the request would have been
answered with. -/
structure Response.Repeats (r : Response) (e : AppError) : Prop where
  status : r.status = e.intoResponse.status
  detail : r.field "detail" = e.intoResponse.field "detail"
  retryAfter : r.header "retry-after" = e.intoResponse.header "retry-after" <->
    e.losesRetryAfter = false
  failed : r.field "status" = some (.string "failed")
  code : r.field "code" = none

namespace Job

variable {j : Job Id}

theorem Fails.response (id : String) (position pool active : Nat) {e : AppError}
    (hstate : j.state = .failed) (h : j.Fails e) :
    (PlaybackQueue.jobResponse id position pool active j).Repeats e := by
  have hstatus : statusOfU16 j.errorStatus 500 = e.status := by
    rw [h.errorStatus]
    exact if_pos e.status_bounds
  have hheader :
      (PlaybackQueue.jobResponse id position pool active j).header "retry-after" =
        e.jobRetryAfter.map ToString.toString := by
    simp only [PlaybackQueue.jobResponse, hstate, h.errorRetryAfter]
    cases e.jobRetryAfter with
    | none =>
        rfl
    | some seconds =>
        exact Response.header_insertHeader ..
  have hparts :
      (PlaybackQueue.jobResponse id position pool active j).status = e.status ∧
      (PlaybackQueue.jobResponse id position pool active j).body =
        .json ((PlaybackQueue.payload id "failed" 0 pool active).insert "detail"
          (.string (appErrorParts e).2)) := by
    simp only [PlaybackQueue.jobResponse, hstate, h.error, hstatus, Option.getD_some]
    split
    · exact ⟨rfl, rfl⟩
    · exact ⟨rfl, rfl⟩
  constructor
  · rw [hparts.left, e.intoResponse_status]
  · rw [e.intoResponse_detail]
    simp only [Response.field, hparts.right]
    rfl
  · rw [hheader]
    constructor
    · intro heq
      cases hloses : e.losesRetryAfter with
      | false =>
          rfl
      | true =>
          exact absurd heq.symm (e.intoResponse_retryAfter_ne hloses)
    · intro hkeeps
      exact (e.intoResponse_retryAfter hkeeps).symm
  · simp only [Response.field, hparts.right]
    rfl
  · simp only [Response.field, hparts.right]
    rfl

end Job

end HifiApi
