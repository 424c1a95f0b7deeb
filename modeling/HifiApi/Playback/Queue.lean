import HifiApi.Base.AppError
import HifiApi.Base.Json
import HifiApi.Lib.System
import HifiApi.Lib.Table
import Mathlib.Algebra.Group.Nat.Defs

/-!
# The playback queue

Playback requests run in slots; a request that finds no free slot becomes a job
that its client polls.  Requests, workers and handlers are interleaved at their
await points and at each access to the counter of slots.  The rows of the table
of jobs stand in the order of admission; where the order of the hash map
matters it is a parameter.
-/

namespace HifiApi

/-- {lit}`JOB_TTL_SECS` -/
def jobTtlSecs : Int := 300

/-- {lit}`MAX_QUEUE_FACTOR` -/
def maxQueueFactor : Nat := 1

/-- {lit}`PENDING_TIMEOUT_SECS` -/
def pendingTimeoutSecs : Int := 60

def usizeMax : Nat := 2 ^ 64 - 1

inductive JobResult where
  | json (v : Value)
  | redirect (uri : String)
  | binary (status : Nat) (contentType : String) (body : List UInt8)

inductive JobState where
  | pending
  | processing
  | completed
  | failed
  | cancelled
deriving DecidableEq

/-- Whether a job in this state is done. -/
def JobState.terminal : JobState -> Bool
  | pending => false
  | processing => false
  | completed => true
  | failed => true
  | cancelled => true

structure LoggedAccount where
  id : String
  label : String
  role : String

/-- What an operation under {lit}`timeout` comes to. -/
inductive JobOutcome where
  | done (result : JobResult)
  | refused (e : AppError)
  | elapsed

structure Job (Id : Type) where
  id : Id
  state : JobState
  result : Option JobResult
  error : Option String
  errorStatus : Nat
  errorRetryAfter : Option Nat
  createdAt : Int
  finishedAt : Option Int
  lastPolledAt : Int
  accounts : List LoggedAccount

/-- {lit}`app_error_parts` -/
def appErrorParts (e : AppError) : Nat × String :=
  (e.status,
    match e with
    | .rateLimited _ => "Tidal rate limited the account"
    | .timeout => "Upstream timeout"
    | .notFound d => d
    | .badRequest d => d
    | .unauthorized d => d
    | .upstreamError _ d => d
    | .badGateway d => d
    | .previewOnly d => d
    | .serviceUnavailable d => d
    | .serviceUnavailableRetry d _ => d
    | .accountsBusy d _ => d
    | .internal d => d)

/-!
## What is written to a job
-/

namespace Job

variable {Id : Type}

/-- The job that {lit}`dispatch` inserts. -/
def new (id : Id) (now : Int) : Job Id where
  id := id
  state := .pending
  result := none
  error := none
  errorStatus := 500
  errorRetryAfter := none
  createdAt := now
  finishedAt := none
  lastPolledAt := now
  accounts := []

def waiting (j : Job Id) : Bool :=
  j.state = .pending

/-- The expiry of {lit}`prune_sync`. -/
def expire (now : Int) (j : Job Id) : Job Id :=
  if j.state = .pending ∧ pendingTimeoutSecs < now - j.lastPolledAt then
    { j with
      state := .cancelled
      error := some "Playback request expired in queue (client stopped polling)"
      finishedAt := some now }
  else
    j

/-- The heartbeat of {lit}`get_playback_request`. -/
def poll (now : Int) (j : Job Id) : Job Id :=
  if j.state = .pending ∨ j.state = .processing then
    { j with lastPolledAt := now }
  else
    j

/-- {lit}`cancel_playback_request` -/
def cancel (now : Int) (j : Job Id) : Job Id :=
  if j.state = .pending ∨ j.state = .processing then
    { j with state := .cancelled, finishedAt := some now }
  else
    j

/-- {lit}`clear_playback_queue` -/
def clear (now : Int) (j : Job Id) : Job Id :=
  if j.state = .pending ∨ j.state = .processing then
    { j with
      state := .cancelled
      error := some "Playback queue cleared by admin"
      finishedAt := some now }
  else
    j

/-- The worker starts the operation. -/
def start (j : Job Id) : Job Id :=
  { j with state := .processing }

/-- The worker keeps what the operation came to, unless its client is gone. -/
def finish (out : JobOutcome) (accounts : List LoggedAccount) (now : Int) (j : Job Id) :
    Job Id :=
  if j.state = .cancelled then
    { j with accounts := accounts }
  else
    match out with
    | .done result =>
        { j with
          accounts := accounts
          state := .completed
          result := some result
          finishedAt := some now }
    | .refused e =>
        { j with
          accounts := accounts
          state := .failed
          error := some (appErrorParts e).2
          errorStatus := (appErrorParts e).1
          errorRetryAfter :=
            match e with
            | .rateLimited secs => some secs
            | .accountsBusy _ secs => some secs
            | _ => none
          finishedAt := some now }
    | .elapsed =>
        { j with
          accounts := accounts
          state := .failed
          error := some (appErrorParts .timeout).2
          errorStatus := (appErrorParts .timeout).1
          finishedAt := some now }

theorem expire_id (now : Int) (j : Job Id) : (j.expire now).id = j.id := by
  unfold expire
  split
  · rfl
  · rfl

theorem poll_id (now : Int) (j : Job Id) : (j.poll now).id = j.id := by
  unfold poll
  split
  · rfl
  · rfl

theorem cancel_id (now : Int) (j : Job Id) : (j.cancel now).id = j.id := by
  unfold cancel
  split
  · rfl
  · rfl

theorem clear_id (now : Int) (j : Job Id) : (j.clear now).id = j.id := by
  unfold clear
  split
  · rfl
  · rfl

theorem start_id (j : Job Id) : j.start.id = j.id := rfl

theorem finish_id (out : JobOutcome) (accounts : List LoggedAccount) (now : Int)
    (j : Job Id) : (j.finish out accounts now).id = j.id := by
  unfold finish
  split
  · rfl
  · cases out with
    | done result =>
        rfl
    | refused e =>
        rfl
    | elapsed =>
        rfl

end Job

/-!
## The queue
-/

/-- The counter of slots and the jobs; {lit}`drawn` are the identifiers of
{lit}`Uuid::new_v4` so far, which are never the same twice. -/
structure PlaybackQueue (Id : Type) where
  inflight : Nat
  jobs : Table (Job Id) Job.id
  drawn : List Id

namespace PlaybackQueue

variable {Id : Type}

def new : PlaybackQueue Id where
  inflight := 0
  jobs := Table.empty
  drawn := []

/-- The saturating decrement of {lit}`release`. -/
def release (q : PlaybackQueue Id) : PlaybackQueue Id :=
  { q with inflight := q.inflight - 1 }

/-- {lit}`over_capacity`, with its saturating product. -/
def overCapacity (pending pool : Nat) : Bool :=
  min (max pool 1 * maxQueueFactor) usizeMax ≤ pending

/-- {lit}`capacity(..).unwrap_or(usize::MAX)` -/
def capacity (pool perAccount : Nat) : Nat :=
  if 0 < perAccount then min (pool * perAccount) usizeMax else usizeMax

def pendingCount (q : PlaybackQueue Id) : Nat :=
  q.jobs.rows.countP Job.waiting

/-- {lit}`prune_sync` -/
def prune (q : PlaybackQueue Id) (now : Int) : PlaybackQueue Id :=
  { q with
    jobs := (q.jobs.retain fun j =>
      j.finishedAt.elim true fun finished => now - jobTtlSecs ≤ finished).mapRows
        (Job.expire now) (Job.expire_id now) }

def clear (q : PlaybackQueue Id) (now : Int) : PlaybackQueue Id :=
  { q with jobs := q.jobs.mapRows (Job.clear now) (Job.clear_id now) }

variable [DecidableEq Id]

def stateOf (q : PlaybackQueue Id) (id : Id) : Option JobState :=
  (q.jobs.lookup id).map Job.state

def poll (q : PlaybackQueue Id) (id : Id) (now : Int) : PlaybackQueue Id :=
  { q with jobs := q.jobs.update id (Job.poll now) (Job.poll_id now) }

def cancel (q : PlaybackQueue Id) (id : Id) (now : Int) : PlaybackQueue Id :=
  { q with jobs := q.jobs.update id (Job.cancel now) (Job.cancel_id now) }

def start (q : PlaybackQueue Id) (id : Id) : PlaybackQueue Id :=
  { q with jobs := q.jobs.update id Job.start Job.start_id }

def finish (q : PlaybackQueue Id) (id : Id) (out : JobOutcome)
    (accounts : List LoggedAccount) (now : Int) : PlaybackQueue Id :=
  { q with
    jobs := q.jobs.update id (Job.finish out accounts now)
      (Job.finish_id out accounts now) }

def pushTask (q : PlaybackQueue Id) (id : Id) (now : Int) : PlaybackQueue Id :=
  { q with jobs := q.jobs.put (Job.new id now) }

/-- The pending jobs as {lit}`pending_position` sorts them. -/
def pendingOrder (q : PlaybackQueue Id) (order : Table.Iteration (Job Id)) :
    List (Job Id) :=
  ((order.visit q.jobs.rows).filter Job.waiting).insertionSort
    fun j j' => j.createdAt ≤ j'.createdAt

/-- {lit}`pending_position` -/
def pendingPosition (q : PlaybackQueue Id) (order : Table.Iteration (Job Id))
    (id : Id) : Nat :=
  match q.jobs.lookup id with
  | none => 0
  | some me =>
      if me.state = .pending then
        (((q.pendingOrder order).findIdx? fun j => j.id = id).map (· + 1)).getD 0
      else
        0

end PlaybackQueue

/-!
## Requests and workers
-/

/-- Where a worker is: between the await points of its loop, at its accesses to
the counter, and in the sections under the lock of the jobs. -/
inductive WorkerStage where
  | checking
  | measuring
  /-- In {lit}`try_acquire`, with the last value read if it leaves a slot. -/
  | claiming (pool : Nat) (current : Option (Fin (max pool 1)))
  | sleeping
  | admitted
  | running
  | finishing (out : JobOutcome) (accounts : List LoggedAccount)
  /-- About to drop its guard and return. -/
  | leaving
  | returned

/-- Where a request in {lit}`dispatch` is; its last step goes on as the worker
that it spawns. -/
inductive PlaybackTask (Id : Type) where
  | arrived
  | pruned
  | claiming (accounts pool : Nat) (current : Option (Fin (max pool 1)))
  | serving
  | served (out : JobOutcome)
  | refused (accounts pool : Nat)
  | queueing (id : Id) (createdAt : Int) (accounts pool : Nat)
  | enqueued (id : Id) (accounts : Nat)
  | answered
  | worker (id : Id) (stage : WorkerStage)
  /-- Cancelled at an await point, or panicked. -/
  | dropped

/-- What {lit}`dispatch` answers. -/
inductive PlaybackReply (Id : Type) where
  | cached (result : JobResult)
  | result (result : JobResult)
  | error (e : AppError)
  | pending (id : Id) (position accounts active : Nat)

def PlaybackReply.ofOutcome {Id : Type} : JobOutcome -> PlaybackReply Id
  | .done answer => .result answer
  | .refused e => .error e
  | .elapsed => .error .timeout

/-- What a task goes on with.  A relaxed load may read any value. -/
inductive PlaybackEvent (Id : Type) where
  | prune (now : Int)
  | hit (result : JobResult)
  | measure (accounts perAccount : Nat)
  | load (seen : Nat)
  | swap
  | outcome (out : JobOutcome) (accounts : List LoggedAccount)
  | leave
  | draw (id : Id) (now : Int)
  | enqueue
  | spawn (order : Table.Iteration (Job Id)) (active : Nat)
  | check
  | wake
  | start
  | finish (now : Int)

namespace WorkerStage

/-- The stages in which a worker has a {lit}`SlotGuard`. -/
def holdsSlot : WorkerStage -> Bool
  | admitted => true
  | running => true
  | finishing _ _ => true
  | leaving => true
  | _ => false

variable {Id : Type} [DecidableEq Id]

def advance (q : PlaybackQueue Id) (id : Id) :
    WorkerStage -> PlaybackEvent Id -> Option (PlaybackQueue Id × WorkerStage)
  | checking, .check =>
      match q.stateOf id with
      | none => some (q, returned)
      | some .cancelled => some (q, returned)
      | some _ => some (q, measuring)
  | measuring, .measure accounts perAccount =>
      some (q, claiming (PlaybackQueue.capacity accounts perAccount) none)
  | claiming pool _, .load seen =>
      if h : seen < max pool 1 then
        some (q, claiming pool (some ⟨seen, h⟩))
      else
        some (q, sleeping)
  | claiming _ (some current), .swap =>
      if q.inflight = current then
        some ({ q with inflight := current + 1 }, admitted)
      else
        none
  | sleeping, .wake => some (q, checking)
  | admitted, .start =>
      match q.stateOf id with
      | none => some (q, leaving)
      | some .cancelled => some (q, leaving)
      | some _ => some (q.start id, running)
  | running, .outcome out accounts => some (q, finishing out accounts)
  | finishing out accounts, .finish now => some (q.finish id out accounts now, leaving)
  | leaving, .leave => some (q.release, returned)
  | _, _ => none

end WorkerStage

namespace PlaybackTask

variable {Id : Type}

def holdsSlot : PlaybackTask Id -> Bool
  | serving => true
  | served _ => true
  | worker _ stage => stage.holdsSlot
  | _ => false

variable [DecidableEq Id]

def advance (q : PlaybackQueue Id) :
    PlaybackTask Id -> PlaybackEvent Id ->
      Option (PlaybackQueue Id × PlaybackTask Id × List (PlaybackReply Id))
  | arrived, .prune now => some (q.prune now, pruned, [])
  | pruned, .hit result => some (q, answered, [.cached result])
  | pruned, .measure accounts perAccount =>
      some (q, claiming accounts (PlaybackQueue.capacity accounts perAccount) none, [])
  | claiming accounts pool _, .load seen =>
      if h : seen < max pool 1 then
        some (q, claiming accounts pool (some ⟨seen, h⟩), [])
      else
        some (q, refused accounts pool, [])
  | claiming _ _ (some current), .swap =>
      if q.inflight = current then
        some ({ q with inflight := current + 1 }, serving, [])
      else
        none
  | serving, .outcome out _ => some (q, served out, [])
  | served out, .leave => some (q.release, answered, [PlaybackReply.ofOutcome out])
  | refused accounts pool, .draw id now =>
      if id ∈ q.drawn then
        none
      else
        some ({ q with drawn := id :: q.drawn }, queueing id now accounts pool, [])
  | queueing id createdAt accounts pool, .enqueue =>
      if PlaybackQueue.overCapacity q.pendingCount pool then
        let most := min (max pool 1 * maxQueueFactor) usizeMax
        some (q, answered, [.error (.accountsBusy
          s!"Playback queue full ({q.pendingCount}/{most}); retry shortly" 5)])
      else
        some (q.pushTask id createdAt, enqueued id accounts, [])
  | enqueued id accounts, .spawn order active =>
      some (q, worker id .checking,
        [.pending id (q.pendingPosition order id) accounts active])
  | worker id stage, e =>
      (stage.advance q id e).map fun next => (next.1, worker id next.2, [])
  | _, _ => none

end PlaybackTask

/-!
## Steps
-/

structure PlaybackState (Id : Type) where
  queue : PlaybackQueue Id
  tasks : List (PlaybackTask Id)
  replies : List (PlaybackReply Id)

/-- The sections of the handlers under the lock of the jobs are actions of their
own: the reaper's sweep, the heartbeat of a poll, a cancellation, the drain. -/
inductive PlaybackAction (Id : Type) where
  | arrive
  | resume (k : Nat) (e : PlaybackEvent Id)
  | drop (k : Nat)
  | prune (now : Int)
  | poll (id : Id) (now : Int)
  | cancel (id : Id) (now : Int)
  | clear (now : Int)

namespace PlaybackState

variable {Id : Type}

def new : PlaybackState Id where
  queue := PlaybackQueue.new
  tasks := []
  replies := []

variable [DecidableEq Id]

def step (s : PlaybackState Id) : PlaybackAction Id -> Option (PlaybackState Id)
  | .arrive => some { s with tasks := s.tasks ++ [PlaybackTask.arrived] }
  | .resume k e =>
      match s.tasks[k]? with
      | none => none
      | some t =>
          (t.advance s.queue e).map fun next =>
            { queue := next.1
              tasks := s.tasks.set k next.2.1
              replies := s.replies ++ next.2.2 }
  | .drop k =>
      match s.tasks[k]? with
      | none => none
      | some t =>
          some
            { s with
              queue := if t.holdsSlot then s.queue.release else s.queue
              tasks := s.tasks.set k .dropped }
  | .prune now => some { s with queue := s.queue.prune now }
  | .poll id now => some { s with queue := s.queue.poll id now }
  | .cancel id now => some { s with queue := s.queue.cancel id now }
  | .clear now => some { s with queue := s.queue.clear now }

end PlaybackState

/-- The playback queue with its requests, workers and handlers. -/
def playback (Id : Type) [DecidableEq Id] :
    System (PlaybackState Id) (PlaybackAction Id) where
  step := PlaybackState.step

end HifiApi
