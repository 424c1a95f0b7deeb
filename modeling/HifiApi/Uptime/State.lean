import HifiApi.Lib.Log
import HifiApi.Lib.Spans

/-!
# Uptime of an account

The events of an account's availability, in memory and in the table
{lit}`account_uptime_events`.  Times are seconds.  The table hands out row
numbers that are never used twice; a transaction that fails leaves no trace.
-/

namespace HifiApi

/-- {lit}`WINDOW_SECS` -/
def windowSecs : Int := 7 * 24 * 60 * 60

inductive UptimeStatus where
  | up
  | down
  | waiting
deriving DecidableEq

/-- What {lit}`observe` is told about an account. -/
structure Observation where
  active : Bool
  tokenReady : Bool
  tokenExpiresAt : Option Int
deriving DecidableEq

namespace Observation

/-- {lit}`observe` takes a token for ready only on an active account, and keeps
the expiry only of a ready token. -/
def normal (o : Observation) : Observation where
  active := o.active
  tokenReady := o.active && o.tokenReady
  tokenExpiresAt := if o.active && o.tokenReady then o.tokenExpiresAt else none

def status (o : Observation) (now : Int) : UptimeStatus :=
  if !o.active then
    .down
  else if !o.tokenReady || o.tokenExpiresAt.any fun expires => expires ≤ now then
    .waiting
  else
    .up

end Observation

/-- {lit}`Event`: an observation with its time. -/
structure UptimeEvent where
  observedAt : Int
  seen : Observation
deriving DecidableEq

namespace UptimeEvent

def status (e : UptimeEvent) (now : Int) : UptimeStatus :=
  e.seen.status now

end UptimeEvent

/-!
## The table of events
-/

/-- {lit}`sqlx::Error` -/
inductive SqlxError where
  | failed
deriving DecidableEq

structure UptimeRow (Id : Type) where
  id : Nat
  accountId : Id
  event : UptimeEvent

/-- The rows in the order of their numbers, and the last number given out. -/
structure UptimeTable (Id : Type) where
  rows : List (UptimeRow Id)
  lastId : Nat
  ascending : rows.Pairwise fun r r' => r.id < r'.id
  bounded : forall r, r ∈ rows -> r.id ≤ lastId

namespace UptimeRow

variable {Id : Type}

/-- {lit}`ORDER BY observed_at, id` -/
def before (r r' : UptimeRow Id) : Prop :=
  r.event.observedAt < r'.event.observedAt ∨
    (r.event.observedAt = r'.event.observedAt ∧ r.id ≤ r'.id)

instance (r r' : UptimeRow Id) : Decidable (before r r') :=
  inferInstanceAs (Decidable (_ ∨ _))

end UptimeRow

namespace UptimeTable

variable {Id : Type}

def empty : UptimeTable Id where
  rows := []
  lastId := 0
  ascending := List.Pairwise.nil
  bounded := by simp

def insert (t : UptimeTable Id) (id : Id) (e : UptimeEvent) : UptimeTable Id where
  rows := t.rows ++ [{ id := t.lastId + 1, accountId := id, event := e }]
  lastId := t.lastId + 1
  ascending := by
    rw [List.pairwise_append]
    refine ⟨t.ascending, List.pairwise_singleton _ _, ?_⟩
    intro r hr r' hr'
    rw [List.mem_singleton.mp hr']
    exact Nat.lt_succ_of_le (t.bounded r hr)
  bounded := by
    intro r hr
    rcases List.mem_append.mp hr with hold | hnew
    · exact Nat.le_succ_of_le (t.bounded r hold)
    · rw [List.mem_singleton.mp hnew]

def deleteWhere (t : UptimeTable Id) (p : UptimeRow Id -> Bool) :
    UptimeTable Id where
  rows := t.rows.filter fun r => !p r
  lastId := t.lastId
  ascending := t.ascending.filter _
  bounded := fun r hr => t.bounded r (List.mem_of_mem_filter hr)

variable [DecidableEq Id]

def rowsOf (t : UptimeTable Id) (id : Id) : List (UptimeRow Id) :=
  t.rows.filter fun r => r.accountId = id

/-- {lit}`SELECT id ... WHERE account_id = ? AND observed_at < ? ORDER BY`
{lit}`observed_at DESC, id DESC LIMIT 1` -/
def newestBefore (t : UptimeTable Id) (id : Id) (cutoff : Int) : Option Nat :=
  ((((t.rowsOf id).filter fun r =>
    r.event.observedAt < cutoff).insertionSort UptimeRow.before).getLast?).map
      UptimeRow.id

/-- The {lit}`DELETE` of {lit}`observe`: rows before the cutoff, except for the
newest one of them.  Without a newest one the comparison is {lit}`NULL`. -/
def deleteOld (t : UptimeTable Id) (id : Id) (cutoff : Int) : UptimeTable Id :=
  t.deleteWhere fun r =>
    r.accountId = id && decide (r.event.observedAt < cutoff) &&
      (t.newestBefore id cutoff).any fun newest => r.id ≠ newest

/-- The {lit}`DELETE` of {lit}`reset`. -/
def deleteAccount (t : UptimeTable Id) (id : Id) : UptimeTable Id :=
  t.deleteWhere fun r => r.accountId = id

/-- The query of {lit}`load`. -/
def selectFrom (t : UptimeTable Id) (id : Id) (cutoff : Int) :
    List (UptimeRow Id) :=
  ((t.rowsOf id).filter fun r =>
    cutoff ≤ r.event.observedAt ∨ t.newestBefore id cutoff = some r.id).insertionSort
      UptimeRow.before

end UptimeTable

/-!
## The history in memory
-/

structure AccountUptime where
  events : List UptimeEvent
deriving DecidableEq

structure UptimeSegment where
  start : Int
  stop : Int
  active : Option Bool
  status : Option UptimeStatus
deriving DecidableEq

structure UptimeSummary where
  currentStatus : Option UptimeStatus
  windowStart : Int
  windowEnd : Int
  upSeconds : Int
  downSeconds : Int
  waitingSeconds : Int
  unknownSeconds : Int
  segments : List UptimeSegment
deriving DecidableEq

namespace UptimeSegment

/-- {lit}`append_segment` -/
def append (segments : List UptimeSegment) (start stop : Int)
    (event : Option UptimeEvent) : List UptimeSegment :=
  let status := event.map fun e => e.status start
  match segments.getLast? with
  | some last =>
      if last.stop = start ∧ last.status = status then
        segments.dropLast ++ [{ last with stop := stop }]
      else
        segments ++ [⟨start, stop, event.map fun e => e.seen.active, status⟩]
  | none => segments ++ [⟨start, stop, event.map fun e => e.seen.active, status⟩]

/-- {lit}`append_interval` -/
def appendInterval (segments : List UptimeSegment) (start stop : Int)
    (event : Option UptimeEvent) : List UptimeSegment :=
  match (event.filter fun e => e.seen.active && e.seen.tokenReady).bind fun e =>
      e.seen.tokenExpiresAt.filter fun expires =>
        decide (start < expires) && decide (expires < stop) with
  | some expires => append (append segments start expires event) expires stop event
  | none => append segments start stop event

/-- The loop of {lit}`summary` over the events. -/
def walk (now : Int) : List UptimeEvent -> Int -> Option UptimeEvent ->
    List UptimeSegment -> Int × Option UptimeEvent × List UptimeSegment
  | [], cursor, previous, segments => (cursor, previous, segments)
  | e :: rest, cursor, previous, segments =>
      if now < e.observedAt then
        (cursor, previous, segments)
      else if cursor < e.observedAt then
        walk now rest e.observedAt (some e)
          (appendInterval segments cursor e.observedAt previous)
      else
        walk now rest cursor (some e) segments

def secondsOf (status : UptimeStatus) (segments : List UptimeSegment) : Int :=
  (segments.map fun s => if s.status = some status then s.stop - s.start else 0).sum

end UptimeSegment

namespace AccountUptime

/-- {lit}`AccountUptime::default()` -/
def new : AccountUptime where
  events := []

/-- {lit}`prune`; the events are in order, as {lit}`partition_point` needs. -/
def prune (u : AccountUptime) (now : Int) : AccountUptime where
  events := Log.prune UptimeEvent.observedAt (now - windowSecs) u.events

/-- {lit}`observe` without a database, and the event that it adds if there is
one. -/
def note (u : AccountUptime) (o : Observation) (now : Int) :
    AccountUptime × Option UptimeEvent :=
  let u := u.prune now
  if u.events.getLast?.any fun e => e.seen = o.normal then
    (u, none)
  else
    let observedAt := u.events.getLast?.elim now fun e => max now e.observedAt
    let event : UptimeEvent := { observedAt := observedAt, seen := o.normal }
    ({ events := u.events ++ [event] }, some event)

def summary (u : AccountUptime) (now : Int) : AccountUptime × UptimeSummary :=
  let u := u.prune now
  let start := now - windowSecs
  let (cursor, previous, segments) :=
    UptimeSegment.walk now u.events start none []
  let segments :=
    if cursor < now then
      UptimeSegment.appendInterval segments cursor now previous
    else
      segments
  let up := UptimeSegment.secondsOf .up segments
  let down := UptimeSegment.secondsOf .down segments
  let waiting := UptimeSegment.secondsOf .waiting segments
  (u,
    { currentStatus := previous.map fun e => e.status now
      windowStart := start
      windowEnd := now
      upSeconds := up
      downSeconds := down
      waitingSeconds := waiting
      unknownSeconds := windowSecs - up - down - waiting
      segments := segments })

variable {Id : Type} [DecidableEq Id]

/-- {lit}`load` -/
def load (t : UptimeTable Id) (id : Id) (now : Int) : AccountUptime where
  events := (t.selectFrom id (now - windowSecs)).map UptimeRow.event

/-- {lit}`observe` with a database.  A transaction that fails is an error after
the event has gone into memory. -/
def observe (u : AccountUptime) (t : UptimeTable Id) (id : Id) (o : Observation)
    (now : Int) (commits : Bool) :
    AccountUptime × UptimeTable Id × Except SqlxError Unit :=
  match u.note o now with
  | (u', none) => (u', t, .ok ())
  | (u', some event) =>
      if commits then
        (u', (t.insert id event).deleteOld id (now - windowSecs), .ok ())
      else
        (u', t, .error .failed)

/-- {lit}`reset` with a database. -/
def reset (u : AccountUptime) (t : UptimeTable Id) (id : Id) (commits : Bool) :
    AccountUptime × UptimeTable Id × Except SqlxError Unit :=
  if commits then
    (new, t.deleteAccount id, .ok ())
  else
    (u, t, .error .failed)

end AccountUptime

end HifiApi
