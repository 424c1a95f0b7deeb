import HifiApi.Lib.Expiring
import HifiApi.Lib.Grounds
import HifiApi.Playback.CacheKey
import HifiApi.Playback.Transitions

/-!
# Requests and the answers kept for them

The playback queue with the operations of its requests and the cache of results.  A
request reads the preferences of the server when it has swept the jobs, and looks for
an answer under the key of its operation; whoever runs an operation keeps its result
under the key its own request had.
-/

namespace HifiApi

/-- {lit}`TRACK_CACHE_SECS`, in milliseconds. -/
def trackCacheMs : Nat := 120 * 1000

/-- An operation, and the preferences that its request read. -/
structure Question where
  op : PlaybackOp
  preferences : Preferences

def Question.key (unprintable : Char -> Bool) (a : Question) : Option String :=
  a.op.key unprintable a.preferences

structure CachedPlayback (Id : Type) where
  base : PlaybackState Id
  /-- The operations of the requests, with the preferences once they are read. -/
  requests : List (PlaybackOp × Option Preferences)
  results : ExpiringCache String JobResult
  cacheHits : Nat
  /-- Milliseconds of {lit}`Instant`. -/
  clock : Nat

/-- A cache may evict any key at any time. -/
inductive CachedAction (Id : Type) where
  | arrive (op : PlaybackOp)
  | sweep (k : Nat) (now : Int) (p : Preferences)
  | hit (k : Nat)
  | miss (k : Nat) (accounts perAccount : Nat)
  | outcome (k : Nat) (out : JobOutcome) (accounts : List LoggedAccount)
  | other (a : PlaybackAction Id)
  | evict (key : String)
  | clearCache
  | elapse (ms : Nat)

/-- What a run notes of answers: one kept, one served, one looked for in vain, and
what leaves the cache. -/
inductive AnswerMark where
  | stored (k : Nat) (a : Question) (answer : JobResult) (since : Nat)
  | served (k : Nat) (b : Question) (answer : JobResult) (now : Nat)
  | missed (k : Nat) (b : Question) (now : Nat)
  | evicted (key : String)
  | cleared

def AnswerMark.isServed : AnswerMark -> Bool
  | served _ _ _ _ => true
  | _ => false

/-- What a mark says of the cache. -/
def AnswerMark.event (unprintable : Char -> Bool) :
    AnswerMark -> Option (CacheEvent String JobResult)
  | stored _ a answer since =>
      (a.key unprintable).map fun key => .kept key ⟨answer, since⟩
  | served _ _ _ _ => none
  | missed _ _ _ => none
  | evicted key => some (.dropped key)
  | cleared => some .cleared

namespace CachedPlayback

variable {Id : Type}

def new : CachedPlayback Id where
  base := PlaybackState.new
  requests := []
  results := .empty
  cacheHits := 0
  clock := 0

def question (s : CachedPlayback Id) (k : Nat) : Option Question :=
  match s.requests[k]? with
  | some (op, some p) => some ⟨op, p⟩
  | _ => none

variable (unprintable : Char -> Bool)

/-- What {lit}`results.get` finds for a request. -/
def found (s : CachedPlayback Id) (b : Question) : Option JobResult :=
  (b.key unprintable).bind fun key => s.results.get trackCacheMs s.clock key

/-- What {lit}`results.insert` keeps of an outcome. -/
def keep (s : CachedPlayback Id) (k : Nat) : JobOutcome -> List AnswerMark
  | .done answer =>
      match s.question k with
      | none => []
      | some a => if (a.key unprintable).isSome then [.stored k a answer s.clock] else []
  | .refused _ => []
  | .elapsed => []

/-- The actions of the queue that have to do with the cache have names of their own. -/
def elsewhere (s : CachedPlayback Id) : PlaybackAction Id -> Bool
  | .arrive => false
  | .resume k e =>
      match e with
      | .prune _ => false
      | .hit _ => false
      | .outcome _ _ => false
      | .measure _ _ =>
          match s.base.tasks[k]? with
          | some .pruned => false
          | _ => true
      | _ => true
  | _ => true

/-- The cache after what is noted of it. -/
def noting (s : CachedPlayback Id) (marks : List AnswerMark) :
    ExpiringCache String JobResult :=
  (marks.filterMap (AnswerMark.event unprintable)).foldl .apply s.results

variable [DecidableEq Id]

def step (s : CachedPlayback Id) : CachedAction Id -> Option (CachedPlayback Id)
  | .arrive op =>
      (s.base.step .arrive).map fun base =>
        { s with base := base, requests := s.requests ++ [(op, none)] }
  | .sweep k now p =>
      (s.base.step (.resume k (.prune now))).map fun base =>
        { s with base := base, requests := s.requests.modify k fun r => (r.1, some p) }
  | .hit k =>
      match s.question k with
      | none => none
      | some b =>
          match s.found unprintable b with
          | none => none
          | some answer =>
              (s.base.step (.resume k (.hit answer))).map fun base =>
                { s with base := base, cacheHits := s.cacheHits + 1 }
  | .miss k accounts perAccount =>
      match s.base.tasks[k]?, s.question k with
      | some .pruned, some b =>
          match s.found unprintable b with
          | none =>
              (s.base.step (.resume k (.measure accounts perAccount))).map fun base =>
                { s with base := base }
          | some _ => none
      | _, _ => none
  | .outcome k out accounts =>
      (s.base.step (.resume k (.outcome out accounts))).map fun base =>
        { s with base := base, results := s.noting unprintable (s.keep unprintable k out) }
  | .other a =>
      if s.elsewhere a then
        (s.base.step a).map fun base => { s with base := base }
      else
        none
  | .evict key => some { s with results := s.results.apply (.dropped key) }
  | .clearCache => some { s with results := s.results.apply .cleared }
  | .elapse ms => some { s with clock := s.clock + ms }

def marks (s : CachedPlayback Id) : CachedAction Id -> List AnswerMark
  | .hit k =>
      match s.question k with
      | none => []
      | some b =>
          match s.found unprintable b with
          | none => []
          | some answer => [.served k b answer s.clock]
  | .miss k _ _ =>
      match s.question k with
      | none => []
      | some b => [.missed k b s.clock]
  | .outcome k out _ => s.keep unprintable k out
  | .evict key => [.evicted key]
  | .clearCache => [.cleared]
  | _ => []

/-- The playback queue with its cache of results. -/
def system (Id : Type) [DecidableEq Id] :
    System (CachedPlayback Id) (CachedAction Id) where
  step := step unprintable

end CachedPlayback

end HifiApi
