import HifiApi.Cache.Singleflight
import HifiApi.Lib.FormUrlencoded

/-!
# What the metadata cache serves

A request looks for a cached answer, then for a cached error, before it waits
for the guard of its key and again under the guard; only then its handler runs.
A stale answer is served at once and refreshed in the background.  Every lookup,
every reading of the clock and every insertion is a step of its own, so that
other requests may come between any two of them.
-/

namespace HifiApi

open ResponseCache

/-- The library that reads and writes the pairs of a query. -/
structure QueryCodec where
  parse : String -> List (String × String)
  serialize : List (String × String) -> String
  parse_serialize : forall pairs, parse (serialize pairs) = pairs

/-- A request; its path holds no question mark. -/
structure MetadataRequest where
  method : String
  path : String
  query : Option String
  path_plain : '?' ∉ path.toList

/-- What the {lit}`X-Cache` header says. -/
inductive CacheLabel where
  | hit
  | stale
  | negative
  | miss
  deriving DecidableEq

def CacheLabel.text : CacheLabel -> String
  | .hit => "HIT"
  | .stale => "STALE"
  | .negative => "NEGATIVE"
  | .miss => "MISS"

/-- An answer the cache has built. -/
structure Reply where
  status : Nat
  headers : List (String × String)
  body : Bytes

namespace ResponseCache

/-!
## Keys
-/

def cacheablePrefixes : List String :=
  ["/info/", "/search/", "/album/", "/artist/", "/mix/", "/playlist/", "/cover/",
    "/lyrics/", "/recommendations/"]

def cacheable (path : String) : Bool :=
  cacheablePrefixes.any fun p => startsWith path p

/-- The order pairs are sorted in. -/
def pairLe (a b : String × String) : Bool :=
  decide (a.1 < b.1) || (decide (a.1 = b.1) && decide (a.2 ≤ b.2))

def normalizeQuery (codec : QueryCodec) (query : Option String) : String :=
  let q := query.getD ""
  if q = "" then ""
  else
    let pairs := codec.parse q
    if pairs.length < 2 then codec.serialize pairs
    else codec.serialize (pairs.mergeSort pairLe)

end ResponseCache

namespace MetadataRequest

def usesCache (r : MetadataRequest) : Bool :=
  decide (r.method = "GET") && cacheable r.path

def key (codec : QueryCodec) (r : MetadataRequest) : String :=
  r.path ++ "?" ++ normalizeQuery codec r.query

/-- The decoded pairs of the query. -/
def pairs (codec : QueryCodec) (r : MetadataRequest) : List (String × String) :=
  codec.parse (r.query.getD "")

/-- Requests with one path and the same pairs, in any order. -/
def Alike (codec : QueryCodec) (r r' : MetadataRequest) : Prop :=
  r.path = r'.path ∧ (r.pairs codec).Perm (r'.pairs codec)

end MetadataRequest

namespace ResponseCache

/-!
## Building an answer
-/

def eqIgnoreAsciiCase (a b : String) : Bool :=
  a.toList.map Char.toLower == b.toList.map Char.toLower

/-- The headers of an answer without those that frame its body. -/
def unframed (headers : List (String × String)) : List (String × String) :=
  headers.filter fun h =>
    !(eqIgnoreAsciiCase h.1 "content-length" ||
      eqIgnoreAsciiCase h.1 "transfer-encoding")

def buildResponse (status : Nat) (headers : List (String × String)) (body : Bytes)
    (label : CacheLabel) : Reply where
  status
  headers := unframed headers ++ [("x-cache", label.text)]
  body

/-- The answer built from what is kept. -/
def Kept.reply (label : CacheLabel) : Kept -> Option Reply
  | .cached entry => some (buildResponse entry.status entry.headers entry.body label)
  | .negative entry => some (buildResponse entry.status entry.headers entry.body label)
  | .nothing => none

end ResponseCache

/-!
## The states of a request
-/

/-- How far a request has come with its lookups. -/
inductive Looking where
  | atCache
  | found (hit : CachedResponse)
  /-- The clock has been read once, and is read again. -/
  | foundAgain (hit : CachedResponse) (first : Int)
  | atNegative
  | foundNegative (neg : NegativeEntry)

/-- An inline miss, or the background refresh of a stale answer. -/
structure ServingJob where
  request : MetadataRequest
  background : Bool

/-- What a request does under its guard. -/
inductive ServingStage where
  | looking (stage : Looking)
  | running
  | keeping (response : Streamed)
  /-- The body has been read; the entry is about to be inserted. -/
  | storing (response : Streamed) (kept : Kept)

/-- An answer sent to a client, and the reading of the clock that has decided
on it. -/
structure Served where
  request : MetadataRequest
  label : CacheLabel
  readAt : Int
  reply : Reply

/-- An answer of the inner handler. -/
structure InnerAnswer where
  request : MetadataRequest
  response : Streamed

structure StoredAnswer where
  answer : InnerAnswer
  storedAt : Int

structure ServingWorld where
  /-- The clock in seconds. -/
  now : Int
  cache : String -> Option CachedResponse
  negative : String -> Option NegativeEntry
  /-- Requests before they look their guard up. -/
  arriving : List (MetadataRequest × Looking)
  called : List ServingJob
  inflight : LockCache String ServingJob ServingStage
  /-- All answers of the inner handler so far. -/
  answers : List InnerAnswer
  /-- All answers inserted into one of the caches so far. -/
  stored : List StoredAnswer
  /-- All labelled answers sent so far. -/
  served : List Served

inductive ServingAction where
  | request (r : MetadataRequest)
  | look (k : Nat)
  | lookUp (k : Nat)
  | lock (i : Nat)
  | tryLock (i : Nat)
  | lookInside (i : Nat)
  | answer (i : Nat) (response : Streamed)
  | collect (i : Nat)
  | store (i : Nat)
  /-- The client of a request hangs up. -/
  | hangUpEarly (k : Nat)
  | hangUpCalled (k : Nat)
  | hangUp (i : Nat)
  /-- An answer expires, is evicted or is invalidated. -/
  | forget (key : String)
  | forgetNegative (key : String)
  /-- The cache of the guards drops one. -/
  | dropGuard (key : String)
  | wait (ms : Nat)
  | readClock (now : Int)

/-- What a lookup leads to. -/
inductive Looked where
  | goesOn (stage : Looking)
  | serves (served : Served) (refresh : Bool)
  | misses

namespace ServingWorld

def start : ServingWorld where
  now := 0
  cache := fun _ => none
  negative := fun _ => none
  arriving := []
  called := []
  inflight := .start
  answers := []
  stored := []
  served := []

section Steps

variable (codec : QueryCodec)

def serveHit (r : MetadataRequest) (hit : CachedResponse) (label : CacheLabel)
    (readAt : Int) : Served :=
  ⟨r, label, readAt, buildResponse hit.status hit.headers hit.body label⟩

/-- One step of the lookups before the guard. -/
def look (s : ServingWorld) (r : MetadataRequest) : Looking -> Looked
  | .atCache =>
      match s.cache (r.key codec) with
      | some hit => .goesOn (.found hit)
      | none => .goesOn .atNegative
  | .found hit =>
      if freshness r.path (s.now - hit.fetchedAt) = .fresh then
        .serves (serveHit r hit .hit s.now) false
      else .goesOn (.foundAgain hit s.now)
  | .foundAgain hit _ =>
      if freshness r.path (s.now - hit.fetchedAt) = .stale then
        .serves (serveHit r hit .stale s.now) true
      else .goesOn .atNegative
  | .atNegative =>
      match s.negative (r.key codec) with
      | some neg => .goesOn (.foundNegative neg)
      | none => .misses
  | .foundNegative neg =>
      if s.now < neg.expiresAt then
        .serves
          ⟨r, .negative, s.now, buildResponse neg.status neg.headers neg.body .negative⟩
          false
      else .misses

/-- One step of the lookups under the guard: an answer that is not expired is
served, and the second reading decides on its label only. -/
def lookInside (s : ServingWorld) (r : MetadataRequest) : Looking -> Looked
  | .found hit =>
      if freshness r.path (s.now - hit.fetchedAt) = .expired then .goesOn .atNegative
      else .goesOn (.foundAgain hit s.now)
  | .foundAgain hit first =>
      if freshness r.path (s.now - hit.fetchedAt) = .fresh then
        .serves (serveHit r hit .hit s.now) false
      else .serves (serveHit r hit .stale first) false
  | .atCache => s.look codec r .atCache
  | .atNegative => s.look codec r .atNegative
  | .foundNegative neg => s.look codec r (.foundNegative neg)

/-- The request behind a caller, with the stage it has reached. -/
def caller (s : ServingWorld) (i : Nat) : Option (ServingJob × Stage ServingStage) :=
  s.inflight.callers[i]?.map fun c => (c.job, c.stage)

def withGuards (s : ServingWorld) (g : LockCache String ServingJob ServingStage) :
    ServingWorld :=
  { s with inflight := g }

def serve (s : ServingWorld) (served : Served) : ServingWorld :=
  { s with served := s.served ++ [served] }

def answered (s : ServingWorld) (answer : InnerAnswer) : ServingWorld :=
  { s with answers := s.answers ++ [answer] }

/-- Insert an entry under its key. -/
def insert (s : ServingWorld) (key : String) : Kept -> ServingWorld
  | .cached entry => { s with cache := Function.update s.cache key (some entry) }
  | .negative entry =>
      { s with negative := Function.update s.negative key (some entry) }
  | .nothing => s

/-- Insert what is kept of an answer, and note the answer. -/
def insertNoted (s : ServingWorld) (key : String) (st : StoredAnswer) (kept : Kept) :
    ServingWorld :=
  { s.insert key kept with stored := s.stored ++ [st] }

/-- Insert what is kept of an answer; a miss is answered with it. -/
def store (s : ServingWorld) (job : ServingJob) (response : Streamed) (kept : Kept) :
    ServingWorld :=
  let inserted :=
    s.insertNoted (job.request.key codec) ⟨⟨job.request, response⟩, s.now⟩ kept
  match kept.reply .miss with
  | some reply =>
      if job.background then inserted
      else inserted.serve ⟨job.request, .miss, s.now, reply⟩
  | none => inserted

/-- A request has looked before the guard. -/
def looked (s : ServingWorld) (k : Nat) (r : MetadataRequest) : Looked -> ServingWorld
  | .goesOn stage => { s with arriving := s.arriving.set k (r, stage) }
  | .serves served refresh =>
      { s.serve served with
        arriving := s.arriving.eraseIdx k
        called := if refresh then s.called ++ [⟨r, true⟩] else s.called }
  | .misses =>
      { s with
        arriving := s.arriving.eraseIdx k
        called := s.called ++ [⟨r, false⟩] }

/-- A request has looked under the guard. -/
def lookedInside (s : ServingWorld) (i : Nat) : Looked -> Option ServingWorld
  | .goesOn stage => (s.inflight.advance i (.looking stage)).map s.withGuards
  | .serves served _ => (s.inflight.leave i).map (s.serve served).withGuards
  | .misses => (s.inflight.advance i .running).map s.withGuards

def step (s : ServingWorld) : ServingAction -> Option ServingWorld
  | .request r =>
      if r.usesCache then some { s with arriving := s.arriving ++ [(r, .atCache)] }
      else some s
  | .look k =>
      match s.arriving[k]? with
      | some (r, stage) => some (s.looked k r (s.look codec r stage))
      | none => none
  | .lookUp k =>
      match s.called[k]? with
      | none => none
      | some job =>
          some
            { s with
              called := s.called.eraseIdx k
              inflight :=
                s.inflight.join inflightPolicy (job.request.key codec) job }
  | .lock i =>
      match s.caller i with
      | some (job, .waiting) =>
          if job.background then none
          else (s.inflight.enter i (.looking .atCache)).map s.withGuards
      | _ => none
  | .tryLock i =>
      match s.caller i with
      | some (job, .waiting) =>
          if job.background then
            match s.inflight.enter i .running with
            | some g => some (s.withGuards g)
            | none => (s.inflight.leave i).map s.withGuards
          else none
      | _ => none
  | .lookInside i =>
      match s.caller i with
      | some (job, .inside (.looking stage)) =>
          s.lookedInside i (s.lookInside codec job.request stage)
      | _ => none
  | .answer i response =>
      match s.caller i with
      | some (job, .inside .running) =>
          (s.inflight.advance i (.keeping response)).map
            (s.answered ⟨job.request, response⟩).withGuards
      | _ => none
  | .collect i =>
      match s.caller i with
      | some (job, .inside (.keeping response)) =>
          match
            if job.background then keepRefresh s.now response
            else keepMiss s.now response with
          | .nothing => (s.inflight.leave i).map s.withGuards
          | kept => (s.inflight.advance i (.storing response kept)).map s.withGuards
      | _ => none
  | .store i =>
      match s.caller i with
      | some (job, .inside (.storing response kept)) =>
          (s.inflight.leave i).map (s.store codec job response kept).withGuards
      | _ => none
  | .hangUpEarly k => some { s with arriving := s.arriving.eraseIdx k }
  | .hangUpCalled k =>
      match s.called[k]? with
      | some job =>
          if job.background then none
          else some { s with called := s.called.eraseIdx k }
      | none => none
  | .hangUp i =>
      match s.caller i with
      | some (job, _) =>
          if job.background then none else (s.inflight.leave i).map s.withGuards
      | none => none
  | .forget key => some { s with cache := Function.update s.cache key none }
  | .forgetNegative key =>
      some { s with negative := Function.update s.negative key none }
  | .dropGuard key => (s.inflight.drop inflightPolicy key).map s.withGuards
  | .wait ms => some (s.withGuards (s.inflight.tick ms))
  | .readClock now => if s.now ≤ now then some { s with now } else none

end Steps

end ServingWorld

/-- The metadata cache in front of its handlers, as a step system. -/
def servingSystem (codec : QueryCodec) : System ServingWorld ServingAction :=
  ⟨ServingWorld.step codec⟩

end HifiApi
