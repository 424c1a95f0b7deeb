import HifiApi.Lib.Buckets
import HifiApi.Playback.Queue
import Mathlib.Algebra.Group.Basic

/-!
# The request log

What is counted of every answered request, second by second, and the rates that
are read from these counts.  The times are Unix times, which are far from the
bounds of {lit}`i64`.
-/

namespace HifiApi

/-- The fields of an entry that the counts go by. -/
structure LogEntry where
  ts : Int
  path : String
  status : Nat
  cache : String
  accounts : List LoggedAccount
  rejected : Bool
  error : String

inductive Traffic where
  | playback
  | search
  | catalog
  | cached
  | service
  deriving DecidableEq

/-- The first part of a path that is not empty. -/
def firstSegment (path : String) : String :=
  String.ofList
    ((path.toList.dropWhile fun c => c = '/').takeWhile fun c => c ≠ '/')

def Traffic.of (entry : LogEntry) : Traffic :=
  if entry.rejected then .service
  else
    let first := firstSegment entry.path
    let cached := decide (entry.cache ∈ ["HIT", "STALE", "NEGATIVE"])
    if first ∈ ["track", "trackManifests", "dash", "video", "widevine"] then
      if cached then .cached else .playback
    else if first = "search" then
      if cached then .cached else .search
    else if first ∈ ["info", "album", "artist", "mix", "playlist", "cover", "lyrics",
        "recommendations", "topvideos"] then
      if cached then .cached else .catalog
    else .service

/-- {lit}`is_accounts_busy` -/
def isAccountsBusy (detail : String) : Bool :=
  ["All playback accounts are busy", "Playback queue full",
    "Catalog accounts are at their concurrent request limit"].any fun start =>
      start.toList.isPrefixOf detail.toList

structure SecondCounts where
  playback : Nat
  search : Nat
  catalog : Nat
  cached : Nat
  throttled : Nat
  deriving DecidableEq

namespace SecondCounts

/-- A request that picked no account was answered locally, except a playback job
that is queued. -/
def of (entry : LogEntry) : SecondCounts :=
  let traffic := Traffic.of entry
  let queued := decide (traffic = .playback) && decide (entry.status = 202)
  let sent := !entry.accounts.isEmpty || queued
  { playback := (sent && decide (traffic = .playback)).toNat
    search := (sent && decide (traffic = .search)).toNat
    catalog := (sent && decide (traffic = .catalog)).toNat
    cached := (decide (traffic = .cached)).toNat
    throttled :=
      (decide (traffic ≠ .service) && decide (entry.status = 429) &&
        !isAccountsBusy entry.error).toNat }

def add (a b : SecondCounts) : SecondCounts where
  playback := a.playback + b.playback
  search := a.search + b.search
  catalog := a.catalog + b.catalog
  cached := a.cached + b.cached
  throttled := a.throttled + b.throttled

/-- Requests that were sent on to Tidal. -/
def upstream (a : SecondCounts) : Nat := a.playback + a.search + a.catalog

def zero : SecondCounts := ⟨0, 0, 0, 0, 0⟩

instance : Add SecondCounts := ⟨add⟩

instance : Zero SecondCounts := ⟨zero⟩

instance : AddCommMonoid SecondCounts where
  add_assoc a b c := by
    show add (add a b) c = add a (add b c)
    simp only [add, Nat.add_assoc]
  zero_add a := by
    show add zero a = a
    simp only [add, zero, Nat.zero_add]
  add_zero a := by
    show add a zero = a
    simp only [add, zero, Nat.add_zero]
  add_comm a b := by
    show add a b = add b a
    simp only [add, Nat.add_comm]
  nsmul := nsmulRec

end SecondCounts

structure RequestLog where
  entries : List LogEntry
  requestsPerSecond : List (Int × SecondCounts)
  totalRequests : Nat

def maxEntries : Nat := 5000
def rateWindowSeconds : Int := 60
def rateNowSeconds : Int := 5

namespace RequestLog

def new : RequestLog := ⟨[], [], 0⟩

def record (log : RequestLog) (entry : LogEntry) : RequestLog where
  entries :=
    (if maxEntries ≤ log.entries.length then log.entries.tail else log.entries) ++
      [entry]
  requestsPerSecond :=
    Buckets.record rateWindowSeconds entry.ts (SecondCounts.of entry)
      log.requestsPerSecond
  totalRequests := log.totalRequests + 1

/-- A log that has recorded these entries. -/
def recorded (entries : List LogEntry) : RequestLog :=
  entries.foldl record new

end RequestLog

/-- The rates of a class: {lit}`now` is the first number over five seconds, and
{lit}`avg_60s` the second one over sixty. -/
structure RequestRate where
  recent : Nat
  window : Nat
  peak60s : Nat
  deriving DecidableEq

structure RequestRates where
  all : RequestRate
  playback : RequestRate
  search : RequestRate
  catalog : RequestRate
  cached : RequestRate
  throttled60s : Nat
  /-- Of each second: playback, search, catalog. -/
  history : List (Nat × Nat × Nat)
  deriving DecidableEq

/-- What the loop over the buckets has collected. -/
structure RateScan where
  window : SecondCounts
  recent : SecondCounts
  peak : SecondCounts
  peakUpstream : Nat
  history : List (Nat × Nat × Nat)

namespace RateScan

def start : RateScan where
  window := .zero
  recent := .zero
  peak := .zero
  peakUpstream := 0
  history := List.replicate rateWindowSeconds.toNat (0, 0, 0)

/-- Each class peaks in its own second. -/
def peaked (peak counts : SecondCounts) : SecondCounts where
  playback := max peak.playback counts.playback
  search := max peak.search counts.search
  catalog := max peak.catalog counts.catalog
  cached := max peak.cached counts.cached
  throttled := peak.throttled

/-- The completed seconds of the chart. -/
def charted (now second : Int) : Bool :=
  decide (now - rateWindowSeconds ≤ second ∧ second < now)

/-- The seconds of the average, the current one among them. -/
def averaged (now second : Int) : Bool :=
  decide (now - rateWindowSeconds < second ∧ second ≤ now)

def isRecent (now second : Int) : Bool :=
  decide (now - rateNowSeconds ≤ second ∧ second < now)

def triple (counts : SecondCounts) : Nat × Nat × Nat :=
  (counts.playback, counts.search, counts.catalog)

def bucket (now : Int) (scan : RateScan) (b : Int × SecondCounts) : RateScan where
  window := if averaged now b.1 then scan.window.add b.2 else scan.window
  recent := if isRecent now b.1 then scan.recent.add b.2 else scan.recent
  peak := if charted now b.1 then peaked scan.peak b.2 else scan.peak
  peakUpstream :=
    if charted now b.1 then max scan.peakUpstream b.2.upstream else scan.peakUpstream
  history :=
    if charted now b.1 then
      scan.history.set (b.1 - (now - rateWindowSeconds)).toNat (triple b.2)
    else scan.history

end RateScan

def RequestLog.requestRatesAt (log : RequestLog) (now : Int) : RequestRates :=
  let scan := log.requestsPerSecond.foldl (RateScan.bucket now) .start
  { all := ⟨scan.recent.upstream, scan.window.upstream, scan.peakUpstream⟩
    playback := ⟨scan.recent.playback, scan.window.playback, scan.peak.playback⟩
    search := ⟨scan.recent.search, scan.window.search, scan.peak.search⟩
    catalog := ⟨scan.recent.catalog, scan.window.catalog, scan.peak.catalog⟩
    cached := ⟨scan.recent.cached, scan.window.cached, scan.peak.cached⟩
    throttled60s := scan.window.throttled
    history := scan.history }

end HifiApi
