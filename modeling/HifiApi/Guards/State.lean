import HifiApi.Base.ClientSecret
import HifiApi.Lib.System
import HifiApi.Lib.Table
import Mathlib.Data.List.MinMax

/-!
# Guards against repeated offences

Two guards keep a sliding window of offences for each address and block an
address that reaches a limit: one against scanners, one against wrong admin
credentials.  They share their code up to the numbers and up to what counts as
an offence.  Instants are nanoseconds of a monotonic clock; a difference below
zero is zero.
-/

namespace HifiApi

abbrev Instant := Nat

def nanosPerSec : Nat := 1000000000

/-- {lit}`MAX_IPS` of both guards. -/
def maxIps : Nat := 50000

/-- What a guard keeps of an address. -/
structure IpActivity where
  /-- {lit}`probes` or {lit}`failures`, the oldest first. -/
  hits : List Instant
  /-- {lit}`banned_until` or {lit}`locked_until`. -/
  blockedUntil : Option Instant
  lastSeen : Instant

structure GuardState (Ip : Type) where
  ips : Table (Ip × IpActivity) Prod.fst
  lastCleanup : Instant

/-- The numbers in which the guards differ. -/
structure GuardRule where
  window : Nat
  duration : Nat
  limit : Nat
  window_pos : 0 < window
  duration_pos : 0 < duration

/-- {lit}`until.duration_since(now).as_secs().max(1)` -/
def secondsLeft (until_ now : Instant) : Nat :=
  max ((until_ - now) / nanosPerSec) 1

namespace IpActivity

def blockedAt (now : Instant) (a : IpActivity) : Bool :=
  a.blockedUntil.any fun until_ => now < until_

end IpActivity

variable {Ip : Type} [DecidableEq Ip]

namespace GuardState

def new (start : Instant) : GuardState Ip where
  ips := ⟨[], List.nodup_nil⟩
  lastCleanup := start

def activity (s : GuardState Ip) (ip : Ip) : Option IpActivity :=
  (s.ips.lookup ip).map Prod.snd

/-- The seconds left on a block that is running. -/
def left (s : GuardState Ip) (ip : Ip) (now : Instant) : Option Nat :=
  (((s.activity ip).bind IpActivity.blockedUntil).filter
    fun until_ => decide (now < until_)).map fun until_ => secondsLeft until_ now

/-- Forget an address whose block has ended. -/
def dropEnded (s : GuardState Ip) (ip : Ip) : GuardState Ip :=
  if (s.activity ip).any fun a => a.blockedUntil.isSome then
    { s with ips := s.ips.delete ip }
  else
    s

/-- The address that gives way: the one seen longest ago, among those that
carry no block if there are any. -/
def victim (order : Table.Iteration (Ip × IpActivity)) (s : GuardState Ip) :
    Option Ip :=
  let entries := order.visit s.ips.rows
  let free := entries.filter fun e => e.2.blockedUntil.isNone
  ((free.argmin fun e => e.2.lastSeen).or
    (entries.argmin fun e => e.2.lastSeen)).map Prod.fst

/-- Keep memory bounded before a new address is inserted. -/
def makeRoom (order : Table.Iteration (Ip × IpActivity)) (ip : Ip)
    (s : GuardState Ip) : GuardState Ip :=
  if (s.activity ip).isNone ∧ maxIps ≤ s.ips.rows.length then
    match s.victim order with
    | some gone => { s with ips := s.ips.delete gone }
    | none => s
  else
    s

end GuardState

namespace GuardRule

/-- Drop the addresses whose block has ended and that have not been seen for a
window, at most once in a window. -/
def cleanup (r : GuardRule) (now : Instant) (s : GuardState Ip) :
    GuardState Ip :=
  if r.window ≤ now - s.lastCleanup then
    { ips := s.ips.retain fun e =>
        e.2.blockedAt now || decide (now - e.2.lastSeen < r.window)
      lastCleanup := now }
  else
    s

/-- Count one more offence; the limit starts a block. -/
def record (r : GuardRule) (now : Instant) (a : IpActivity) :
    IpActivity × Option Nat :=
  let hits := (a.hits.dropWhile fun hit => decide (r.window ≤ now - hit)) ++ [now]
  if r.limit ≤ hits.length then
    ({ hits := [], blockedUntil := some (now + r.duration), lastSeen := now },
      some (r.duration / nanosPerSec))
  else
    ({ a with hits := hits, lastSeen := now }, none)

/-- Count an offence of an address, known or not. -/
def count (r : GuardRule) (order : Table.Iteration (Ip × IpActivity)) (ip : Ip)
    (now : Instant) (s : GuardState Ip) : GuardState Ip × Option Nat :=
  let room := s.makeRoom order ip
  let next := r.record now ((room.activity ip).getD ⟨[], none, now⟩)
  ({ room with ips := room.ips.put (ip, next.1) }, next.2)

/-- The body of {lit}`ScannerGuard::check` and of {lit}`AdminAuthGuard::failed`:
a call counts as an offence or not. -/
def visit (r : GuardRule) (order : Table.Iteration (Ip × IpActivity)) (ip : Ip)
    (counted : Bool) (now : Instant) (s : GuardState Ip) :
    GuardState Ip × Option Nat :=
  let cleaned := r.cleanup now s
  match cleaned.left ip now with
  | some seconds => (cleaned, some seconds)
  | none =>
      let fresh := cleaned.dropEnded ip
      if counted then r.count order ip now fresh else (fresh, none)

end GuardRule

/-!
## The two guards
-/

namespace ScannerGuard

def rule : GuardRule where
  window := 60 * nanosPerSec
  duration := 15 * 60 * nanosPerSec
  limit := 3
  window_pos := by decide
  duration_pos := by decide

def utf8 (text : String) : List UInt8 :=
  text.toByteArray.data.toList

def toAsciiLowercase (b : UInt8) : UInt8 :=
  if 65 ≤ b ∧ b ≤ 90 then b + 32 else b

/-- A segment that only scanners ask for. -/
def isScannerSegment (segment : List UInt8) : Bool :=
  segment == utf8 ".env" || (utf8 ".env.").isPrefixOf segment ||
    segment == utf8 ".git" || (utf8 "wp-").isPrefixOf segment ||
    segment == utf8 "wordpress" || segment == utf8 "xmlrpc.php" ||
    segment == utf8 "phpinfo.php"

/-- {lit}`is_scanner_path`.  The tests look for ASCII text only, so they read
the decoded bytes; where the source replaces bytes that are not UTF-8, it puts
characters that are not ASCII either. -/
def isScannerPath (path : String) : Bool :=
  let decoded := (percentDecode (utf8 path)).map toAsciiLowercase
  let segments := (decoded.splitOn 47).filter fun segment => !segment.isEmpty
  segments.any isScannerSegment ||
    (segments.zip segments.tail).any fun pair =>
      pair.1 == utf8 "var" && pair.2 == utf8 "www"

example : isScannerPath "/%2eENV" = true ∧ isScannerPath "/var//www" = true ∧
    isScannerPath "/track/123" = false := by decide

def check (order : Table.Iteration (Ip × IpActivity)) (ip : Ip) (path : String)
    (now : Instant) (s : GuardState Ip) : GuardState Ip × Option Nat :=
  rule.visit order ip (isScannerPath path) now s

end ScannerGuard

namespace AdminAuthGuard

def rule : GuardRule where
  window := 5 * 60 * nanosPerSec
  duration := 15 * 60 * nanosPerSec
  limit := 5
  window_pos := by decide
  duration_pos := by decide

/-- Seconds until an existing lock expires. -/
def check (ip : Ip) (now : Instant) (s : GuardState Ip) :
    GuardState Ip × Option Nat :=
  match s.left ip now with
  | some seconds => (s, some seconds)
  | none => (s.dropEnded ip, none)

/-- Record a failed credential; the fifth one also starts the lock. -/
def failed (order : Table.Iteration (Ip × IpActivity)) (ip : Ip)
    (now : Instant) (s : GuardState Ip) : GuardState Ip × Option Nat :=
  rule.visit order ip true now s

/-- A successful authentication clears earlier mistakes. -/
def clear (ip : Ip) (s : GuardState Ip) : GuardState Ip :=
  { s with ips := s.ips.delete ip }

end AdminAuthGuard

end HifiApi
