import Mathlib.Tactic.Common

/-!
# Cached answers

What the metadata cache keeps of an answer, for how long it serves it, and how
the body of an answer is read before it is kept.
-/

namespace HifiApi

abbrev Bytes := List UInt8

/-- A header; its text is missing where the value is not readable as text. -/
structure Header where
  name : String
  text : Option String

/-- An answer whose body comes in chunks; a chunk that could not be read is
missing. -/
structure Streamed where
  status : Nat
  headers : List Header
  chunks : List (Option Bytes)

structure CachedResponse where
  status : Nat
  headers : List (String × String)
  body : Bytes
  fetchedAt : Int

/-- An error answer with its own expiry. -/
structure NegativeEntry where
  status : Nat
  headers : List (String × String)
  body : Bytes
  expiresAt : Int

namespace ResponseCache

/-!
## How long an answer is served
-/

def hourSecs : Nat := 3600

def maxFreshSecs : Nat := 12 * hourSecs

def startsWith (path start : String) : Bool :=
  start.toList.isPrefixOf path.toList

def freshSecs (path : String) : Nat :=
  if startsWith path "/playlist/" || startsWith path "/mix/" then 15 * 60
  else if startsWith path "/search/" then 4 * hourSecs
  else maxFreshSecs

def staleSecs (path : String) : Nat :=
  min (freshSecs path) maxFreshSecs

inductive Freshness where
  | fresh
  | stale
  | expired
  deriving DecidableEq

def freshness (path : String) (age : Int) : Freshness :=
  if age < freshSecs path then .fresh
  else if age < freshSecs path + staleSecs path then .stale
  else .expired

def negativeTtl (status : Nat) : Option Nat :=
  if status = 404 then some 60
  else if [429, 500, 502, 503, 504].contains status then some 15
  else none

/-!
## Reading a body
-/

def maxBodyBytes : Nat := 2 * 1024 * 1024

/-- A text as {lit}`usize`: digits, after a plus sign at most. -/
def parseUsize (text : String) : Option Nat :=
  let digits :=
    match text.toList with
    | '+' :: rest => rest
    | all => all
  if digits = [] ∨ ¬ digits.all Char.isDigit then none
  else
    let n := digits.foldl (fun n c => 10 * n + (c.toNat - '0'.toNat)) 0
    if n < 18446744073709551616 then some n else none

/-- The answer declares more than the cache keeps of a body. -/
def bodyTooBig (response : Streamed) : Bool :=
  match response.headers.find? fun h => h.name = "content-length" with
  | none => false
  | some h =>
      match h.text.bind parseUsize with
      | none => false
      | some n => decide (maxBodyBytes < n)

/-- The answer when a body breaks off. -/
def bodyReadFailed : Streamed where
  status := 502
  headers := [⟨"content-type", some "text/plain; charset=utf-8"⟩]
  chunks := [some "Upstream body read failed".toUTF8.toList]

/-- The chunks of a body read so far and those still to come: the whole body,
or the answer that is sent on. -/
def readChunks (response : Streamed) (total : Nat) (taken : List Bytes) :
    List (Option Bytes) -> Except Streamed Bytes
  | [] => .ok taken.flatten
  | none :: _ => .error bodyReadFailed
  | some chunk :: rest =>
      let total := total + chunk.length
      if maxBodyBytes < total then
        .error { response with chunks := (taken ++ [chunk]).map some ++ rest }
      else
        readChunks response total (taken ++ [chunk]) rest

/-- The headers that can be read as text. -/
def textHeaders (headers : List Header) : List (String × String) :=
  headers.filterMap fun h => h.text.map fun text => (h.name, text)

def collectParts (response : Streamed) :
    Except Streamed (Nat × List (String × String) × Bytes) :=
  (readChunks response 0 [] response.chunks).map fun body =>
    (response.status, textHeaders response.headers, body)

/-- What a finished answer leaves in the cache. -/
inductive Kept where
  | cached (entry : CachedResponse)
  | negative (entry : NegativeEntry)
  | nothing

/-- What an inline miss keeps of the handler's answer. -/
def keepMiss (now : Int) (response : Streamed) : Kept :=
  if response.status = 200 then
    if bodyTooBig response then .nothing
    else
      match collectParts response with
      | .ok (status, headers, body) => .cached ⟨status, headers, body, now⟩
      | .error _ => .nothing
  else
    match negativeTtl response.status with
    | none => .nothing
    | some ttl =>
        if bodyTooBig response then .nothing
        else
          match collectParts response with
          | .ok (_, headers, body) =>
              .negative ⟨response.status, headers, body, now + ttl⟩
          | .error _ => .nothing

/-- What a background refresh keeps of the handler's answer. -/
def keepRefresh (now : Int) (response : Streamed) : Kept :=
  if response.status = 200 then
    match collectParts response with
    | .ok (status, headers, body) => .cached ⟨status, headers, body, now⟩
    | .error _ => .nothing
  else .nothing

end ResponseCache

end HifiApi
