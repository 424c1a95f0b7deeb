import HifiApi.Failover.Journal
import HifiApi.Failover.PoolRules

/-!
# What a request makes of FULL and PREVIEW

The accounts that answered FULL or PREVIEW, and what the request does to the counter
of {lit}`note_traffic_preview`.  Nothing is done before a FULL answer; it ends the
request, and settles the PREVIEW answers before it one after the other.
-/

namespace HifiApi

open Prog TidalCall

inductive Presentation where
  | full
  | preview
  deriving DecidableEq

/-- What can be done to the counter of an account. -/
inductive StreakOp where
  | reset (a : AccountRef)
  /-- One more, with the number before. -/
  | add (a : AccountRef) (before : Nat)
  /-- The account is marked as PREVIEW-only. -/
  | mark (a : AccountRef)
  deriving DecidableEq

namespace StreakOp

def account : StreakOp -> AccountRef
  | reset a => a
  | add a _ => a
  | mark a => a

/-- What a call does to a counter. -/
def ofCall : (c : TidalCall) -> Answer c -> Option StreakOp
  | resetTrafficStreak a, _ => some (reset a)
  | addTrafficStreak a, before => some (add a before)
  | setPremiumStatus a status, _ =>
      if status = premiumStatusPreview then some (mark a) else none
  | _, _ => none

end StreakOp

structure PresentationJournal where
  /-- The account of the last request. -/
  asked : Option AccountRef
  /-- The accounts that answered FULL or PREVIEW, in their order. -/
  answers : List (AccountRef × Presentation)
  ops : List StreakOp

namespace PresentationJournal

def start : PresentationJournal := ⟨none, [], []⟩

def presentationOf (data : Value) : Option Presentation :=
  if isFull data then some .full
  else if isPreview data then some .preview
  else none

def presented (p : Option Presentation) (g : PresentationJournal) :
    PresentationJournal :=
  match g.asked, p with
  | some a, some p => { g with answers := g.answers ++ [(a, p)] }
  | _, _ => g

def read (answer : Except ReqwestError TidalBody) (g : PresentationJournal) :
    PresentationJournal :=
  match dataOf answer with
  | some data => g.presented (presentationOf data)
  | none => g

def wrote (op : Option StreakOp) (g : PresentationJournal) : PresentationJournal :=
  match op with
  | some op => { g with ops := g.ops ++ [op] }
  | none => g

/-- What is written down of a call. -/
def note (g : PresentationJournal) : (c : TidalCall) -> Answer c -> PresentationJournal
  | send (some a) _ _ _, _ => { g with asked := some a }
  | readText, answer => g.read answer
  | c, answer => g.wrote (StreakOp.ofCall c answer)

/-- The journal after a trace. -/
def after (trace : List TidalEvent) : PresentationJournal :=
  trace.foldl (fun g e => g.note e.call e.answer) start

end PresentationJournal

/-!
## What is claimed
-/

/-- An answer carries at most one presentation field. -/
def OnePresentation (data : Value) : Prop :=
  assetPresentation data = none ∨ trackPresentation data = none

/-- The answers of Tidal carry at most one presentation field each. -/
def TidalCall.PresentsOnce : (c : TidalCall) -> Answer c -> Prop
  | readText, answer => forall data, dataOf answer = some data -> OnePresentation data
  | _, _ => True

/-- A PREVIEW answer of an account, and later a FULL one of another. -/
def Beaten (x : AccountRef) (answers : List (AccountRef × Presentation)) : Prop :=
  exists f before later, answers = before ++ (x, .preview) :: later ∧
    (f, Presentation.full) ∈ later

/-- One more PREVIEW, which is the last one before the mark or not. -/
def previewOps (x : AccountRef) (before : Nat) : List StreakOp :=
  if before + 1 < trafficPreviewsBeforePreviewOnly then [.add x before]
  else [.add x before, .reset x, .mark x]

/-- What has been done to the counter of an account. -/
def opsOn (x : AccountRef) (ops : List StreakOp) : List StreakOp :=
  ops.filter fun op => decide (op.account = x)

/-- What a request has done to the counter of an account. -/
structure SettledFor (kind : LeaseKind) (x : AccountRef) (g : PresentationJournal) :
    Prop where
  full : kind = .playback -> (x, .full) ∈ g.answers ->
    opsOn x g.ops = [.reset x]
  beaten : kind = .playback -> Beaten x g.answers ->
    exists before, opsOn x g.ops = previewOps x before
  otherwise : kind = .metadata ∨ (x, .full) ∉ g.answers ∧ ¬ Beaten x g.answers ->
    opsOn x g.ops = []

/-!
## Settling
-/

/-- The counters of PREVIEW answers have been settled in their order. -/
inductive Noted : List AccountRef -> List StreakOp -> Prop
  | nil : Noted [] []
  | snoc {settled : List AccountRef} {ops : List StreakOp} (p : AccountRef)
      (before : Nat) :
      Noted settled ops -> Noted (settled ++ [p]) (ops ++ previewOps p before)

/-- What has been done of the last steps of a mark. -/
inductive Marking : List AccountRef -> List StreakOp -> Prop
  | idle (rest : List AccountRef) : Marking rest []
  | added {p : AccountRef} {rest : List AccountRef} {before : Nat} :
      trafficPreviewsBeforePreviewOnly ≤ before + 1 ->
      Marking (p :: rest) [.add p before]
  | reset {p : AccountRef} {rest : List AccountRef} {before : Nat} :
      trafficPreviewsBeforePreviewOnly ≤ before + 1 ->
      Marking (p :: rest) [.add p before, .reset p]

/-- A FULL answer is being settled. -/
def Settling (f : AccountRef) (previews : List AccountRef) (ops : List StreakOp) :
    Prop :=
  exists settled rest noted last, previews = settled ++ rest ∧
    ops = .reset f :: (noted ++ last) ∧ Noted settled noted ∧ Marking rest last

/-- The answers of accounts that came back PREVIEW. -/
def previewsOf (previews : List AccountRef) : List (AccountRef × Presentation) :=
  previews.map fun p => (p, .preview)

namespace PresentationJournal

/-- What holds at every point of a request. -/
structure Sound (kind : LeaseKind) (g : PresentationJournal) : Prop where
  once : (g.answers.map fun e => e.1.id).Nodup
  settling : g.ops = [] ∨ kind = .playback ∧ exists previews f,
    g.answers = previewsOf previews ++ [(f, Presentation.full)] ∧ Settling f previews g.ops

/-- What holds of a request that has ended. -/
structure Ended (kind : LeaseKind) (g : PresentationJournal) : Prop where
  once : (g.answers.map fun e => e.1.id).Nodup
  settled : exists previews, g.answers = previewsOf previews ∧ g.ops = [] ∨
    exists f, g.answers = previewsOf previews ++ [(f, Presentation.full)] ∧
      (kind = .metadata ∧ g.ops = [] ∨
        kind = .playback ∧ exists noted, g.ops = .reset f :: noted ∧
          Noted previews noted)

theorem note_ops (g : PresentationJournal) (c : TidalCall) (answer : Answer c) :
    (g.note c answer).ops = g.ops ++ (StreakOp.ofCall c answer).toList := by
  have hwrote : forall op : Option StreakOp, (g.wrote op).ops = g.ops ++ op.toList := by
    intro op
    cases op with
    | none => exact (List.append_nil _).symm
    | some op => rfl
  cases c with
  | send account url params token =>
      cases account with
      | none => exact hwrote none
      | some a => exact (List.append_nil _).symm
  | readText =>
      show (g.read answer).ops = g.ops ++ []
      rw [List.append_nil]
      unfold read presented
      split
      · split <;> rfl
      · rfl
  | _ => exact hwrote _

/-- The watch of a request of a kind: a call may be made when no answer to it breaks
the invariant. -/
def watch (kind : LeaseKind) : Watch Answer PresentationJournal where
  may g c := g.Sound kind -> forall answer, c.Admits answer -> c.PresentsOnce answer ->
    (g.note c answer).Sound kind
  hears _ c answer := c.Admits answer ∧ c.PresentsOnce answer
  note := note

end PresentationJournal

end HifiApi
