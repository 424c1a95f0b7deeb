import HifiApi.Failover.Settled
import Mathlib.Logic.Relation

/-!
# PREVIEW-only by traffic

Any number of requests and of FULL checks, next to each other, on the counters of
all accounts.  Every operation on a counter is written down in its order, so that
what stands behind a mark can be read from the operations before it.
-/

namespace HifiApi

open Prog TidalCall

/-!
## The tasks
-/

/-- {lit}`set_premium` -/
def setPremium (id status : String) : TidalProg Unit := do
  match ← ask (getAccountById id) with
  | none => return ()
  | some a =>
      ask (setPremiumStatus a status)
      let now ← ask clock
      ask (setPremiumCheckedAt a now)
      if status = premiumStatusFull then
        ask (resetTrafficStreak a)
        let streak ← ask (swapPreviewStreak a)
        if streak ≠ 0 then
          ask (savePreviewStreak a)

/-- A request to the pool, or the result of a FULL check. -/
inductive TrafficTask where
  | request (q : PoolRequest)
  | check (id status : String)

namespace TrafficTask

def program : TrafficTask -> TidalProg Unit
  | request q => do
      let _ ← makeRequestWithLimit q
      return ()
  | check id status => setPremium id status

end TrafficTask

namespace StreakOp

/-- The account whose counter goes up. -/
def added : StreakOp -> Option AccountRef
  | add a _ => some a
  | _ => none

/-- What becomes of the counter of an account. -/
def apply (x : AccountRef) : StreakOp -> Nat -> Nat
  | reset a, n => if a = x then 0 else n
  | add a _, n => if a = x then n + 1 else n
  | mark _, n => n

end StreakOp

structure TrafficWorld where
  /-- What is left of each task. -/
  left : Nat -> TidalProg Unit
  trace : Nat -> List TidalEvent
  streak : AccountRef -> Nat
  /-- The operations on the counters, with their tasks. -/
  log : List (Nat × StreakOp)

namespace TrafficWorld

/-- All tasks before their first call, and all counters at 0. -/
def start (tasks : Nat -> TrafficTask) : TrafficWorld :=
  ⟨fun i => (tasks i).program, fun _ => [], fun _ => 0, []⟩

/-- A call reads the counter as it is. -/
def Reads (w : TrafficWorld) : (c : TidalCall) -> Answer c -> Prop
  | addTrafficStreak a, before => before = w.streak a
  | _, _ => True

def onStreak (x : AccountRef) (op : Option StreakOp) (n : Nat) : Nat :=
  match op with
  | some op => op.apply x n
  | none => n

/-- A task goes on after a call. -/
def call (i : Nat) (next : TidalProg Unit) (e : TidalEvent) (w : TrafficWorld) :
    TrafficWorld where
  left := Function.update w.left i next
  trace := Function.update w.trace i (w.trace i ++ [e])
  streak x := onStreak x (StreakOp.ofCall e.call e.answer) (w.streak x)
  log := w.log ++ (StreakOp.ofCall e.call e.answer).toList.map fun op => (i, op)

/-- The next call of any of the tasks. -/
inductive Step : TrafficWorld -> TrafficWorld -> Prop
  | call {w : TrafficWorld} {i : Nat} {c : TidalCall} {next : Answer c -> TidalProg Unit}
      {answer : Answer c} :
      w.left i = .call c next -> c.Admits answer -> c.PresentsOnce answer ->
      w.Reads c answer -> Step w (w.call i (next answer) ⟨c, answer⟩)

def Reachable (tasks : Nat -> TrafficTask) (w : TrafficWorld) : Prop :=
  Relation.ReflTransGen Step (start tasks) w

/-- What a request has made of the answers. -/
def journal (w : TrafficWorld) (i : Nat) : PresentationJournal :=
  PresentationJournal.after (w.trace i)

end TrafficWorld

/-- The tasks that have counted a PREVIEW of an account. -/
def adders (x : AccountRef) (log : List (Nat × StreakOp)) : List Nat :=
  (log.filter fun e => decide (e.2.added = some x)).map Prod.fst

/-- What stands behind a mark: so many requests in a row that the account answered
PREVIEW to and another account FULL, and nothing that reset the counter. -/
def ProvenPreviewOnly (tasks : Nat -> TrafficTask) (w : TrafficWorld) (x : AccountRef)
    (before : List (Nat × StreakOp)) : Prop :=
  exists first last later, before = first ++ last ++ later ∧
    (forall e, e ∈ last -> e.2 ≠ .reset x) ∧
    trafficPreviewsBeforePreviewOnly ≤ (adders x last).length ∧
    (adders x last).Nodup ∧
    forall i, i ∈ adders x last -> exists q, tasks i = .request q ∧
      q.kind = .playback ∧ Beaten x (w.journal i).answers

/-!
## The counters
-/

section Counters

variable {x : AccountRef}

/-- The counter after some operations. -/
def streakOf (x : AccountRef) (log : List (Nat × StreakOp)) : Nat :=
  log.foldl (fun n e => e.2.apply x n) 0

theorem streakOf_snoc (log : List (Nat × StreakOp)) (e : Nat × StreakOp) :
    streakOf x (log ++ [e]) = e.2.apply x (streakOf x log) := by
  unfold streakOf
  rw [List.foldl_append]
  rfl

theorem adders_append (first second : List (Nat × StreakOp)) :
    adders x (first ++ second) = adders x first ++ adders x second := by
  unfold adders
  rw [List.filter_append, List.map_append]

/-- The counter is the number of PREVIEW answers since it was last reset. -/
theorem streakOf_eq (log : List (Nat × StreakOp)) :
    exists first last, log = first ++ last ∧
      (forall e, e ∈ last -> e.2 ≠ .reset x) ∧
      (adders x last).length = streakOf x log := by
  induction log using List.reverseRecOn with
  | nil =>
      exact ⟨[], [], rfl, fun _ he => (List.not_mem_nil he).elim, rfl⟩
  | append_singleton log e ih =>
      rcases ih with ⟨first, last, rfl, hkept, hlength⟩
      by_cases hreset : e.2 = .reset x
      · exists first ++ last ++ [e], []
        constructor
        · rw [List.append_nil]
        · constructor
          · exact fun _ he => (List.not_mem_nil he).elim
          · rw [streakOf_snoc, hreset, StreakOp.apply, if_pos rfl]
            rfl
      · exists first, last ++ [e]
        constructor
        · rw [List.append_assoc]
        · constructor
          · intro e' he'
            rcases List.mem_append.mp he' with hold | hnew
            · exact hkept e' hold
            · rw [List.mem_singleton.mp hnew]
              exact hreset
          · rw [streakOf_snoc, adders_append, List.length_append, hlength]
            rcases e with ⟨i, op⟩
            cases op with
            | reset a =>
                have hne : a ≠ x := fun heq => hreset (congrArg StreakOp.reset heq)
                rw [StreakOp.apply, if_neg hne]
                rfl
            | add a before =>
                by_cases heq : a = x
                · rw [StreakOp.apply, if_pos heq, heq]
                  simp [adders, StreakOp.added]
                · rw [StreakOp.apply, if_neg heq]
                  simp [adders, StreakOp.added, heq]
            | mark a => rfl

end Counters

/-!
## A single task
-/

section Tasks

variable {q : PoolRequest} {x : AccountRef} {trace : List TidalEvent}
  {left : TidalProg Unit} {g : PresentationJournal}

theorem sound_of_runs (hruns : (TrafficTask.request q).program.Runs trace left)
    (hheard : forall e, e ∈ trace -> e.call.Admits e.answer ∧ e.call.PresentsOnce e.answer) :
    (PresentationJournal.after trace).Sound q.kind := by
  have hkeeps : (PresentationJournal.watch q.kind).Keeps .start
      (TrafficTask.request q).program fun _ _ => True := by
    apply Watch.keeps_bind.mpr
    exact (makeRequestWithLimit_presents q).mono fun _ _ _ => trivial
  have hstep : forall (g : PresentationJournal) (c : TidalCall) (answer : Answer c),
      g.Sound q.kind -> (PresentationJournal.watch q.kind).may g c ->
      (PresentationJournal.watch q.kind).hears g c answer ->
      (g.note c answer).Sound q.kind := by
    intro g c answer hsound hmay hhears
    exact hmay hsound answer hhears.left hhears.right
  exact hkeeps.invariant (PresentationJournal.Sound q.kind) hstep hruns
    (Watch.heard_of fun e he _ => hheard e he) ⟨List.nodup_nil, Or.inl rfl⟩

theorem Noted.counts {settled : List AccountRef} {ops : List StreakOp}
    (h : Noted settled ops) : ops.filterMap StreakOp.added = settled := by
  induction h with
  | nil =>
      rfl
  | @snoc settled ops p before _ ih =>
      rw [List.filterMap_append, ih]
      congr 1
      unfold previewOps
      split <;> rfl

theorem Noted.mark {settled : List AccountRef} {ops : List StreakOp}
    (h : Noted settled ops) (hmark : .mark x ∈ ops) :
    exists n, .add x n ∈ ops ∧ trafficPreviewsBeforePreviewOnly ≤ n + 1 := by
  induction h with
  | nil =>
      cases hmark
  | @snoc settled ops p before _ ih =>
      rcases List.mem_append.mp hmark with hold | hnew
      · rcases ih hold with ⟨n, hadd, hreached⟩
        exact ⟨n, List.mem_append_left _ hadd, hreached⟩
      · by_cases hbelow : before + 1 < trafficPreviewsBeforePreviewOnly
        · rw [previewOps, if_pos hbelow] at hnew
          cases List.mem_singleton.mp hnew
        · have hcounted : previewOps p before = [.add p before, .reset p, .mark p] :=
            if_neg hbelow
          rw [hcounted] at hnew ⊢
          have hx : x = p := by simpa using hnew
          exact ⟨before, List.mem_append_right _ (by simp [hx]), not_lt.mp hbelow⟩

theorem Marking.counts {rest : List AccountRef} {last : List StreakOp}
    (h : Marking rest last) : (last.filterMap StreakOp.added) <+: rest := by
  cases h with
  | idle => exact List.nil_prefix
  | added _ => exact ⟨_, rfl⟩
  | reset _ => exact ⟨_, rfl⟩

theorem Marking.not_mark {rest : List AccountRef} {last : List StreakOp}
    (h : Marking rest last) : .mark x ∉ last := by
  cases h with
  | idle => exact List.not_mem_nil
  | added _ => simp
  | reset _ => simp

/-- The accounts that are counted are those that answered PREVIEW, in their order. -/
theorem Settling.counts {f : AccountRef} {previews : List AccountRef}
    {ops : List StreakOp} (h : Settling f previews ops) :
    (ops.filterMap StreakOp.added) <+: previews := by
  rcases h with ⟨settled, rest, noted, last, rfl, rfl, hnoted, hlast⟩
  show ((noted ++ last).filterMap StreakOp.added) <+: _
  rw [List.filterMap_append, hnoted.counts]
  exact (List.prefix_append_right_inj settled).mpr hlast.counts

theorem Settling.mark {f : AccountRef} {previews : List AccountRef}
    {ops : List StreakOp} (h : Settling f previews ops) (hmark : .mark x ∈ ops) :
    exists n, .add x n ∈ ops ∧ trafficPreviewsBeforePreviewOnly ≤ n + 1 := by
  rcases h with ⟨settled, rest, noted, last, rfl, rfl, hnoted, hlast⟩
  rcases List.mem_cons.mp hmark with hreset | hrest
  · cases hreset
  · rcases List.mem_append.mp hrest with hnotedMark | hlastMark
    · rcases hnoted.mark hnotedMark with ⟨n, hadd, hreached⟩
      exact ⟨n, List.mem_cons_of_mem _ (List.mem_append_left _ hadd), hreached⟩
    · exact absurd hlastMark hlast.not_mark

namespace PresentationJournal

variable {kind : LeaseKind}

theorem Sound.mark (h : g.Sound kind) (hmark : .mark x ∈ g.ops) :
    exists n, .add x n ∈ g.ops ∧ trafficPreviewsBeforePreviewOnly ≤ n + 1 := by
  rcases h.settling with hnone | ⟨_, previews, f, _, hsettling⟩
  · rw [hnone] at hmark
    cases hmark
  · exact hsettling.mark hmark

/-- An account is counted once, when it has answered PREVIEW before a FULL answer. -/
theorem Sound.counts (h : g.Sound kind) :
    (g.ops.filterMap StreakOp.added).Nodup ∧
      forall a, a ∈ g.ops.filterMap StreakOp.added ->
        kind = .playback ∧ Beaten a g.answers := by
  rcases h.settling with hnone | ⟨hkind, previews, f, hanswers, hsettling⟩
  · rw [hnone]
    constructor
    · exact List.nodup_nil
    · exact fun _ ha => (List.not_mem_nil ha).elim
  · have honce := h.once
    rw [hanswers, List.map_append, ids_previewsOf, List.nodup_append] at honce
    constructor
    · exact hsettling.counts.sublist.nodup honce.left.of_map
    · intro a ha
      rw [hanswers, beaten_iff]
      exact ⟨hkind, hsettling.counts.subset ha⟩

end PresentationJournal

theorem after_snoc (trace : List TidalEvent) (e : TidalEvent) :
    PresentationJournal.after (trace ++ [e]) =
      (PresentationJournal.after trace).note e.call e.answer := by
  unfold PresentationJournal.after
  rw [List.foldl_append]
  rfl

/-- The call counts no PREVIEW. -/
def TidalCall.CountsNothing (c : TidalCall) : Prop :=
  forall answer, (StreakOp.ofCall c answer).toList.filterMap StreakOp.added = []

theorem setPremium_only (id status : String) :
    (setPremium id status).Only TidalCall.CountsNothing := by
  have hstatus : forall a, TidalCall.CountsNothing (setPremiumStatus a status) := by
    intro a answer
    show (Option.toList (if status = premiumStatusPreview then _ else _)).filterMap _ = []
    split <;> rfl
  have hquiet : forall c : TidalCall,
      (forall answer, StreakOp.ofCall c answer = none) -> c.CountsNothing := by
    intro c hnone answer
    rw [hnone answer]
    rfl
  apply only_bind (only_ask (hquiet _ fun _ => rfl))
  intro account
  cases account with
  | none => trivial
  | some a =>
      apply only_bind (only_ask (hstatus a))
      intro _
      apply only_bind (only_ask (hquiet _ fun _ => rfl))
      intro now
      apply only_bind (only_ask (hquiet _ fun _ => rfl))
      intro _
      split
      · apply only_bind (only_ask fun _ => rfl)
        intro _
        apply only_bind (only_ask (hquiet _ fun _ => rfl))
        intro streak
        split
        · exact only_ask (hquiet _ fun _ => rfl)
        · trivial
      · trivial

/-- A check counts no PREVIEW. -/
theorem check_counts {id status : String}
    (hruns : (TrafficTask.check id status).program.Runs trace left) :
    (PresentationJournal.after trace).ops.filterMap StreakOp.added = [] := by
  have hcalls := (setPremium_only id status).runs hruns
  clear hruns
  induction trace using List.reverseRecOn with
  | nil =>
      rfl
  | append_singleton trace e ih =>
      rw [after_snoc, PresentationJournal.note_ops, List.filterMap_append,
        ih fun e' he' => hcalls e' (List.mem_append_left _ he'),
        hcalls e (List.mem_append_right _ List.mem_cons_self) e.answer]
      rfl

end Tasks

/-!
## All tasks
-/

namespace TrafficWorld

section Runs

variable {tasks : Nat -> TrafficTask} {w w' : TrafficWorld}

/-- The runs of the tasks, and the log of what they have done. -/
structure Traced (tasks : Nat -> TrafficTask) (w : TrafficWorld) : Prop where
  runs : forall i, (tasks i).program.Runs (w.trace i) (w.left i)
  heard : forall i e, e ∈ w.trace i ->
    e.call.Admits e.answer ∧ e.call.PresentsOnce e.answer
  ops : forall i, ((w.log.filter fun e => decide (e.1 = i)).map Prod.snd) =
    (w.journal i).ops
  streak : forall x, w.streak x = streakOf x w.log
  reads : forall before i x n later, w.log = before ++ (i, StreakOp.add x n) :: later ->
    n = streakOf x before

/-- A mark follows an operation of its own task that has reached the threshold. -/
def Marked (tasks : Nat -> TrafficTask) (w : TrafficWorld) : Prop :=
  forall before i x later q, w.log = before ++ (i, StreakOp.mark x) :: later ->
    tasks i = .request q -> exists first n last,
      before = first ++ (i, StreakOp.add x n) :: last ∧
        trafficPreviewsBeforePreviewOnly ≤ n + 1

theorem traced_start (tasks : Nat -> TrafficTask) : (start tasks).Traced tasks where
  runs _ := .here _
  heard _ _ he := nomatch he
  ops _ := rfl
  streak _ := rfl
  reads before i x n later h := by
    cases before <;> cases h

theorem snoc_split {α : Type} {log before later : List α} {new e : α}
    (h : log ++ [new] = before ++ e :: later) :
    (log = before ∧ new = e) ∨ exists rest, log = before ++ e :: rest := by
  induction later using List.reverseRecOn with
  | nil =>
      have hlast := List.append_inj' h rfl
      exact Or.inl ⟨hlast.left, List.head_eq_of_cons_eq hlast.right⟩
  | append_singleton rest last _ =>
      rw [← List.cons_append, ← List.append_assoc] at h
      exact Or.inr ⟨rest, (List.append_inj' h rfl).left⟩

section Call

variable {i j : Nat} {p : TidalProg Unit} {e : TidalEvent}

theorem call_trace_self : (w.call i p e).trace i = w.trace i ++ [e] :=
  Function.update_self i _ w.trace

theorem call_trace_ne (hne : j ≠ i) : (w.call i p e).trace j = w.trace j :=
  Function.update_of_ne hne _ w.trace

theorem call_left_self : (w.call i p e).left i = p :=
  Function.update_self i _ w.left

theorem call_left_ne (hne : j ≠ i) : (w.call i p e).left j = w.left j :=
  Function.update_of_ne hne _ w.left

theorem call_log_none (h : StreakOp.ofCall e.call e.answer = none) :
    (w.call i p e).log = w.log := by
  show w.log ++ _ = _
  rw [h]
  exact List.append_nil _

theorem call_log_some {op : StreakOp} (h : StreakOp.ofCall e.call e.answer = some op) :
    (w.call i p e).log = w.log ++ [(i, op)] := by
  show w.log ++ _ = _
  rw [h]
  rfl

/-- The operations of a task, after a call of it. -/
theorem call_ops_self
    (h : ((w.log.filter fun e => decide (e.1 = i)).map Prod.snd) = (w.journal i).ops) :
    (((w.call i p e).log.filter fun e => decide (e.1 = i)).map Prod.snd) =
      ((w.call i p e).journal i).ops := by
  unfold journal at h ⊢
  rw [call_trace_self, after_snoc, PresentationJournal.note_ops, ← h]
  cases hop : StreakOp.ofCall e.call e.answer with
  | none =>
      rw [call_log_none hop]
      exact (List.append_nil _).symm
  | some op =>
      rw [call_log_some hop, List.filter_append, List.map_append]
      simp

theorem call_ops_ne (hne : j ≠ i)
    (h : ((w.log.filter fun e => decide (e.1 = j)).map Prod.snd) = (w.journal j).ops) :
    (((w.call i p e).log.filter fun e => decide (e.1 = j)).map Prod.snd) =
      ((w.call i p e).journal j).ops := by
  unfold journal at h ⊢
  rw [call_trace_ne hne, ← h]
  cases hop : StreakOp.ofCall e.call e.answer with
  | none => rw [call_log_none hop]
  | some op =>
      rw [call_log_some hop, List.filter_append, List.map_append]
      simp [hne.symm]

end Call

/-- The number that a count has read. -/
theorem Reads.added {c : TidalCall} {answer : Answer c} (h : w.Reads c answer)
    {x : AccountRef} {n : Nat} (hop : StreakOp.ofCall c answer = some (.add x n)) :
    n = w.streak x := by
  cases c with
  | addTrafficStreak a =>
      cases hop
      exact h
  | setPremiumStatus a status =>
      change (if status = premiumStatusPreview then some (StreakOp.mark a) else none) = _
        at hop
      split at hop <;> cases hop
  | _ => cases hop

theorem Traced.step (h : w.Traced tasks) (hstep : Step w w') : w'.Traced tasks := by
  cases hstep with
  | @call i c next answer hleft hadmits hone hreads =>
      constructor
      · intro j
        by_cases hj : j = i
        · rw [hj, call_trace_self, call_left_self]
          exact (h.runs i).snoc hleft answer
        · rw [call_trace_ne hj, call_left_ne hj]
          exact h.runs j
      · intro j e he
        by_cases hj : j = i
        · rw [hj, call_trace_self] at he
          rcases List.mem_append.mp he with hold | hnew
          · exact h.heard i e hold
          · rw [List.mem_singleton.mp hnew]
            exact ⟨hadmits, hone⟩
        · rw [call_trace_ne hj] at he
          exact h.heard j e he
      · intro j
        by_cases hj : j = i
        · rw [hj]
          exact call_ops_self (h.ops i)
        · exact call_ops_ne hj (h.ops j)
      · intro x
        show onStreak x (StreakOp.ofCall c answer) (w.streak x) = _
        rw [h.streak x]
        cases hop : StreakOp.ofCall c answer with
        | none =>
            rw [call_log_none hop]
            rfl
        | some op =>
            rw [call_log_some hop, streakOf_snoc]
            rfl
      · intro before j x n later hlog
        cases hop : StreakOp.ofCall c answer with
        | none =>
            rw [call_log_none hop] at hlog
            exact h.reads before j x n later hlog
        | some op =>
            rw [call_log_some hop] at hlog
            rcases snoc_split hlog with ⟨rfl, hnew⟩ | ⟨rest, hold⟩
            · cases hnew
              rw [← h.streak x]
              exact hreads.added hop
            · exact h.reads before j x n rest hold

/-- The journal of a request. -/
theorem Traced.sound (h : w.Traced tasks) {i : Nat} {q : PoolRequest}
    (hi : tasks i = .request q) : (w.journal i).Sound q.kind := by
  have hruns := h.runs i
  rw [hi] at hruns
  exact sound_of_runs hruns (h.heard i)

/-- An operation of a task stands in the log. -/
theorem Traced.mem_log (h : w.Traced tasks) {i : Nat} {op : StreakOp}
    (hop : op ∈ (w.journal i).ops) : (i, op) ∈ w.log := by
  rw [← h.ops i] at hop
  rcases List.mem_map.mp hop with ⟨⟨j, op'⟩, hmem, rfl⟩
  rw [List.mem_filter] at hmem
  rw [← of_decide_eq_true hmem.right]
  exact hmem.left

theorem Traced.mem_ops (h : w.Traced tasks) {i : Nat} {op : StreakOp}
    (hop : (i, op) ∈ w.log) : op ∈ (w.journal i).ops := by
  rw [← h.ops i]
  exact List.mem_map.mpr ⟨(i, op), List.mem_filter.mpr ⟨hop, decide_eq_true rfl⟩, rfl⟩

theorem Marked.step (h : w.Marked tasks) (htraced : w.Traced tasks)
    (hstep : Step w w') : w'.Marked tasks := by
  have hafter := htraced.step hstep
  cases hstep with
  | @call i c next answer hleft hadmits hone hreads =>
      intro before j x later q hlog hj
      cases hop : StreakOp.ofCall c answer with
      | none =>
          rw [call_log_none hop] at hlog
          exact h before j x later q hlog hj
      | some op =>
          have hnow := hlog
          rw [call_log_some hop] at hlog
          rcases snoc_split hlog with ⟨rfl, hnew⟩ | ⟨rest, hold⟩
          · cases hnew
            have hmark : StreakOp.mark x ∈
                ((w.call i (next answer) ⟨c, answer⟩).journal i).ops := by
              apply hafter.mem_ops
              rw [hnow]
              exact List.mem_append_right _ List.mem_cons_self
            rcases (hafter.sound hj).mark hmark with ⟨n, hadd, hreached⟩
            have hmem := hafter.mem_log hadd
            rw [call_log_some hop, List.mem_append] at hmem
            rcases hmem with hold | hsame
            · rcases List.append_of_mem hold with ⟨first, last, hlast⟩
              exact ⟨first, n, last, hlast, hreached⟩
            · cases List.mem_singleton.mp hsame
          · exact h before j x rest q hold hj

/-- What holds of every world that can be reached. -/
theorem Reachable.traced (h : Reachable tasks w) :
    w.Traced tasks ∧ w.Marked tasks := by
  induction h with
  | refl =>
      constructor
      · exact traced_start tasks
      · intro before i x later q hlog
        cases before <;> cases hlog
  | tail _ hstep ih =>
      exact ⟨ih.left.step hstep, ih.right.step ih.left hstep⟩

/-- The counts of a task in the log are those of its journal. -/
theorem count_adders (x : AccountRef) (i : Nat) (log : List (Nat × StreakOp)) :
    (adders x log).count i =
      (((log.filter fun e => decide (e.1 = i)).map Prod.snd).filterMap
        StreakOp.added).count x := by
  induction log with
  | nil =>
      rfl
  | cons e rest ih =>
      have hsplit := adders_append (x := x) [e] rest
      rw [List.singleton_append] at hsplit
      rw [hsplit, List.count_append, ih, ← List.singleton_append (l := rest),
        List.filter_append, List.map_append, List.filterMap_append, List.count_append]
      congr 1
      rcases e with ⟨j, op⟩
      by_cases hj : j = i <;> cases op with
      | add a n => by_cases ha : a = x <;> simp [adders, StreakOp.added, hj, ha]
      | reset a => simp [adders, StreakOp.added, hj, List.filterMap_cons]
      | mark a => simp [adders, StreakOp.added, hj, List.filterMap_cons]

/-- No task counts an account twice. -/
theorem Traced.adders_nodup (h : w.Traced tasks) (x : AccountRef) :
    (adders x w.log).Nodup := by
  apply List.nodup_iff_count_le_one.mpr
  intro i
  rw [count_adders, h.ops i]
  cases hi : tasks i with
  | request q => exact List.nodup_iff_count_le_one.mp (h.sound hi).counts.left x
  | check id status =>
      have hruns := h.runs i
      rw [hi] at hruns
      unfold journal
      rw [check_counts hruns]
      exact Nat.zero_le _

/-- A task that has counted an account is a playback request to which it answered
PREVIEW, and later another account FULL. -/
theorem Traced.proves (h : w.Traced tasks) {x : AccountRef} {i : Nat}
    (hadds : i ∈ adders x w.log) : exists q, tasks i = .request q ∧
      q.kind = .playback ∧ Beaten x (w.journal i).answers := by
  rcases List.mem_map.mp hadds with ⟨⟨j, op⟩, hmem, rfl⟩
  rw [List.mem_filter] at hmem
  have hop := h.mem_ops hmem.left
  have hcounted : x ∈ (w.journal j).ops.filterMap StreakOp.added :=
    List.mem_filterMap.mpr ⟨op, hop, of_decide_eq_true hmem.right⟩
  cases hj : tasks j with
  | request q => exact ⟨q, rfl, (h.sound hj).counts.right x hcounted⟩
  | check id status =>
      have hruns := h.runs j
      rw [hj] at hruns
      unfold journal at hcounted
      rw [check_counts hruns] at hcounted
      exact absurd hcounted List.not_mem_nil

/-- What stands behind every mark. -/
theorem Reachable.proven (h : Reachable tasks w) {before later : List (Nat × StreakOp)}
    {i : Nat} {x : AccountRef} {q : PoolRequest}
    (hlog : w.log = before ++ (i, StreakOp.mark x) :: later) (hi : tasks i = .request q) :
    ProvenPreviewOnly tasks w x before := by
  rcases h.traced with ⟨htraced, hmarked⟩
  rcases hmarked before i x later q hlog hi with ⟨first, n, last, rfl, hreached⟩
  have hread : n = streakOf x first := by
    apply htraced.reads first i x n (last ++ (i, StreakOp.mark x) :: later)
    rw [hlog, List.append_assoc]
    rfl
  rcases streakOf_eq (x := x) first with ⟨old, recent, rfl, hkept, hlength⟩
  have hcounts : adders x (recent ++ [(i, StreakOp.add x n)]) = adders x recent ++ [i] := by
    rw [adders_append]
    simp [adders, StreakOp.added]
  have hwhole : w.log = old ++ (recent ++ [(i, StreakOp.add x n)]) ++
      (last ++ (i, StreakOp.mark x) :: later) := by
    rw [hlog]
    simp
  have hsublist : (adders x (recent ++ [(i, StreakOp.add x n)])).Sublist (adders x w.log) := by
    rw [hwhole, adders_append (old ++ _), adders_append old]
    exact (List.sublist_append_right _ _).trans (List.sublist_append_left _ _)
  exists old, recent ++ [(i, StreakOp.add x n)], last
  constructor
  · simp
  · constructor
    · intro e he
      rcases List.mem_append.mp he with hold | hnew
      · exact hkept e hold
      · rw [List.mem_singleton.mp hnew]
        exact fun heq => nomatch heq
    · constructor
      · rw [hcounts, List.length_append, hlength, ← hread]
        exact hreached
      · constructor
        · exact hsublist.nodup (htraced.adders_nodup x)
        · exact fun j hj => htraced.proves (hsublist.subset hj)

end Runs

end TrafficWorld

/-- Only proven PREVIEW answers count: what a request does to the counter of each
account, and what stands behind each mark, with any number of requests and checks
next to each other. -/
theorem traffic_previews_count :
    (forall (q : PoolRequest) (trace : List TidalEvent) (result : Except AppError Value),
      (makeRequestWithLimit q).Runs trace (.done result) ->
      (forall e, e ∈ trace -> e.call.Admits e.answer ∧ e.call.PresentsOnce e.answer) ->
      forall x, SettledFor q.kind x (PresentationJournal.after trace)) ∧
    (forall (tasks : Nat -> TrafficTask) (w : TrafficWorld), w.Reachable tasks ->
      forall before i x later q, w.log = before ++ (i, .mark x) :: later ->
        tasks i = .request q -> ProvenPreviewOnly tasks w x before) := by
  constructor
  · intro q trace result hruns hheard x
    have hended := (makeRequestWithLimit_presents q).runs hruns
      (Watch.heard_of fun e he _ => hheard e he)
    exact PresentationJournal.Ended.settledFor hended x
  · intro tasks w hreachable before i x later q hlog hi
    exact hreachable.proven hlog hi

/-- The preferred account answers FULL, and its status is known. -/
theorem traffic_previews_count_full :
    SettledFor .playback ⟨0, "a"⟩ (PresentationJournal.after
      [⟨playbackCount, 1⟩,
        ⟨rateLimitRemaining ⟨0, "a"⟩, none⟩,
        ⟨lease ⟨0, "a"⟩, ()⟩,
        ⟨workingClientFor "a", .ok ()⟩,
        ⟨getToken ⟨0, "a"⟩, .ok "token"⟩,
        ⟨rateLimitRemaining ⟨0, "a"⟩, none⟩,
        ⟨workingClientFor "a", .ok ()⟩,
        ⟨send (some ⟨0, "a"⟩) "url" [] "token", .ok ⟨⟨200, "OK"⟩, none, none⟩⟩,
        ⟨noteSuccessFor "a", ()⟩,
        ⟨readText, .ok ⟨"", .ok (.object [("assetPresentation", .string "FULL")])⟩⟩,
        ⟨clock, 100⟩,
        ⟨resetTrafficStreak ⟨0, "a"⟩, ()⟩,
        ⟨premiumCheckedAt ⟨0, "a"⟩, 90⟩,
        ⟨premiumStatus ⟨0, "a"⟩, "premium"⟩]) := by
  apply traffic_previews_count.left ⟨"url", none, some ⟨0, "a"⟩, none, 1, .playback, "1"⟩
  · exact .heard (.heard (.heard (.heard (.heard (.heard (.heard (.heard (.heard (.heard
      (.heard (.heard (.heard (.heard (.here _))))))))))))))
  · simp [TidalCall.Admits, TidalCall.PresentsOnce, dataOf, Except.toOption,
      OnePresentation, trackPresentation, Value.get]

end HifiApi
