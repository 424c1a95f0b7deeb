import HifiApi.Uptime.State
import Mathlib.Tactic.Ring

/-!
# The timeline

The summary against the complete log of observations.  In the log nothing is
dropped and every observation stands for itself; the history in memory is
pruned and leaves repeated observations out.
-/

namespace HifiApi

inductive UptimeCall where
  | observe (o : Observation) (now : Int)
  | summary (now : Int)

namespace UptimeCall

def now : UptimeCall -> Int
  | observe _ now => now
  | summary now => now

/-- The entry of a call in the complete log. -/
def entry : UptimeCall -> Option UptimeEvent
  | observe o now => some { observedAt := now, seen := o }
  | summary _ => none

end UptimeCall

namespace AccountUptime

def call (u : AccountUptime) : UptimeCall -> AccountUptime
  | .observe o now => (u.note o now).1
  | .summary now => (u.summary now).1

def afterCalls (calls : List UptimeCall) : AccountUptime :=
  calls.foldl call new

end AccountUptime

/-- The status of the last observation up to a time, evaluated at that time. -/
def statusAt (log : List UptimeEvent) (t : Int) : Option UptimeStatus :=
  (log.filter fun e => decide (e.observedAt ≤ t)).getLast?.map fun e => e.status t

/-- The seconds of the window at which the log has a status, or none. -/
def secondsAt (log : List UptimeEvent) (now : Int) (status : Option UptimeStatus) :
    Int :=
  ((Span.instants (now - windowSecs) now).filter fun t =>
    statusAt log t = status).card

def UptimeSegment.span (s : UptimeSegment) : Span (Option UptimeStatus) where
  start := s.start
  stop := s.stop
  value := s.status

/-- A summary that says of the window what the log says. -/
structure ExactSummary (log : List UptimeEvent) (now : Int) (s : UptimeSummary) :
    Prop where
  currentStatus : s.currentStatus = statusAt log now
  windowStart : s.windowStart = now - windowSecs
  windowEnd : s.windowEnd = now
  tiles : Span.Tiles (statusAt log) (now - windowSecs)
    (s.segments.map UptimeSegment.span) now
  maximal : Span.Maximal (s.segments.map UptimeSegment.span)
  active : forall seg, seg ∈ s.segments ->
    seg.active = seg.status.map fun status => decide (status ≠ .down)
  upSeconds : s.upSeconds = secondsAt log now (some .up)
  downSeconds : s.downSeconds = secondsAt log now (some .down)
  waitingSeconds : s.waitingSeconds = secondsAt log now (some .waiting)
  unknownSeconds : s.unknownSeconds = secondsAt log now none

/-!
## Statuses
-/

namespace Observation

theorem normal_status (o : Observation) : o.normal.status = o.status := by
  funext t
  rcases o with ⟨active, ready, expires⟩
  cases active with
  | false =>
      rfl
  | true =>
      cases ready with
      | false =>
          rfl
      | true =>
          rfl

theorem status_eq_down {o : Observation} {t : Int} :
    o.status t = .down <-> o.active = false := by
  rcases o with ⟨active, ready, expires⟩
  unfold status
  cases active with
  | false =>
      exact ⟨fun _ => rfl, fun _ => rfl⟩
  | true =>
      show (if _ then UptimeStatus.waiting else .up) = .down <-> _
      split
      · exact ⟨fun h => (nomatch h), fun h => (nomatch h)⟩
      · exact ⟨fun h => (nomatch h), fun h => (nomatch h)⟩

/-- A status changes only where a ready token expires. -/
theorem status_const {o : Observation} {start stop t : Int}
    (h : o.active = true -> o.tokenReady = true -> forall expires,
      o.tokenExpiresAt = some expires -> start < expires -> stop ≤ expires)
    (hstart : start ≤ t) (hstop : t < stop) : o.status t = o.status start := by
  rcases o with ⟨active, ready, expires⟩
  cases active with
  | false =>
      rfl
  | true =>
      cases ready with
      | false =>
          rfl
      | true =>
          cases expires with
          | none =>
              rfl
          | some expires =>
              show (if decide (expires ≤ t) = true then UptimeStatus.waiting else .up) =
                if decide (expires ≤ start) = true then .waiting else .up
              have hsame : expires ≤ t <-> expires ≤ start := by
                constructor
                · intro hle
                  rcases lt_or_ge start expires with hlt | hge
                  · exact absurd (lt_of_lt_of_le hstop (h rfl rfl expires rfl hlt))
                      (not_lt.mpr hle)
                  · exact hge
                · intro hle
                  exact le_trans hle hstart
              rw [decide_eq_decide.mpr hsame]

end Observation

theorem statusAt_snoc (log : List UptimeEvent) (e : UptimeEvent) (t : Int) :
    statusAt (log ++ [e]) t =
      if e.observedAt ≤ t then some (e.status t) else statusAt log t := by
  unfold statusAt
  rw [List.filter_append]
  split
  · rename_i hle
    have hone : [e].filter (fun e => decide (e.observedAt ≤ t)) = [e] :=
      List.filter_cons_of_pos (decide_eq_true hle)
    rw [hone, List.getLast?_concat]
    rfl
  · rename_i hnot
    have hone : [e].filter (fun e => decide (e.observedAt ≤ t)) = [] :=
      List.filter_cons_of_neg (by simpa using hnot)
    rw [hone, List.append_nil]

theorem statusAt_eq_current {log : List UptimeEvent}
    (h : Log.InOrder UptimeEvent.observedAt log) (t : Int) :
    statusAt log t =
      (Log.current UptimeEvent.observedAt none log t).map fun e => e.status t := by
  rw [Log.current_eq_getLast? h]
  rfl

theorem statusAt_of_le {log : List UptimeEvent} {t : Int}
    (h : forall e, e ∈ log -> e.observedAt ≤ t) :
    statusAt log t = log.getLast?.map fun e => e.status t := by
  unfold statusAt
  rw [List.filter_eq_self.mpr fun e he => decide_eq_true (h e he)]

theorem statusAt_prune {log : List UptimeEvent} {cutoff t : Int}
    (h : Log.InOrder UptimeEvent.observedAt log) (hle : cutoff ≤ t) :
    statusAt (Log.prune UptimeEvent.observedAt cutoff log) t = statusAt log t := by
  rw [statusAt_eq_current (h.prune cutoff), statusAt_eq_current h,
    Log.current_prune hle]

/-!
## Segments
-/

namespace UptimeSegment

/-- Segments that say up to a time what a function of time says. -/
structure Shows (f : Int -> Option UptimeStatus) (start : Int)
    (segments : List UptimeSegment) (stop : Int) : Prop where
  tiles : Span.Tiles f start (segments.map span) stop
  maximal : Span.Maximal (segments.map span)
  active : forall seg, seg ∈ segments ->
    seg.active = seg.status.map fun status => decide (status ≠ .down)

theorem append_span (segments : List UptimeSegment) (start stop : Int)
    (event : Option UptimeEvent) :
    (append segments start stop event).map span =
      Span.extend (segments.map span) start stop
        (event.map fun e => e.status start) := by
  unfold append Span.extend
  rw [List.getLast?_map]
  cases segments.getLast? with
  | none =>
      rw [List.map_append]
      rfl
  | some last =>
      have hon : (last.span.stop = start ∧
          last.span.value = event.map fun e => e.status start) =
            (last.stop = start ∧ last.status = event.map fun e => e.status start) :=
        rfl
      simp only [Option.map_some, hon]
      split
      · rw [List.map_append, <- List.map_dropLast]
        rfl
      · rw [List.map_append]
        rfl

theorem append_active {segments : List UptimeSegment} {start stop : Int}
    {event : Option UptimeEvent}
    (h : forall seg, seg ∈ segments ->
      seg.active = seg.status.map fun status => decide (status ≠ .down)) :
    forall seg, seg ∈ append segments start stop event ->
      seg.active = seg.status.map fun status => decide (status ≠ .down) := by
  have hnew : (event.map fun e => e.seen.active) =
      (event.map fun e => e.status start).map fun status =>
        decide (status ≠ .down) := by
    cases event with
    | none =>
        rfl
    | some e =>
        show some e.seen.active = some (decide (e.seen.status start ≠ .down))
        congr 1
        rw [Bool.eq_iff_iff, decide_eq_true_eq, ne_eq, Observation.status_eq_down,
          Bool.not_eq_false]
  intro seg hseg
  unfold append at hseg
  dsimp only at hseg
  split at hseg
  · rename_i last hlast
    split at hseg
    · rcases List.mem_append.mp hseg with hold | hone
      · exact h seg (List.mem_of_mem_dropLast hold)
      · rw [List.mem_singleton.mp hone]
        exact h last (List.mem_of_getLast? hlast)
    · rcases List.mem_append.mp hseg with hold | hone
      · exact h seg hold
      · rw [List.mem_singleton.mp hone]
        exact hnew
  · rcases List.mem_append.mp hseg with hold | hone
    · exact h seg hold
    · rw [List.mem_singleton.mp hone]
      exact hnew

theorem append_shows {f : Int -> Option UptimeStatus} {start mid stop : Int}
    {segments : List UptimeSegment} {event : Option UptimeEvent}
    (h : Shows f start segments mid) (hlt : mid < stop)
    (hvalue : forall t, mid ≤ t -> t < stop ->
      f t = event.map fun e => e.status mid) :
    Shows f start (append segments mid stop event) stop := by
  constructor
  · rw [append_span]
    exact h.tiles.extend hlt hvalue
  · rw [append_span]
    exact h.maximal.extend h.tiles
  · exact append_active h.active

theorem appendInterval_shows {f : Int -> Option UptimeStatus} {start mid stop : Int}
    {segments : List UptimeSegment} {event : Option UptimeEvent}
    (h : Shows f start segments mid) (hlt : mid < stop)
    (hvalue : forall t, mid ≤ t -> t < stop ->
      f t = event.map fun e => e.status t) :
    Shows f start (appendInterval segments mid stop event) stop := by
  unfold appendInterval
  split
  · rename_i expires hexpires
    rcases Option.bind_eq_some_iff.mp hexpires with ⟨e, he, hsome⟩
    rcases Option.filter_eq_some_iff.mp he with ⟨hevent, _⟩
    rcases Option.filter_eq_some_iff.mp hsome with ⟨heq, hinside⟩
    rw [Bool.and_eq_true, decide_eq_true_eq, decide_eq_true_eq] at hinside
    rw [hevent] at hvalue ⊢
    -- the token expires inside the interval: the status changes once, there
    apply append_shows
    · apply append_shows h hinside.left
      intro t hle ht
      rw [hvalue t hle (lt_trans ht hinside.right)]
      apply congrArg some
      apply Observation.status_const _ hle ht
      intro _ _ expires' heq' _
      rw [Option.some.inj (heq.symm.trans heq')]
    · exact hinside.right
    · intro t hle ht
      rw [hvalue t (le_trans (le_of_lt hinside.left) hle) ht]
      apply congrArg some
      apply Observation.status_const _ hle ht
      intro _ _ expires' heq' hafter
      rw [Option.some.inj (heq.symm.trans heq')] at hafter
      exact absurd hafter (lt_irrefl _)
  · rename_i hnone
    apply append_shows h hlt
    intro t hle ht
    rw [hvalue t hle ht]
    cases event with
    | none =>
        rfl
    | some e =>
        apply congrArg some
        apply Observation.status_const _ hle ht
        intro hactive hready expires hexpires hafter
        apply not_lt.mp
        intro hbefore
        simp [Option.filter_some, hactive, hready, hexpires, hafter, hbefore] at hnone

theorem walk_shows {f : Int -> Option UptimeStatus} {start now : Int}
    (events : List UptimeEvent) {cursor : Int} {previous : Option UptimeEvent}
    {segments : List UptimeSegment} (h : Shows f start segments cursor)
    (hcursor : cursor ≤ now)
    (hvalue : forall t, cursor ≤ t -> t ≤ now -> f t =
      (Log.current UptimeEvent.observedAt previous events t).map fun e => e.status t) :
    exists cursor' previous' segments',
      walk now events cursor previous segments = (cursor', previous', segments') ∧
      Shows f start segments' cursor' ∧ cursor' ≤ now ∧
      forall t, cursor' ≤ t -> t ≤ now ->
        f t = previous'.map fun e => e.status t := by
  induction events generalizing cursor previous segments with
  | nil =>
      exact ⟨cursor, previous, segments, rfl, h, hcursor, hvalue⟩
  | cons e rest ih =>
      unfold walk
      split
      · rename_i hlate
        refine ⟨cursor, previous, segments, rfl, h, hcursor, ?_⟩
        intro t hle ht
        rw [hvalue t hle ht, Log.current,
          if_neg (not_le.mpr (lt_of_le_of_lt ht hlate))]
      · rename_i hnotLate
        have hdue : e.observedAt ≤ now := not_lt.mp hnotLate
        split
        · rename_i hafter
          apply ih
          · apply appendInterval_shows h hafter
            intro t hle ht
            rw [hvalue t hle (le_trans (le_of_lt ht) hdue), Log.current,
              if_neg (not_le.mpr ht)]
          · exact hdue
          · intro t hle ht
            rw [hvalue t (le_trans (le_of_lt hafter) hle) ht, Log.current,
              if_pos hle]
        · rename_i hnotAfter
          apply ih h hcursor
          intro t hle ht
          rw [hvalue t hle ht, Log.current,
            if_pos (le_trans (not_lt.mp hnotAfter) hle)]

theorem eq_ofSpans {segments : List UptimeSegment}
    (h : forall seg, seg ∈ segments ->
      seg.active = seg.status.map fun status => decide (status ≠ .down)) :
    segments = (segments.map span).map fun s =>
      ⟨s.start, s.stop, s.value.map fun status => decide (status ≠ .down),
        s.value⟩ := by
  induction segments with
  | nil =>
      rfl
  | cons seg rest ih =>
      have hseg := h seg (List.mem_cons_self ..)
      have hrest := ih fun seg' hseg' => h seg' (List.mem_cons_of_mem _ hseg')
      rw [List.map_cons, List.map_cons, <- hrest]
      congr 1
      rcases seg with ⟨start, stop, active, status⟩
      exact congrArg (fun active => UptimeSegment.mk start stop active status) hseg

theorem secondsOf_eq_total (status : UptimeStatus) (segments : List UptimeSegment) :
    secondsOf status segments = Span.total (some status) (segments.map span) := by
  unfold secondsOf Span.total
  rw [List.map_map]
  rfl

end UptimeSegment

/-- Whatever a tiling spends outside the three statuses it spends at none. -/
theorem tiles_total {f : Int -> Option UptimeStatus} {start stop : Int}
    {spans : List (Span (Option UptimeStatus))} (h : Span.Tiles f start spans stop) :
    stop - start - Span.total (some .up) spans - Span.total (some .down) spans -
        Span.total (some .waiting) spans = Span.total none spans := by
  induction h with
  | none =>
      show start - start - 0 - 0 - 0 = 0
      ring
  | @snoc spans mid stop value _ _ _ ih =>
      rw [Span.total_snoc, Span.total_snoc, Span.total_snoc, Span.total_snoc, <- ih]
      rcases value with _ | ⟨_ | _ | _⟩
      all_goals
        simp only [reduceCtorEq, Option.some.injEq, if_true, if_false]
        ring

/-!
## One summary
-/

namespace AccountUptime

/-- The summary of a history in order says what the history says. -/
theorem summary_shows {u : AccountUptime} {now : Int}
    (h : Log.InOrder UptimeEvent.observedAt u.events) :
    (u.summary now).2.currentStatus = statusAt u.events now ∧
    UptimeSegment.Shows (statusAt u.events) (now - windowSecs)
      (u.summary now).2.segments now := by
  have hstart : now - windowSecs ≤ now := sub_le_self now (by decide)
  have hagree : forall t, now - windowSecs ≤ t -> t ≤ now -> statusAt u.events t =
      (Log.current UptimeEvent.observedAt none (u.prune now).events t).map
        fun e => e.status t := by
    intro t hle _
    rw [<- statusAt_prune h hle]
    exact statusAt_eq_current (h.prune _) t
  have hempty : UptimeSegment.Shows (statusAt u.events) (now - windowSecs) []
      (now - windowSecs) :=
    ⟨Span.Tiles.none, List.isChain_nil, fun _ hseg => nomatch hseg⟩
  rcases UptimeSegment.walk_shows (u.prune now).events hempty hstart hagree with
    ⟨cursor, previous, segments, hwalk, hshows, hle, hrest⟩
  unfold summary
  simp only [hwalk]
  constructor
  · exact (hrest now hle (le_refl _)).symm
  · show UptimeSegment.Shows _ _ (if cursor < now then _ else _) _
    split
    · rename_i hlt
      exact UptimeSegment.appendInterval_shows hshows hlt
        fun t ht hnow => hrest t ht (le_of_lt hnow)
    · rename_i hnot
      have heq : cursor = now := le_antisymm hle (not_lt.mp hnot)
      exact heq ▸ hshows

end AccountUptime

theorem ExactSummary.unique {log : List UptimeEvent} {now : Int}
    {s s' : UptimeSummary} (h : ExactSummary log now s)
    (h' : ExactSummary log now s') : s = s' := by
  have hsegments : s.segments = s'.segments := by
    rw [UptimeSegment.eq_ofSpans h.active, UptimeSegment.eq_ofSpans h'.active,
      h.tiles.unique h'.tiles h.maximal h'.maximal]
  have hcurrent := h.currentStatus.trans h'.currentStatus.symm
  have hwindowStart := h.windowStart.trans h'.windowStart.symm
  have hwindowEnd := h.windowEnd.trans h'.windowEnd.symm
  have hup := h.upSeconds.trans h'.upSeconds.symm
  have hdown := h.downSeconds.trans h'.downSeconds.symm
  have hwaiting := h.waitingSeconds.trans h'.waitingSeconds.symm
  have hunknown := h.unknownSeconds.trans h'.unknownSeconds.symm
  cases s
  cases s'
  simp only [UptimeSummary.mk.injEq]
  exact ⟨hcurrent, hwindowStart, hwindowEnd, hup, hdown, hwaiting, hunknown,
    hsegments⟩

/-!
## Runs
-/

/-- What the history in memory keeps of the complete log. -/
structure KeepsLog (log : List UptimeEvent) (u : AccountUptime) (now : Int) :
    Prop where
  inOrder : Log.InOrder UptimeEvent.observedAt u.events
  past : forall e, e ∈ u.events -> e.observedAt ≤ now
  agrees : forall t, now - windowSecs ≤ t -> statusAt u.events t = statusAt log t

namespace AccountUptime

/-- What {lit}`observe` does to memory when the clock has not gone back: it
repeats the last state or adds an event of this second. -/
theorem note_cases (u : AccountUptime) (o : Observation) {now : Int}
    (h : forall e, e ∈ u.events -> e.observedAt ≤ now) :
    (u.note o now = (u.prune now, none) ∧
      u.events.getLast?.map UptimeEvent.seen = some o.normal) ∨
    (u.note o now =
        ({ events := (u.prune now).events ++ [⟨now, o.normal⟩] },
          some ⟨now, o.normal⟩) ∧
      u.events.getLast?.map UptimeEvent.seen ≠ some o.normal) := by
  have hlast : (u.prune now).events.getLast? = u.events.getLast? :=
    Log.getLast?_prune _ _
  have hat : (u.events.getLast?.elim now fun e => max now e.observedAt) = now := by
    cases hget : u.events.getLast? with
    | none =>
        rfl
    | some e =>
        exact max_eq_left (h e (List.mem_of_getLast? hget))
  unfold note
  dsimp only
  rw [hlast, hat]
  split
  · rename_i hsame
    rw [Option.any_eq_true] at hsame
    rcases hsame with ⟨e, he, hseen⟩
    left
    constructor
    · rfl
    · rw [he, Option.map_some, of_decide_eq_true hseen]
  · rename_i hdiffer
    right
    constructor
    · rfl
    · intro hsome
      rcases Option.map_eq_some_iff.mp hsome with ⟨e, he, hseen⟩
      apply hdiffer
      rw [he, Option.any_some]
      exact decide_eq_true hseen

end AccountUptime

namespace KeepsLog

theorem later {log : List UptimeEvent} {u : AccountUptime} {before now : Int}
    (h : KeepsLog log u before) (hle : before ≤ now) : KeepsLog log u now := by
  constructor
  · exact h.inOrder
  · exact fun e he => le_trans (h.past e he) hle
  · exact fun t ht => h.agrees t (le_trans (sub_le_sub_right hle _) ht)

theorem prune {log : List UptimeEvent} {u : AccountUptime} {before now : Int}
    (h : KeepsLog log u before) (hle : before ≤ now) :
    KeepsLog log (u.prune now) now := by
  constructor
  · exact h.inOrder.prune _
  · intro e he
    exact le_trans (h.past e (Log.mem_of_mem_prune he)) hle
  · intro t ht
    show statusAt (Log.prune _ _ u.events) t = _
    rw [statusAt_prune h.inOrder ht]
    exact h.agrees t (le_trans (sub_le_sub_right hle _) ht)

theorem observe {log : List UptimeEvent} {u : AccountUptime} {before now : Int}
    (h : KeepsLog log u before) (hle : before ≤ now) (o : Observation) :
    KeepsLog (log ++ [⟨now, o⟩]) (u.note o now).1 now := by
  have hpruned := h.prune hle
  rcases u.note_cases o fun e he => le_trans (h.past e he) hle with
    ⟨hnote, hlast⟩ | ⟨hnote, _⟩
  · rw [hnote]
    constructor
    · exact hpruned.inOrder
    · exact hpruned.past
    · intro t ht
      rw [statusAt_snoc]
      split
      · rename_i hnow
        -- the last event in memory stands for the repeated observation
        rw [statusAt_of_le fun e he => le_trans (hpruned.past e he) hnow]
        show (Log.prune _ _ u.events).getLast?.map _ = _
        rw [Log.getLast?_prune]
        rcases Option.map_eq_some_iff.mp hlast with ⟨e, he, hseen⟩
        rw [he]
        show some (e.seen.status t) = some (o.status t)
        rw [hseen, Observation.normal_status]
      · exact hpruned.agrees t ht
  · rw [hnote]
    constructor
    · exact hpruned.inOrder.snoc hpruned.past
    · intro e he
      rcases List.mem_append.mp he with hold | hnew
      · exact hpruned.past e hold
      · rw [List.mem_singleton.mp hnew]
    · intro t ht
      rw [statusAt_snoc, statusAt_snoc, hpruned.agrees t ht]
      show (if now ≤ t then some (o.normal.status t) else _) = _
      rw [Observation.normal_status]
      rfl

theorem exactSummary {log : List UptimeEvent} {u : AccountUptime} {now : Int}
    (h : KeepsLog log u now) : ExactSummary log now (u.summary now).2 := by
  rcases @AccountUptime.summary_shows u now h.inOrder with ⟨hcurrent, hshows⟩
  have htiles : Span.Tiles (statusAt log) (now - windowSecs)
      ((u.summary now).2.segments.map UptimeSegment.span) now :=
    hshows.tiles.congr fun t ht _ => h.agrees t ht
  have hseconds (status : UptimeStatus) :
      UptimeSegment.secondsOf status (u.summary now).2.segments =
        secondsAt log now (some status) := by
    rw [UptimeSegment.secondsOf_eq_total, htiles.total_eq_card]
    rfl
  constructor
  · rw [hcurrent]
    exact h.agrees now (sub_le_self now (by decide))
  · rfl
  · rfl
  · exact htiles
  · exact hshows.maximal
  · exact hshows.active
  · exact hseconds .up
  · exact hseconds .down
  · exact hseconds .waiting
  · show windowSecs - UptimeSegment.secondsOf .up (u.summary now).2.segments -
        UptimeSegment.secondsOf .down (u.summary now).2.segments -
        UptimeSegment.secondsOf .waiting (u.summary now).2.segments = _
    have htotal := tiles_total htiles
    rw [sub_sub_cancel] at htotal
    rw [UptimeSegment.secondsOf_eq_total, UptimeSegment.secondsOf_eq_total,
      UptimeSegment.secondsOf_eq_total, htotal, htiles.total_eq_card]
    rfl

end KeepsLog

theorem afterCalls_keepsLog (calls : List UptimeCall)
    (horder : (calls.map UptimeCall.now).Pairwise (· ≤ ·)) {now : Int}
    (hnow : forall c, c ∈ calls -> c.now ≤ now) :
    KeepsLog (calls.filterMap UptimeCall.entry) (AccountUptime.afterCalls calls)
      now := by
  induction calls using List.reverseRecOn generalizing now with
  | nil =>
      exact ⟨List.Pairwise.nil, fun _ he => (nomatch he), fun _ _ => rfl⟩
  | append_singleton calls c ih =>
      rw [List.map_append, List.pairwise_append] at horder
      have hbefore : KeepsLog (calls.filterMap UptimeCall.entry)
          (AccountUptime.afterCalls calls) c.now := by
        apply ih horder.left
        intro c' hc'
        exact horder.right.right _ (List.mem_map_of_mem hc') _
          (List.mem_singleton_self _)
      have hlast := hnow c (List.mem_append_right _ (List.mem_singleton_self c))
      rw [AccountUptime.afterCalls, List.foldl_append, List.filterMap_append]
      apply KeepsLog.later _ hlast
      cases c with
      | observe o at_ =>
          exact hbefore.observe (le_refl _) o
      | summary at_ =>
          show KeepsLog (_ ++ []) _ _
          rw [List.append_nil]
          exact hbefore.prune (le_refl _)

/-- After any calls with a clock that does not go back, a summary says of every
second of the window what the complete log says, and nothing else does. -/
theorem summary_eq_log (calls : List UptimeCall)
    (horder : (calls.map UptimeCall.now).Pairwise (· ≤ ·)) (now : Int)
    (hnow : forall c, c ∈ calls -> c.now ≤ now) :
    let log := calls.filterMap UptimeCall.entry
    let s := ((AccountUptime.afterCalls calls).summary now).2
    ExactSummary log now s ∧
    (forall s', ExactSummary log now s' -> s' = s) ∧
    0 ≤ s.upSeconds ∧ 0 ≤ s.downSeconds ∧ 0 ≤ s.waitingSeconds ∧
    0 ≤ s.unknownSeconds ∧
    s.upSeconds + s.downSeconds + s.waitingSeconds + s.unknownSeconds = windowSecs := by
  intro log s
  have hkeeps := afterCalls_keepsLog calls horder hnow
  have hexact : ExactSummary log now s := hkeeps.exactSummary
  refine ⟨hexact, fun s' h' => h'.unique hexact, ?_, ?_, ?_, ?_, ?_⟩
  · rw [hexact.upSeconds]
    exact Int.natCast_nonneg _
  · rw [hexact.downSeconds]
    exact Int.natCast_nonneg _
  · rw [hexact.waitingSeconds]
    exact Int.natCast_nonneg _
  · rw [hexact.unknownSeconds]
    exact Int.natCast_nonneg _
  · show s.upSeconds + s.downSeconds + s.waitingSeconds +
      (windowSecs - s.upSeconds - s.downSeconds - s.waitingSeconds) = windowSecs
    ring

/-- A token that expires between two calls, and a summary in between. -/
theorem summary_eq_log_expiry :
    let calls := [UptimeCall.observe ⟨true, false, none⟩ 1000,
      UptimeCall.observe ⟨true, true, some 1300⟩ 1100, UptimeCall.summary 1200]
    (calls.map UptimeCall.now).Pairwise (· ≤ ·) ∧
    (forall c, c ∈ calls -> c.now ≤ 1400) ∧
    ExactSummary [⟨1000, ⟨true, false, none⟩⟩, ⟨1100, ⟨true, true, some 1300⟩⟩] 1400
      ((AccountUptime.afterCalls calls).summary 1400).2 := by
  intro calls
  have horder : (calls.map UptimeCall.now).Pairwise (· ≤ ·) := by decide
  have hnow : forall c, c ∈ calls -> c.now ≤ 1400 := by decide
  exact ⟨horder, hnow, (summary_eq_log calls horder 1400 hnow).left⟩

end HifiApi
