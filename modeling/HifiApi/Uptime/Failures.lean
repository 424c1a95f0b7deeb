import HifiApi.Uptime.World

/-!
# Transactions that fail

An event goes into memory before its transaction.  Where the transaction fails
the event stays in memory only, and an observation of the same state is then
taken for a repetition.
-/

namespace HifiApi

/-- The state of the last call that brought a change, and of the last one whose
transaction succeeded. -/
structure LastStates where
  seen : Option Observation
  stored : Option Observation
deriving DecidableEq

namespace LastStates

def none : LastStates where
  seen := .none
  stored := .none

variable {Id : Type} [DecidableEq Id]

def ownAfter (s : LastStates) : UptimeAction Id -> LastStates
  | .observe _ o _ commits =>
      if s.seen = some o.normal then
        s
      else
        { seen := some o.normal
          stored := if commits then some o.normal else s.stored }
  | .summary _ _ => s
  | .reset _ commits => if commits then none else s
  | .restart _ _ => { s with seen := s.stored }

def after (id : Id) (s : LastStates) (a : UptimeAction Id) : LastStates :=
  if a.account = id then s.ownAfter a else s

/-- The last states after the calls for an account. -/
def ofCalls (id : Id) (actions : List (UptimeAction Id)) : LastStates :=
  actions.foldl (after id) none

end LastStates

variable {Id : Type} [DecidableEq Id]

namespace UptimeWorld

/-- The state of the last event in memory. -/
def lastSeen (w : UptimeWorld Id) (id : Id) : Option Observation :=
  (w.memory id).events.getLast?.map UptimeEvent.seen

/-- The state of the last row. -/
def lastStored (w : UptimeWorld Id) (id : Id) : Option Observation :=
  (w.stored id).getLast?.map UptimeEvent.seen

end UptimeWorld

/-- The last row describes the last event, and a process that starts now reports
the same current status. -/
def InStep (w : UptimeWorld Id) (id : Id) (now : Int) : Prop :=
  w.lastStored id = w.lastSeen id ∧
    forall later, now ≤ later ->
      ((AccountUptime.load w.table id now).summary later).2.currentStatus =
        ((w.memory id).summary later).2.currentStatus

/-- Every {lit}`observe` of the account that answers without an error leaves its
table in step with its memory. -/
def OkMeansStored (id : Id) (actions : List (UptimeAction Id)) : Prop :=
  forall before o now commits rest,
    actions = before ++ UptimeAction.observe id o now commits :: rest ->
    (((UptimeWorld.new.run before).memory id).observe
        (UptimeWorld.new.run before).table id o now commits).2.2 = .ok () ->
    InStep (UptimeWorld.new.run (before ++ [UptimeAction.observe id o now commits])) id now

/-- No observation repeats the last state while the last state whose transaction
succeeded is another one. -/
def NoLostRepeat (id : Id) (actions : List (UptimeAction Id)) : Prop :=
  forall before o now commits rest,
    actions = before ++ UptimeAction.observe id o now commits :: rest ->
    (LastStates.ofCalls id before).seen = some o.normal ->
    (LastStates.ofCalls id before).stored = some o.normal

/-!
## Following the last states
-/

/-- Memory and table are in order and end in the last states. -/
structure Follows (id : Id) (s : LastStates) (now : Int) (w : UptimeWorld Id) :
    Prop where
  memoryInOrder : Log.InOrder UptimeEvent.observedAt (w.memory id).events
  memoryPast : forall e, e ∈ (w.memory id).events -> e.observedAt ≤ now
  tableInOrder : w.table.InOrder id
  tablePast : forall r, r ∈ w.table.rowsOf id -> r.event.observedAt ≤ now
  seen : w.lastSeen id = s.seen
  stored : w.lastStored id = s.stored

namespace Follows

variable {id : Id} {s : LastStates} {before now : Int} {w : UptimeWorld Id}

theorem later (h : Follows id s before w) (hle : before ≤ now) :
    Follows id s now w := by
  constructor
  · exact h.memoryInOrder
  · exact fun e he => le_trans (h.memoryPast e he) hle
  · exact h.tableInOrder
  · exact fun r hr => le_trans (h.tablePast r hr) hle
  · exact h.seen
  · exact h.stored

/-- Memory may be replaced by a history in order that ends in a given state. -/
theorem setMemory (h : Follows id s now w) {u : AccountUptime}
    {seen : Option Observation}
    (horder : Log.InOrder UptimeEvent.observedAt u.events)
    (hpast : forall e, e ∈ u.events -> e.observedAt ≤ now)
    (hseen : u.events.getLast?.map UptimeEvent.seen = seen) :
    Follows id { s with seen := seen } now (w.setMemory id u) := by
  constructor
  · rw [UptimeWorld.setMemory_memory_self]
    exact horder
  · rw [UptimeWorld.setMemory_memory_self]
    exact hpast
  · exact h.tableInOrder
  · exact h.tablePast
  · unfold UptimeWorld.lastSeen
    rw [UptimeWorld.setMemory_memory_self]
    exact hseen
  · exact h.stored

theorem prune (h : Follows id s now w) (t : Int) :
    Follows id s now (w.setMemory id ((w.memory id).prune t)) := by
  apply h.setMemory (h.memoryInOrder.prune (t - windowSecs))
  · exact fun e he => h.memoryPast e (Log.mem_of_mem_prune he)
  · rw [<- h.seen]
    exact congrArg _ (Log.getLast?_prune _ _)

/-- An event of this second in memory. -/
theorem note (h : Follows id s now w) (o : Observation) :
    Follows id { s with seen := some o } now
      (w.setMemory id
        { events := ((w.memory id).prune now).events ++ [⟨now, o⟩] }) := by
  have hpruned := h.prune now
  have horder := hpruned.memoryInOrder
  have hpast := hpruned.memoryPast
  rw [UptimeWorld.setMemory_memory_self] at horder hpast
  apply h.setMemory
  · exact horder.snoc hpast
  · intro e he
    rcases List.mem_append.mp he with hold | hnew
    · exact hpast e hold
    · rw [List.mem_singleton.mp hnew]
  · rw [List.getLast?_concat]
    rfl

/-- An event of this second in the table. -/
theorem write (h : Follows id s now w) (o : Observation) (cutoff : Int) :
    Follows id { s with stored := some o } now
      { w with table := (w.table.insert id ⟨now, o⟩).deleteOld id cutoff } := by
  have hevents := h.tableInOrder.add (e := ⟨now, o⟩) h.tablePast cutoff
  have hinsert : Log.InOrder UptimeEvent.observedAt
      ((w.table.rowsOf id).map UptimeRow.event ++ [⟨now, o⟩]) := by
    apply Log.InOrder.snoc (UptimeTable.inOrder_iff.mp h.tableInOrder)
    intro e he
    rcases List.mem_map.mp he with ⟨r, hr, heq⟩
    rw [<- heq]
    exact h.tablePast r hr
  constructor
  · exact h.memoryInOrder
  · exact h.memoryPast
  · apply UptimeTable.inOrder_iff.mpr
    rw [hevents]
    exact hinsert.prune cutoff
  · intro r hr
    have he : r.event ∈ (((w.table.insert id ⟨now, o⟩).deleteOld id
        cutoff).rowsOf id).map UptimeRow.event := List.mem_map_of_mem hr
    rw [hevents] at he
    rcases List.mem_append.mp (Log.mem_of_mem_prune he) with hold | hnew
    · rcases List.mem_map.mp hold with ⟨r', hr', heq⟩
      rw [<- heq]
      exact h.tablePast r' hr'
    · rw [List.mem_singleton.mp hnew]
  · exact h.seen
  · unfold UptimeWorld.lastStored UptimeWorld.stored
    rw [hevents, Log.getLast?_prune, List.getLast?_concat]
    rfl

/-- What a process that starts now has in memory. -/
theorem load (h : Follows id s now w) (t : Int) :
    Log.InOrder UptimeEvent.observedAt (AccountUptime.load w.table id t).events ∧
    (forall e, e ∈ (AccountUptime.load w.table id t).events -> e.observedAt ≤ now) ∧
    (AccountUptime.load w.table id t).events.getLast?.map UptimeEvent.seen =
      s.stored := by
  have hevents : (AccountUptime.load w.table id t).events =
      Log.prune UptimeEvent.observedAt (t - windowSecs) (w.stored id) := by
    unfold AccountUptime.load UptimeWorld.stored
    dsimp only
    rw [h.tableInOrder.selectFrom, Log.prune_map]
  rw [hevents]
  constructor
  · exact (UptimeTable.inOrder_iff.mp h.tableInOrder).prune _
  · constructor
    · intro e he
      rcases List.mem_map.mp (Log.mem_of_mem_prune he) with ⟨r, hr, heq⟩
      rw [<- heq]
      exact h.tablePast r hr
    · rw [Log.getLast?_prune, <- h.stored]
      rfl

/-- After a reset neither memory nor table has an event. -/
theorem erased (w : UptimeWorld Id) (id : Id) (now : Int) :
    Follows id LastStates.none now
      { w.setMemory id AccountUptime.new with table := w.table.deleteAccount id } := by
  have hmemory : (w.setMemory id AccountUptime.new).memory id = AccountUptime.new :=
    w.setMemory_memory_self id _
  have hrows : (w.table.deleteAccount id).rowsOf id = [] :=
    w.table.rowsOf_deleteAccount id
  constructor
  · rw [hmemory]
    exact List.Pairwise.nil
  · rw [hmemory]
    exact fun e he => nomatch he
  · unfold UptimeTable.InOrder
    rw [hrows]
    exact List.Pairwise.nil
  · rw [hrows]
    exact fun r hr => nomatch hr
  · unfold UptimeWorld.lastSeen
    rw [hmemory]
    rfl
  · unfold UptimeWorld.lastStored UptimeWorld.stored
    rw [hrows]
    rfl

theorem step_self (h : Follows id s now w) {a : UptimeAction Id}
    (haccount : a.account = id) (hnow : forall t, a.now = some t -> t = now) :
    Follows id (s.ownAfter a) now (w.step a) := by
  subst haccount
  cases a with
  | observe id o t commits =>
      rw [hnow t rfl]
      unfold LastStates.ownAfter UptimeWorld.step
      dsimp only
      rcases (w.memory id).observe_cases w.table id o commits h.memoryPast with
        ⟨hobserve, hlast⟩ | ⟨hobserve, hlast⟩
      · rw [hobserve, if_pos (h.seen.symm.trans hlast)]
        exact h.prune now
      · rw [hobserve, if_neg fun heq => hlast (h.seen.trans heq)]
        cases commits with
        | false =>
            exact h.note o.normal
        | true =>
            exact (h.note o.normal).write o.normal (now - windowSecs)
  | summary id t =>
      exact h.prune t
  | reset id commits =>
      cases commits with
      | false =>
          exact h.setMemory h.memoryInOrder h.memoryPast h.seen
      | true =>
          exact erased w id now
  | restart id t =>
      rcases h.load t with ⟨horder, hpast, hlast⟩
      exact h.setMemory horder hpast hlast

theorem step (h : Follows id s now w) {a : UptimeAction Id}
    (hnow : forall t, readingOf id a = some t -> t = now) :
    Follows id (s.after id a) now (w.step a) := by
  unfold readingOf at hnow
  unfold LastStates.after
  split
  · rename_i haccount
    rw [if_pos haccount] at hnow
    exact h.step_self haccount hnow
  · rename_i haccount
    rcases w.step_other haccount with ⟨hmemory, hrows⟩
    constructor
    · rw [hmemory]
      exact h.memoryInOrder
    · rw [hmemory]
      exact h.memoryPast
    · unfold UptimeTable.InOrder
      rw [hrows]
      exact h.tableInOrder
    · rw [hrows]
      exact h.tablePast
    · unfold UptimeWorld.lastSeen
      rw [hmemory]
      exact h.seen
    · unfold UptimeWorld.lastStored UptimeWorld.stored
      rw [hrows]
      exact h.stored

/-- In step are exactly memory and table that end in the same state. -/
theorem inStep_iff (h : Follows id s now w) :
    InStep w id now <-> s.stored = s.seen := by
  constructor
  · intro hstep
    rw [<- h.stored, <- h.seen]
    exact hstep.left
  · intro heq
    rcases h.load now with ⟨horder, hpast, hlast⟩
    constructor
    · rw [h.stored, h.seen, heq]
    · intro later hle
      have hstatus (events : List UptimeEvent) :
          (events.getLast?.map fun e => e.status later) =
            (events.getLast?.map UptimeEvent.seen).map fun o => o.status later := by
        rw [Option.map_map]
        rfl
      have hseen : (w.memory id).events.getLast?.map UptimeEvent.seen = s.seen := h.seen
      rw [(AccountUptime.summary_shows horder).left,
        (AccountUptime.summary_shows h.memoryInOrder).left,
        statusAt_of_le fun e he => le_trans (hpast e he) hle,
        statusAt_of_le fun e he => le_trans (h.memoryPast e he) hle,
        hstatus, hstatus, hlast, hseen, heq]

end Follows

theorem new_follows (id : Id) (now : Int) :
    Follows id LastStates.none now (UptimeWorld.new : UptimeWorld Id) :=
  ⟨List.Pairwise.nil, fun _ he => (nomatch he), List.Pairwise.nil,
    fun _ hr => (nomatch hr), rfl, rfl⟩

theorem follows_of_new {id : Id} {actions : List (UptimeAction Id)} {now : Int}
    (hclock : (actions.filterMap (readingOf id)).Pairwise (· ≤ ·))
    (hnow : forall t, t ∈ actions.filterMap (readingOf id) -> t ≤ now) :
    Follows id (LastStates.ofCalls id actions) now (UptimeWorld.new.run actions) :=
  @UptimeWorld.run_invariant_of_new _ _ _ id (fun _ => True) (LastStates.after id)
    (fun s now w => Follows id s now w) (fun h hle => h.later hle)
    (fun h _ hreading => h.step hreading) LastStates.none (new_follows id) actions
    (fun _ _ => trivial) hclock now hnow

/-!
## When an answer without an error means a stored state
-/

/-- With a clock that does not go back, a table is in step after every call
without an error exactly where no failed write is followed by a repetition. -/
theorem okMeansStored_iff (id : Id) (actions : List (UptimeAction Id))
    (hclock : (actions.filterMap (readingOf id)).Pairwise (· ≤ ·)) :
    OkMeansStored id actions <-> NoLostRepeat id actions := by
  have hcall : forall before o now commits rest,
      actions = before ++ UptimeAction.observe id o now commits :: rest ->
      Follows id (LastStates.ofCalls id before) now (UptimeWorld.new.run before) ∧
      Follows id
        ((LastStates.ofCalls id before).ownAfter (.observe id o now commits)) now
        (UptimeWorld.new.run (before ++ [UptimeAction.observe id o now commits])) := by
    intro before o now commits rest hactions
    rw [hactions, List.filterMap_append, List.pairwise_append] at hclock
    have hreading : readingOf id (.observe id o now commits) = some now := if_pos rfl
    rw [List.filterMap_cons_some hreading] at hclock
    have hbefore : Follows id (LastStates.ofCalls id before) now
        (UptimeWorld.new.run before) :=
      follows_of_new hclock.left fun t ht =>
        hclock.right.right t ht now (List.mem_cons_self ..)
    refine ⟨hbefore, ?_⟩
    rw [UptimeWorld.run_append]
    exact hbefore.step_self rfl fun t ht => (Option.some.inj ht).symm
  constructor
  · intro hok before o now commits rest hactions hseen
    rcases hcall before o now commits rest hactions with ⟨hbefore, hafter⟩
    have hlast := hbefore.seen.trans hseen
    rcases ((UptimeWorld.new.run before).memory id).observe_cases
        (UptimeWorld.new.run before).table id o commits hbefore.memoryPast with
      ⟨hobserve, _⟩ | ⟨_, hdiffer⟩
    · have hstep := hok before o now commits rest hactions (by rw [hobserve])
      have heq := hafter.inStep_iff.mp hstep
      unfold LastStates.ownAfter at heq
      dsimp only at heq
      rw [if_pos hseen] at heq
      rw [heq, hseen]
    · exact absurd hlast hdiffer
  · intro hrepeat before o now commits rest hactions hanswer
    rcases hcall before o now commits rest hactions with ⟨hbefore, hafter⟩
    apply hafter.inStep_iff.mpr
    unfold LastStates.ownAfter
    dsimp only
    split
    · rename_i hseen
      rw [hseen]
      exact hrepeat before o now commits rest hactions hseen
    · rename_i hdiffer
      cases commits with
      | true =>
          rfl
      | false =>
          rcases ((UptimeWorld.new.run before).memory id).observe_cases
              (UptimeWorld.new.run before).table id o false hbefore.memoryPast with
            ⟨_, hsame⟩ | ⟨hobserve, _⟩
          · exact absurd (hbefore.seen.symm.trans hsame) hdiffer
          · rw [hobserve] at hanswer
            cases hanswer

/-- A failed write that the next observation repairs, being a different one. -/
theorem okMeansStored_iff_repaired :
    let calls : List (UptimeAction Bool) :=
      [.observe true ⟨true, true, none⟩ 1000 false,
        .observe true ⟨false, false, none⟩ 1100 true]
    (calls.filterMap (readingOf true)).Pairwise (· ≤ ·) ∧
    (OkMeansStored true calls <-> NoLostRepeat true calls) := by
  intro calls
  have hclock : (calls.filterMap (readingOf true)).Pairwise (· ≤ ·) := by decide
  exact ⟨hclock, okMeansStored_iff true calls hclock⟩

/-- The second call answers without an error, and the account has no row. -/
theorem not_okMeansStored :
    let calls : List (UptimeAction Bool) :=
      [.observe true ⟨true, true, none⟩ 1000 false,
        .observe true ⟨true, true, none⟩ 1001 true]
    (calls.filterMap (readingOf true)).Pairwise (· ≤ ·) ∧
    ¬ OkMeansStored true calls := by
  constructor
  · decide
  · intro h
    have hstep := h [.observe true ⟨true, true, none⟩ 1000 false] ⟨true, true, none⟩
      1001 true [] rfl rfl
    have hsame := hstep.left
    revert hsame
    decide

end HifiApi
