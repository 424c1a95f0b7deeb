import HifiApi.Uptime.World

/-!
# Restarts

Memory and table are pruned at different moments; each is a pruning of one log,
which is pruned nowhere.
-/

namespace HifiApi

variable {Id : Type} [DecidableEq Id]

/-!
## One log behind memory and table
-/

/-- A log without repetitions after one more observation. -/
def noted (log : List UptimeEvent) (o : Observation) (now : Int) :
    List UptimeEvent :=
  if log.getLast?.map UptimeEvent.seen = some o.normal then
    log
  else
    log ++ [⟨now, o.normal⟩]

/-- The log of an account since its last reset, after one more call of it. -/
def ownLogAfter (log : List UptimeEvent) : UptimeAction Id -> List UptimeEvent
  | .observe _ o now _ => noted log o now
  | .reset _ _ => []
  | .summary _ _ => log
  | .restart _ _ => log

def logAfter (id : Id) (log : List UptimeEvent) (a : UptimeAction Id) :
    List UptimeEvent :=
  if a.account = id then ownLogAfter log a else log

/-- Memory and table of an account are prunings of a log. -/
structure Mirrors (id : Id) (log : List UptimeEvent) (now : Int)
    (w : UptimeWorld Id) : Prop where
  inOrder : Log.InOrder UptimeEvent.observedAt log
  past : forall e, e ∈ log -> e.observedAt ≤ now
  memory : exists cutoff, cutoff ≤ now - windowSecs ∧
    (w.memory id).events = Log.prune UptimeEvent.observedAt cutoff log
  stored : exists cutoff, cutoff ≤ now - windowSecs ∧
    w.stored id = Log.prune UptimeEvent.observedAt cutoff log

namespace Mirrors

variable {id : Id} {log : List UptimeEvent} {before now : Int} {w : UptimeWorld Id}

theorem later (h : Mirrors id log before w) (hle : before ≤ now) :
    Mirrors id log now w := by
  have hcutoff : before - windowSecs ≤ now - windowSecs := sub_le_sub_right hle _
  constructor
  · exact h.inOrder
  · exact fun e he => le_trans (h.past e he) hle
  · rcases h.memory with ⟨cutoff, hc, hmemory⟩
    exact ⟨cutoff, le_trans hc hcutoff, hmemory⟩
  · rcases h.stored with ⟨cutoff, hc, hstored⟩
    exact ⟨cutoff, le_trans hc hcutoff, hstored⟩

theorem prune_memory (h : Mirrors id log now w) :
    ((w.memory id).prune now).events =
      Log.prune UptimeEvent.observedAt (now - windowSecs) log := by
  rcases h.memory with ⟨cutoff, hcutoff, hmemory⟩
  show Log.prune _ _ (w.memory id).events = _
  rw [hmemory, Log.prune_prune hcutoff]

theorem table_inOrder (h : Mirrors id log now w) : w.table.InOrder id := by
  rcases h.stored with ⟨cutoff, _, hstored⟩
  apply UptimeTable.inOrder_iff.mpr
  show Log.InOrder _ (w.stored id)
  rw [hstored]
  exact h.inOrder.prune _

/-- What a reload reads is the log, pruned now. -/
theorem load (h : Mirrors id log now w) :
    (AccountUptime.load w.table id now).events =
      Log.prune UptimeEvent.observedAt (now - windowSecs) log := by
  rcases h.stored with ⟨cutoff, hcutoff, hstored⟩
  unfold AccountUptime.load
  dsimp only
  rw [h.table_inOrder.selectFrom, <- Log.prune_map, <- Log.prune_prune hcutoff log,
    <- hstored]
  rfl

theorem setMemory (h : Mirrors id log now w) {u : AccountUptime}
    (hu : u.events = Log.prune UptimeEvent.observedAt (now - windowSecs) log) :
    Mirrors id log now (w.setMemory id u) := by
  constructor
  · exact h.inOrder
  · exact h.past
  · rw [UptimeWorld.setMemory_memory_self]
    exact ⟨_, le_refl _, hu⟩
  · exact h.stored

theorem last_seen (h : Mirrors id log now w) :
    (w.memory id).events.getLast? = log.getLast? := by
  rcases h.memory with ⟨cutoff, _, hmemory⟩
  rw [hmemory, Log.getLast?_prune]

theorem memory_past (h : Mirrors id log now w) {e : UptimeEvent}
    (he : e ∈ (w.memory id).events) : e.observedAt ≤ now := by
  rcases h.memory with ⟨cutoff, _, hmemory⟩
  rw [hmemory] at he
  exact h.past e (Log.mem_of_mem_prune he)

theorem stored_past (h : Mirrors id log now w) {r : UptimeRow Id}
    (hr : r ∈ w.table.rowsOf id) : r.event.observedAt ≤ now := by
  rcases h.stored with ⟨cutoff, _, hstored⟩
  have he : r.event ∈ w.stored id := List.mem_map_of_mem hr
  rw [hstored] at he
  exact h.past _ (Log.mem_of_mem_prune he)

theorem observe (h : Mirrors id log now w) (o : Observation) :
    Mirrors id (noted log o now) now (w.step (.observe id o now true)) := by
  have hstart : now - windowSecs ≤ now := sub_le_self now (by decide)
  unfold noted
  rcases (w.memory id).observe_cases w.table id o true fun e he => h.memory_past he with
    ⟨hobserve, hlast⟩ | ⟨hobserve, hlast⟩
  · rw [h.last_seen] at hlast
    rw [if_pos hlast]
    have hstep : w.step (.observe id o now true) =
        w.setMemory id ((w.memory id).prune now) := by
      unfold UptimeWorld.step
      dsimp only
      rw [hobserve]
      rfl
    rw [hstep]
    exact h.setMemory h.prune_memory
  · rw [h.last_seen] at hlast
    rw [if_neg hlast]
    have hstep : w.step (.observe id o now true) =
        { w.setMemory id
            { events := ((w.memory id).prune now).events ++ [⟨now, o.normal⟩] } with
          table := (w.table.insert id ⟨now, o.normal⟩).deleteOld id
            (now - windowSecs) } := by
      unfold UptimeWorld.step
      dsimp only
      rw [hobserve]
      rfl
    rw [hstep]
    constructor
    · exact h.inOrder.snoc h.past
    · intro e he
      rcases List.mem_append.mp he with hold | hnew
      · exact h.past e hold
      · rw [List.mem_singleton.mp hnew]
    · refine ⟨_, le_refl _, ?_⟩
      show ((w.setMemory id _).memory id).events = _
      rw [UptimeWorld.setMemory_memory_self, Log.prune_snoc hstart, <- h.prune_memory]
    · refine ⟨_, le_refl _, ?_⟩
      rcases h.stored with ⟨cutoff, hcutoff, hstored⟩
      unfold UptimeWorld.stored at hstored ⊢
      rw [h.table_inOrder.add fun r hr => h.stored_past hr, Log.prune_snoc hstart,
        Log.prune_snoc hstart, hstored, Log.prune_prune hcutoff]

/-- A call of the account whose write succeeds moves the log along. -/
theorem step_self (h : Mirrors id log now w) {a : UptimeAction Id}
    (haccount : a.account = id) (hcommits : a.commits = true)
    (hnow : forall t, a.now = some t -> t = now) :
    Mirrors id (ownLogAfter log a) now (w.step a) := by
  subst haccount
  cases a with
  | observe id o t commits =>
      rw [hnow t rfl, show commits = true from hcommits]
      exact h.observe o
  | summary id t =>
      rw [hnow t rfl]
      exact h.setMemory h.prune_memory
  | reset id commits =>
      rw [show commits = true from hcommits]
      constructor
      · exact List.Pairwise.nil
      · exact fun e he => nomatch he
      · refine ⟨_, le_refl _, ?_⟩
        show ((w.setMemory id AccountUptime.new).memory id).events = _
        rw [UptimeWorld.setMemory_memory_self]
        rfl
      · refine ⟨_, le_refl _, ?_⟩
        show ((w.table.deleteAccount id).rowsOf id).map _ = _
        rw [UptimeTable.rowsOf_deleteAccount]
        rfl
  | restart id t =>
      rw [hnow t rfl]
      exact h.setMemory h.load

theorem step_other (h : Mirrors id log now w) {a : UptimeAction Id}
    (haccount : a.account ≠ id) : Mirrors id log now (w.step a) := by
  rcases w.step_other haccount with ⟨hmemory, hrows⟩
  constructor
  · exact h.inOrder
  · exact h.past
  · rw [hmemory]
    exact h.memory
  · unfold UptimeWorld.stored
    rw [hrows]
    exact h.stored

end Mirrors

/-- The clock readings of an account do not go back, and its writes succeed. -/
structure Orderly (id : Id) (actions : List (UptimeAction Id)) : Prop where
  clock : (actions.filterMap (readingOf id)).Pairwise (· ≤ ·)
  commits : forall a, a ∈ actions -> a.account = id -> a.commits = true

theorem Orderly.sublist {id : Id} {actions actions' : List (UptimeAction Id)}
    (h : Orderly id actions) (hsub : actions'.Sublist actions) :
    Orderly id actions' := by
  constructor
  · exact List.Pairwise.sublist (hsub.filterMap _) h.clock
  · exact fun a ha => h.commits a (hsub.subset ha)

theorem Mirrors.step {id : Id} {log : List UptimeEvent} {now : Int}
    {w : UptimeWorld Id} (h : Mirrors id log now w) {a : UptimeAction Id}
    (hcommits : a.account = id -> a.commits = true)
    (hnow : forall t, readingOf id a = some t -> t = now) :
    Mirrors id (logAfter id log a) now (w.step a) := by
  unfold readingOf at hnow
  unfold logAfter
  split
  · rename_i haccount
    rw [if_pos haccount] at hnow
    exact h.step_self haccount (hcommits haccount) hnow
  · rename_i haccount
    exact h.step_other haccount

/-- A restart leaves the log. -/
theorem logAfter_restart (id other : Id) (log : List UptimeEvent) (now : Int) :
    logAfter id log (.restart other now) = log := by
  unfold logAfter ownLogAfter
  split
  · rfl
  · rfl

theorem new_mirrors (id : Id) (now : Int) :
    Mirrors id [] now (UptimeWorld.new : UptimeWorld Id) :=
  ⟨List.Pairwise.nil, fun _ he => (nomatch he), ⟨_, le_refl _, rfl⟩,
    ⟨_, le_refl _, rfl⟩⟩

theorem mirrors_of_new {id : Id} {actions : List (UptimeAction Id)} {now : Int}
    (horderly : Orderly id actions)
    (hnow : forall t, t ∈ actions.filterMap (readingOf id) -> t ≤ now) :
    Mirrors id (actions.foldl (logAfter id) []) now (UptimeWorld.new.run actions) := by
  exact @UptimeWorld.run_invariant_of_new _ _ _ id
    (fun a => a.account = id -> a.commits = true) (logAfter id)
    (fun log now w => Mirrors id log now w) (fun h hle => h.later hle)
    (fun h hcommits hreading => h.step hcommits hreading) [] (new_mirrors id) actions
    horderly.commits horderly.clock now hnow

/-!
## The same summaries
-/

theorem AccountUptime.summary_congr {u u' : AccountUptime} {now : Int}
    (h : (u.prune now).events = (u'.prune now).events) :
    u.summary now = u'.summary now := by
  have hprune : u.prune now = u'.prune now := congrArg AccountUptime.mk h
  unfold AccountUptime.summary
  rw [hprune]

/-- A restart changes no later summary, whatever calls follow it. -/
theorem summary_after_restart (id : Id) (before after : List (UptimeAction Id))
    (now later : Int)
    (horderly : Orderly id (before ++ .restart id now :: after))
    (hlater : forall t,
      t ∈ (before ++ .restart id now :: after).filterMap (readingOf id) -> t ≤ later) :
    (((UptimeWorld.new.run (before ++ .restart id now :: after)).memory id).summary
        later).2 =
      (((UptimeWorld.new.run (before ++ after)).memory id).summary later).2 := by
  have hsub : (before ++ after).Sublist (before ++ .restart id now :: after) :=
    (List.sublist_cons_self _ after).append_left before
  have hrestarted := mirrors_of_new horderly hlater
  have hkept := mirrors_of_new (horderly.sublist hsub)
    fun t ht => hlater t ((hsub.filterMap _).subset ht)
  have hlog : (before ++ .restart id now :: after).foldl (logAfter id) [] =
      (before ++ after).foldl (logAfter id) [] := by
    rw [List.foldl_append, List.foldl_append, List.foldl_cons, logAfter_restart]
  rw [AccountUptime.summary_congr]
  rw [hrestarted.prune_memory, hkept.prune_memory, hlog]

/-- Two accounts; events of one second, a reset of the other account, a restart
and a further event. -/
theorem summary_after_restart_same_second :
    let up : Observation := ⟨true, true, none⟩
    let down : Observation := ⟨false, false, none⟩
    let before : List (UptimeAction Bool) :=
      [.observe true up 1000 true, .observe false down 900 false,
        .observe true down 1100 true, .observe true up 1100 true, .reset false true]
    let after : List (UptimeAction Bool) := [.observe true down 1500 true]
    Orderly true (before ++ .restart true 1300 :: after) ∧
    (((UptimeWorld.new.run (before ++ .restart true 1300 :: after)).memory
        true).summary 1600).2 =
      (((UptimeWorld.new.run (before ++ after)).memory true).summary 1600).2 := by
  intro up down before after
  have horderly : Orderly true (before ++ .restart true 1300 :: after) := by
    constructor
    · decide
    · decide
  have hlater : forall t,
      t ∈ (before ++ .restart true 1300 :: after).filterMap (readingOf true) ->
        t ≤ 1600 := by
    decide
  exact ⟨horderly, summary_after_restart true before after 1300 1600 horderly hlater⟩

end HifiApi
