import HifiApi.Playback.Lifecycle

/-!
# Slots

The counter of slots is the number of guards.  A guard comes with the exchange
that takes its slot and goes with the release that returns it.
-/

namespace HifiApi

variable {Id : Type}

namespace PlaybackTask

/-- The slots that a task has. -/
def slots (t : PlaybackTask Id) : Nat :=
  if t.holdsSlot then 1 else 0

/-- The capacity that a task in {lit}`try_acquire` has read. -/
def claimedPool : PlaybackTask Id -> Option Nat
  | claiming _ pool _ => some pool
  | worker _ (.claiming pool _) => some pool
  | _ => none

end PlaybackTask

/-- The guards that are alive. -/
def PlaybackState.guards (s : PlaybackState Id) : Nat :=
  s.tasks.countP PlaybackTask.holdsSlot

theorem countP_set_holdsSlot {tasks : List (PlaybackTask Id)} {k : Nat}
    {t : PlaybackTask Id} (hk : tasks[k]? = some t) (t' : PlaybackTask Id) :
    (tasks.set k t').countP PlaybackTask.holdsSlot + t.slots =
      tasks.countP PlaybackTask.holdsSlot + t'.slots := by
  induction tasks generalizing k with
  | nil =>
      cases hk
  | cons u rest ih =>
      cases k with
      | zero =>
          cases hk
          rw [List.set_cons_zero, List.countP_cons, List.countP_cons]
          show _ + t'.slots + t.slots = _ + t.slots + t'.slots
          exact Nat.add_right_comm _ _ _
      | succ k =>
          have hrest := ih (k := k) hk
          rw [List.set_cons_succ, List.countP_cons, List.countP_cons,
            Nat.add_right_comm, hrest, Nat.add_right_comm]

theorem slots_le_countP {tasks : List (PlaybackTask Id)} {k : Nat}
    {t : PlaybackTask Id} (hk : tasks[k]? = some t) :
    t.slots ≤ tasks.countP PlaybackTask.holdsSlot := by
  unfold PlaybackTask.slots
  split
  · rename_i hholds
    exact List.countP_pos_iff.mpr ⟨t, List.mem_of_getElem? hk, hholds⟩
  · exact Nat.zero_le _

variable [DecidableEq Id]

/-!
## One step
-/

theorem WorkerStage.Advances.slots {q q' : PlaybackQueue Id} {id : Id}
    {stage stage' : WorkerStage} (h : stage.Advances q id stage' q')
    (hle : (PlaybackTask.worker id stage).slots ≤ q.inflight) :
    q'.inflight + (PlaybackTask.worker id stage).slots =
      q.inflight + (PlaybackTask.worker id stage').slots := by
  cases h with
  | claimed hsame =>
      rw [hsame]
      rfl
  | left =>
      exact Nat.sub_add_cancel hle
  | _ =>
      rfl

theorem PlaybackTask.Advances.slots {q q' : PlaybackQueue Id}
    {t t' : PlaybackTask Id} (h : t.Advances q t' q') (hle : t.slots ≤ q.inflight) :
    q'.inflight + t.slots = q.inflight + t'.slots := by
  cases h with
  | claimed hsame =>
      rw [hsame]
      rfl
  | left =>
      exact Nat.sub_add_cancel hle
  | worked hstage =>
      exact hstage.slots hle
  | _ =>
      rfl

/-- A step that takes a slot is the exchange of a task in {lit}`try_acquire`. -/
theorem PlaybackTask.Advances.grant {q q' : PlaybackQueue Id}
    {t t' : PlaybackTask Id} (h : t.Advances q t' q')
    (hmore : q.inflight < q'.inflight) :
    exists pool, t.claimedPool = some pool ∧ q.inflight < max pool 1 ∧
      q'.inflight = q.inflight + 1 := by
  cases h with
  | @claimed accounts pool current hsame =>
      refine ⟨pool, rfl, ?_, ?_⟩
      · rw [hsame]
        exact current.isLt
      · rw [hsame]
  | left =>
      exact absurd hmore (not_lt.mpr (Nat.sub_le _ _))
  | worked hstage =>
      cases hstage with
      | @claimed pool current hsame =>
          refine ⟨pool, rfl, ?_, ?_⟩
          · rw [hsame]
            exact current.isLt
          · rw [hsame]
      | left =>
          exact absurd hmore (not_lt.mpr (Nat.sub_le _ _))
      | _ =>
          exact absurd hmore (lt_irrefl _)
  | _ =>
      exact absurd hmore (lt_irrefl _)

namespace PlaybackState

theorem Steps.guards {s : PlaybackState Id} (h : s.queue.inflight = s.guards)
    {a : PlaybackAction Id} {q' : PlaybackQueue Id} {tasks' : List (PlaybackTask Id)}
    (hstep : s.Steps a q' tasks') :
    q'.inflight = tasks'.countP PlaybackTask.holdsSlot := by
  cases hstep with
  | arrived =>
      rw [h, List.countP_append]
      rfl
  | @resumed k e t t' _ hk hadvance =>
      have hle : t.slots ≤ s.queue.inflight := by
        rw [h]
        exact slots_le_countP hk
      have hcount := countP_set_holdsSlot hk t'
      have hslots := hadvance.slots hle
      rw [h] at hslots
      exact Nat.add_right_cancel (hslots.trans hcount.symm)
  | @dropped k t hk =>
      have hle : t.slots ≤ s.queue.inflight := by
        rw [h]
        exact slots_le_countP hk
      have hcount := countP_set_holdsSlot hk .dropped
      have hslots : (if t.holdsSlot then s.queue.release else s.queue).inflight +
          t.slots = s.queue.inflight := by
        unfold PlaybackTask.slots at hle ⊢
        split
        · rename_i hholds
          rw [if_pos hholds] at hle
          exact Nat.sub_add_cancel hle
        · rfl
      rw [h] at hslots
      exact Nat.add_right_cancel (hslots.trans hcount.symm)
  | pruned now =>
      exact h
  | polled id now =>
      exact h
  | cancelled id now =>
      exact h
  | cleared now =>
      exact h

theorem Steps.grant {s : PlaybackState Id} {a : PlaybackAction Id}
    {q' : PlaybackQueue Id} {tasks' : List (PlaybackTask Id)}
    (hstep : s.Steps a q' tasks') (hmore : s.queue.inflight < q'.inflight) :
    exists k e t pool, a = .resume k e ∧ s.tasks[k]? = some t ∧
      t.claimedPool = some pool ∧ s.queue.inflight < max pool 1 ∧
      q'.inflight = s.queue.inflight + 1 := by
  cases hstep with
  | @resumed k e t t' _ hk hadvance =>
      rcases hadvance.grant hmore with ⟨pool, hpool, hlt, hone⟩
      exact ⟨k, e, t, pool, rfl, hk, hpool, hlt, hone⟩
  | @dropped k t hk =>
      exfalso
      split at hmore
      · exact absurd hmore (not_lt.mpr (Nat.sub_le _ _))
      · exact absurd hmore (lt_irrefl _)
  | _ =>
      exact absurd hmore (lt_irrefl _)

end PlaybackState

/-!
## Admissions
-/

theorem PlaybackQueue.pendingCount_admit {q : PlaybackQueue Id} {id : Id} (now : Int)
    (h : q.stateOf id = none) :
    (q.pushTask id now).pendingCount = q.pendingCount + 1 := by
  have hnone : q.jobs.lookup (Job.new id now).id = none := Option.map_eq_none_iff.mp h
  unfold pendingCount pushTask
  rw [Table.rows_put_of_none hnone, List.countP_append]
  rfl

theorem lt_of_overCapacity {pending pool : Nat}
    (h : PlaybackQueue.overCapacity pending pool = false) :
    pending < max pool 1 * maxQueueFactor := by
  unfold PlaybackQueue.overCapacity at h
  rw [decide_eq_false_iff_not, not_le] at h
  exact lt_of_lt_of_le h (min_le_left _ _)

/-- A job comes into the map by the admission of its own task, with room for it. -/
theorem PlaybackState.Steps.admission {s : PlaybackState Id}
    {a : PlaybackAction Id} {q' : PlaybackQueue Id}
    {tasks' : List (PlaybackTask Id)} (hstep : s.Steps a q' tasks') {id : Id}
    (hnone : s.queue.jobs.lookup id = none) (hsome : q'.jobs.lookup id ≠ none) :
    exists k e createdAt accounts pool, a = .resume k e ∧
      s.tasks[k]? = some (.queueing id createdAt accounts pool) ∧
      q' = s.queue.pushTask id createdAt ∧
      s.queue.pendingCount < max pool 1 * maxQueueFactor := by
  cases hstep with
  | arrived =>
      exact absurd hnone hsome
  | @resumed k e t t' _ hk hadvance =>
      rcases hadvance.admission hnone with
        hstill | ⟨createdAt, accounts, pool, ht, hq, hroom⟩
      · exact absurd hstill hsome
      · rw [ht] at hk
        exact ⟨k, e, createdAt, accounts, pool, rfl, hk, hq, lt_of_overCapacity hroom⟩
  | @dropped k t hk =>
      exfalso
      apply hsome
      split
      · exact hnone
      · exact hnone
  | pruned now =>
      exact absurd (s.queue.prune_absent now hnone) hsome
  | polled id' now =>
      exact absurd
        (s.queue.update_absent (Job.poll now) (Job.poll_id now) id' hnone) hsome
  | cancelled id' now =>
      exact absurd
        (s.queue.update_absent (Job.cancel now) (Job.cancel_id now) id' hnone) hsome
  | cleared now =>
      exact absurd (s.queue.map_absent (Job.clear now) (Job.clear_id now) hnone) hsome

/-!
## Every run
-/

theorem guards_of_run {actions : List (PlaybackAction Id)} {s : PlaybackState Id}
    (hrun : (playback Id).run PlaybackState.new actions = some s) :
    s.queue.inflight = s.guards :=
  @System.run_invariant _ _ (playback Id) (fun s => s.queue.inflight = s.guards)
    (fun _ _ _ h hstep => (PlaybackState.steps_of_step hstep).guards h) _ _ _ rfl hrun

/-- In every run the counter is the number of guards, so that every release
finds a slot to return and no slot is taken where there is no guard; a slot is
taken below the capacity read for it; and an admission leaves no more pending
jobs than the capacity read for it allows. -/
theorem playback_slots {actions : List (PlaybackAction Id)} {s : PlaybackState Id}
    (hrun : (playback Id).run PlaybackState.new actions = some s) :
    s.queue.inflight = s.guards ∧
    (forall t, t ∈ s.tasks -> t.holdsSlot = true ->
      s.queue.release.inflight + 1 = s.queue.inflight) ∧
    ((forall t, t ∈ s.tasks -> t.holdsSlot = false) -> s.queue.inflight = 0) ∧
    (forall a s', (playback Id).step s a = some s' ->
      s.queue.inflight < s'.queue.inflight ->
      exists k e t pool, a = .resume k e ∧ s.tasks[k]? = some t ∧
        t.claimedPool = some pool ∧ s.queue.inflight < max pool 1 ∧
        s'.queue.inflight = s.queue.inflight + 1) ∧
    (forall a s' id, (playback Id).step s a = some s' ->
      s.queue.jobs.lookup id = none -> s'.queue.jobs.lookup id ≠ none ->
      exists k e createdAt accounts pool, a = .resume k e ∧
        s.tasks[k]? = some (.queueing id createdAt accounts pool) ∧
        s'.queue.pendingCount ≤ max pool 1 * maxQueueFactor) := by
  have hguards := guards_of_run hrun
  refine ⟨hguards, ?_, ?_, ?_, ?_⟩
  · intro t ht hholds
    have hpos : 0 < s.queue.inflight := by
      rw [hguards]
      exact List.countP_pos_iff.mpr ⟨t, ht, hholds⟩
    exact Nat.sub_add_cancel hpos
  · intro hnone
    rw [hguards]
    apply List.countP_eq_zero.mpr
    intro t ht hholds
    rw [hnone t ht] at hholds
    cases hholds
  · intro a s' hstep hmore
    exact (PlaybackState.steps_of_step hstep).grant hmore
  · intro a s' id hstep hnone hsome
    rcases (PlaybackState.steps_of_step hstep).admission hnone hsome with
      ⟨k, e, createdAt, accounts, pool, ha, hk, hq, hroom⟩
    refine ⟨k, e, createdAt, accounts, pool, ha, hk, ?_⟩
    have hstate : s.queue.stateOf id = none := Option.map_eq_none_iff.mpr hnone
    rw [hq, PlaybackQueue.pendingCount_admit createdAt hstate]
    exact hroom

/-- Two requests and one slot, the first one dropped in its operation. -/
def droppedInOperation : List (PlaybackAction Nat) :=
  [.arrive, .resume 0 (.prune 100), .resume 0 (.measure 1 1), .resume 0 (.load 0),
    .resume 0 .swap, .arrive, .resume 1 (.prune 100), .resume 1 (.measure 1 1),
    .drop 0, .resume 1 (.load 0), .resume 1 .swap]

theorem playback_slots_dropped :
    exists s, (playback Nat).run PlaybackState.new droppedInOperation = some s ∧
      s.queue.inflight = 1 ∧ s.queue.inflight = s.guards :=
  ⟨_, rfl, rfl, (@playback_slots Nat _ droppedInOperation _ rfl).left⟩

end HifiApi
