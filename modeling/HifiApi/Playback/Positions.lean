import HifiApi.Lib.Ranks
import HifiApi.Playback.Lifecycle

/-!
# Queue positions

A position is the place of a job among the pending ones, sorted by the second
in which its request read the clock.  The order of admission is the order of
the rows; where each admitted job has a later second than all that wait, the
two agree.
-/

namespace HifiApi

variable {Id : Type}

namespace PlaybackQueue

def waitingJobs (q : PlaybackQueue Id) : List (Job Id) :=
  q.jobs.rows.filter Job.waiting

/-- The pending jobs in the order of their admission. -/
def waitingIds (q : PlaybackQueue Id) : List Id :=
  q.waitingJobs.map Job.id

theorem waitingIds_nodup (q : PlaybackQueue Id) : q.waitingIds.Nodup :=
  q.jobs.distinct.sublist (List.filter_sublist.map Job.id)

theorem pendingOrder_perm (q : PlaybackQueue Id) (order : Table.Iteration (Job Id)) :
    (q.pendingOrder order).Perm q.waitingJobs :=
  (List.perm_insertionSort _ _).trans ((order.perm q.jobs.rows).filter _)

theorem pendingOrder_ids_nodup (q : PlaybackQueue Id)
    (order : Table.Iteration (Job Id)) :
    ((q.pendingOrder order).map Job.id).Nodup :=
  ((q.pendingOrder_perm order).map Job.id).nodup_iff.mpr q.waitingIds_nodup

/-- The waiting jobs have later and later seconds. -/
def Spread (q : PlaybackQueue Id) : Prop :=
  q.waitingJobs.Pairwise fun j j' => j.createdAt < j'.createdAt

instance total_createdAt :
    Std.Total fun j j' : Job Id => j.createdAt ≤ j'.createdAt :=
  ⟨fun j j' => le_total j.createdAt j'.createdAt⟩

instance trans_createdAt :
    IsTrans (Job Id) fun j j' => j.createdAt ≤ j'.createdAt :=
  ⟨fun _ _ _ h h' => le_trans h h'⟩

theorem Spread.pendingOrder {q : PlaybackQueue Id} (h : q.Spread)
    (order : Table.Iteration (Job Id)) : q.pendingOrder order = q.waitingJobs := by
  have hsorted :
      (q.pendingOrder order).Pairwise fun j j' => j.createdAt ≤ j'.createdAt :=
    List.pairwise_insertionSort _ _
  have hwaiting : q.waitingJobs.Pairwise fun j j' => j.createdAt ≤ j'.createdAt :=
    h.imp fun hlt => le_of_lt hlt
  have hdiffer : (q.waitingJobs.map Job.createdAt).Nodup :=
    List.pairwise_map.mpr (h.imp fun hlt => ne_of_lt hlt)
  have hperm := q.pendingOrder_perm order
  apply List.Perm.eq_of_pairwise _ hsorted hwaiting hperm
  intro j j' hj hj' hle hle'
  exact List.inj_on_of_nodup_map hdiffer (hperm.mem_iff.mp hj) hj'
    (le_antisymm hle hle')

end PlaybackQueue

/-!
## Places of jobs
-/

namespace Job

/-- A write that keeps a job in its place among the pending ones, or takes it
out. -/
def KeepsPlace (f : Job Id -> Job Id) : Prop :=
  forall j, (f j).id = j.id ∧ (f j).createdAt = j.createdAt ∧
    ((f j).waiting = true -> j.waiting = true)

theorem expire_keepsPlace (now : Int) : KeepsPlace (expire now : Job Id -> Job Id) := by
  intro j
  unfold expire
  split
  · exact ⟨rfl, rfl, fun h => nomatch h⟩
  · exact ⟨rfl, rfl, fun h => h⟩

theorem poll_keepsPlace (now : Int) : KeepsPlace (poll now : Job Id -> Job Id) := by
  intro j
  unfold poll
  split
  · exact ⟨rfl, rfl, fun h => h⟩
  · exact ⟨rfl, rfl, fun h => h⟩

theorem cancel_keepsPlace (now : Int) : KeepsPlace (cancel now : Job Id -> Job Id) := by
  intro j
  unfold cancel
  split
  · exact ⟨rfl, rfl, fun h => nomatch h⟩
  · exact ⟨rfl, rfl, fun h => h⟩

theorem clear_keepsPlace (now : Int) : KeepsPlace (clear now : Job Id -> Job Id) := by
  intro j
  unfold clear
  split
  · exact ⟨rfl, rfl, fun h => nomatch h⟩
  · exact ⟨rfl, rfl, fun h => h⟩

theorem start_keepsPlace : KeepsPlace (start : Job Id -> Job Id) :=
  fun _ => ⟨rfl, rfl, fun h => nomatch h⟩

theorem finish_keepsPlace (out : JobOutcome) (accounts : List LoggedAccount)
    (now : Int) : KeepsPlace (finish out accounts now : Job Id -> Job Id) := by
  intro j
  unfold finish
  split
  · exact ⟨rfl, rfl, fun h => h⟩
  · cases out with
    | done result =>
        exact ⟨rfl, rfl, fun h => nomatch h⟩
    | refused e =>
        exact ⟨rfl, rfl, fun h => nomatch h⟩
    | elapsed =>
        exact ⟨rfl, rfl, fun h => nomatch h⟩

/-- What the place of a job depends on. -/
def place (j : Job Id) : Id × Int :=
  (j.id, j.createdAt)

theorem KeepsPlace.sublist {f : Job Id -> Job Id} (h : KeepsPlace f)
    (jobs : List (Job Id)) :
    (((jobs.map f).filter waiting).map place).Sublist
      ((jobs.filter waiting).map place) := by
  induction jobs with
  | nil =>
      exact List.Sublist.slnil
  | cons j rest ih =>
      rcases h j with ⟨hid, hcreated, hwaiting⟩
      have hplace : (f j).place = j.place := by
        unfold place
        rw [hid, hcreated]
      rw [List.map_cons]
      cases hf : (f j).waiting with
      | true =>
          rw [List.filter_cons_of_pos hf, List.filter_cons_of_pos (hwaiting hf),
            List.map_cons, List.map_cons, hplace]
          exact ih.cons_cons _
      | false =>
          rw [List.filter_cons_of_neg (by rw [hf]; exact Bool.false_ne_true)]
          apply ih.trans
          exact ((List.sublist_cons_self j rest).filter _).map _

end Job

namespace PlaybackQueue

/-- The pending jobs of the second queue are among those of the first. -/
def Shrinks (q q' : PlaybackQueue Id) : Prop :=
  (q'.waitingJobs.map Job.place).Sublist (q.waitingJobs.map Job.place)

variable {q q' : PlaybackQueue Id}

theorem shrinks_refl (q : PlaybackQueue Id) : q.Shrinks q :=
  List.Sublist.refl _

theorem shrinks_map {f : Job Id -> Job Id} (hid : forall j, (f j).id = j.id)
    (h : Job.KeepsPlace f) : q.Shrinks { q with jobs := q.jobs.mapRows f hid } :=
  h.sublist q.jobs.rows

theorem shrinks_prune (now : Int) : q.Shrinks (q.prune now) :=
  ((Job.expire_keepsPlace now).sublist _).trans
    ((List.filter_sublist.filter Job.waiting).map Job.place)

theorem Shrinks.ids (h : q.Shrinks q') : q'.waitingIds.Sublist q.waitingIds := by
  have hids := h.map Prod.fst
  rw [List.map_map, List.map_map] at hids
  exact hids

theorem Spread.shrinks (h : q.Spread) (hshrinks : q.Shrinks q') : q'.Spread := by
  have htimes := hshrinks.map Prod.snd
  rw [List.map_map, List.map_map] at htimes
  have hbefore : (q.waitingJobs.map Job.createdAt).Pairwise (· < ·) :=
    List.pairwise_map.mpr h
  exact List.pairwise_map.mp (hbefore.sublist htimes)

end PlaybackQueue

/-!
## Fair positions
-/

variable [DecidableEq Id]

namespace PlaybackQueue

/-- The positions of the pending jobs count them in the order of admission. -/
def CountsAdmissions (q : PlaybackQueue Id) (order : Table.Iteration (Job Id)) :
    Prop :=
  q.waitingIds.map (q.pendingPosition order) = List.range' 1 q.waitingIds.length

end PlaybackQueue

/-- In every state of a run the positions count the admissions, and the position
of a job that is pending does not grow, whatever the orders of iteration. -/
def FairPositions (actions : List (PlaybackAction Id)) : Prop :=
  (forall first rest s order, actions = first ++ rest ->
    (playback Id).run PlaybackState.new first = some s ->
    s.queue.CountsAdmissions order) ∧
  (forall first second rest s s' order order' id, actions = first ++ second ++ rest ->
    (playback Id).run PlaybackState.new first = some s ->
    (playback Id).run s second = some s' ->
    s.queue.stateOf id = some .pending -> s'.queue.stateOf id = some .pending ->
    s'.queue.pendingPosition order' id ≤ s.queue.pendingPosition order id)

namespace PlaybackState

/-- The time of the job that a step of its request admits. -/
def admits (s : PlaybackState Id) : PlaybackAction Id -> Option Int
  | .resume k _ =>
      match s.tasks[k]? with
      | some (.queueing _ createdAt _ pool) =>
          if PlaybackQueue.overCapacity s.queue.pendingCount pool then
            none
          else
            some createdAt
      | _ => none
  | _ => none

/-- A job is admitted with a later second than every job that is pending. -/
def AdmitsLater (s : PlaybackState Id) (a : PlaybackAction Id) : Prop :=
  forall createdAt, s.admits a = some createdAt ->
    forall j, j ∈ s.queue.waitingJobs -> j.createdAt < createdAt

end PlaybackState

/-!
## Positions as ranks
-/

namespace PlaybackQueue

variable {q : PlaybackQueue Id}

theorem mem_waitingIds {id : Id} :
    id ∈ q.waitingIds <-> q.stateOf id = some .pending := by
  constructor
  · intro h
    rcases List.mem_map.mp h with ⟨j, hj, hid⟩
    rcases List.mem_filter.mp hj with ⟨hmem, hwaiting⟩
    rw [state_of_lookup (Table.lookup_eq_some.mpr ⟨hmem, hid⟩)]
    exact congrArg some (of_decide_eq_true hwaiting)
  · intro h
    rcases Option.map_eq_some_iff.mp h with ⟨j, hj, hstate⟩
    rcases Table.lookup_eq_some.mp hj with ⟨hmem, hid⟩
    exact List.mem_map.mpr ⟨j, List.mem_filter.mpr ⟨hmem, decide_eq_true hstate⟩, hid⟩

theorem findIdx?_eq_idxOf {jobs : List (Job Id)} {id : Id}
    (h : id ∈ jobs.map Job.id) :
    (jobs.findIdx? fun j => decide (j.id = id)) =
      some ((jobs.map Job.id).idxOf id) := by
  induction jobs with
  | nil =>
      cases h
  | cons j rest ih =>
      rw [List.findIdx?_cons, List.map_cons]
      by_cases heq : j.id = id
      · rw [heq, List.idxOf_cons_self, decide_eq_true rfl, if_pos rfl]
      · rw [List.idxOf_cons_ne _ heq, decide_eq_false heq, if_neg Bool.false_ne_true]
        rcases List.mem_cons.mp h with hsame | hrest
        · exact absurd hsame.symm heq
        · rw [ih hrest]
          rfl

/-- The position of a pending job is its rank in the sorted list. -/
theorem pendingPosition_eq {id : Id} (order : Table.Iteration (Job Id))
    (h : id ∈ q.waitingIds) :
    q.pendingPosition order id = ((q.pendingOrder order).map Job.id).idxOf id + 1 := by
  have hmem : id ∈ (q.pendingOrder order).map Job.id :=
    ((q.pendingOrder_perm order).map Job.id).mem_iff.mpr h
  rcases Option.map_eq_some_iff.mp (mem_waitingIds.mp h) with ⟨j, hj, hstate⟩
  unfold pendingPosition
  rw [hj]
  dsimp only
  rw [if_pos hstate, findIdx?_eq_idxOf hmem]
  rfl

theorem Spread.countsAdmissions (h : q.Spread) (order : Table.Iteration (Job Id)) :
    q.CountsAdmissions order := by
  unfold CountsAdmissions
  rw [<- Ranks.map_idxOf q.waitingIds_nodup]
  apply List.map_congr_left
  intro id hid
  rw [pendingPosition_eq order hid, h.pendingOrder order]
  rfl

/-- Of two pending jobs that the iteration visits in order, with seconds in
order, the first has the lower position. -/
theorem pendingPosition_lt {order : Table.Iteration (Job Id)} {j j' : Job Id}
    (hpair : [j, j'].Sublist ((order.visit q.jobs.rows).filter Job.waiting))
    (hle : j.createdAt ≤ j'.createdAt) :
    q.pendingPosition order j.id < q.pendingPosition order j'.id := by
  have hsorted : [j, j'].Sublist (q.pendingOrder order) :=
    List.pair_sublist_insertionSort hle hpair
  have hmem : forall k, k ∈ [j, j'] -> k.id ∈ q.waitingIds := by
    intro k hk
    exact List.mem_map_of_mem
      ((q.pendingOrder_perm order).mem_iff.mp (hsorted.subset hk))
  rw [pendingPosition_eq order (hmem j (List.mem_cons_self ..)),
    pendingPosition_eq order (hmem j' (List.mem_cons_of_mem _ (List.mem_cons_self ..)))]
  apply Nat.succ_lt_succ
  exact Ranks.idxOf_lt_of_pair (hsorted.map Job.id) (q.pendingOrder_ids_nodup order)

end PlaybackQueue

/-!
## What a step does to the pending jobs
-/

theorem Job.KeepsPlace.at {f : Job Id -> Job Id} (h : Job.KeepsPlace f) (id : Id) :
    Job.KeepsPlace fun j => if j.id = id then f j else j := by
  intro j
  dsimp only
  split
  · exact h j
  · exact ⟨rfl, rfl, fun h => h⟩

namespace PlaybackQueue

variable {q : PlaybackQueue Id}

theorem shrinks_update {f : Job Id -> Job Id} (hid : forall j, (f j).id = j.id)
    (h : Job.KeepsPlace f) (id : Id) :
    q.Shrinks { q with jobs := q.jobs.update id f hid } :=
  (h.at id).sublist q.jobs.rows

theorem waitingJobs_admit {id : Id} (now : Int) (h : q.jobs.lookup id = none) :
    (q.pushTask id now).waitingJobs = q.waitingJobs ++ [Job.new id now] := by
  have hnone : q.jobs.lookup (Job.new id now).id = none := h
  unfold waitingJobs pushTask
  rw [Table.rows_put_of_none hnone, List.filter_append]
  rfl

end PlaybackQueue

theorem WorkerStage.Advances.shrinks {q q' : PlaybackQueue Id} {id : Id}
    {stage stage' : WorkerStage} (h : stage.Advances q id stage' q') :
    q.Shrinks q' := by
  cases h with
  | started _ =>
      exact PlaybackQueue.shrinks_update Job.start_id Job.start_keepsPlace id
  | @finished out accounts now =>
      exact PlaybackQueue.shrinks_update (Job.finish_id out accounts now)
        (Job.finish_keepsPlace out accounts now) id
  | _ =>
      exact q.shrinks_refl

/-- The pending jobs become fewer, or one is admitted behind them. -/
theorem PlaybackState.Steps.waiting {s : PlaybackState Id}
    (h : Owned s.queue s.tasks) {a : PlaybackAction Id} {q' : PlaybackQueue Id}
    {tasks' : List (PlaybackTask Id)} (hstep : s.Steps a q' tasks') :
    s.queue.Shrinks q' ∨
      exists k e id createdAt accounts pool, a = .resume k e ∧
        s.tasks[k]? = some (.queueing id createdAt accounts pool) ∧
        s.admits a = some createdAt ∧
        q'.waitingJobs = s.queue.waitingJobs ++ [Job.new id createdAt] := by
  cases hstep with
  | arrived =>
      exact Or.inl s.queue.shrinks_refl
  | @resumed k e t t' _ hk hadvance =>
      cases hadvance with
      | swept now =>
          exact Or.inl (PlaybackQueue.shrinks_prune now)
      | @admitted id createdAt accounts pool hroom =>
          have hnone := (h.allowed _ (List.mem_of_getElem? hk) id rfl).right
          have hlookup : s.queue.jobs.lookup id = none :=
            Option.map_eq_none_iff.mp hnone
          refine Or.inr ⟨k, e, id, createdAt, accounts, pool, rfl, hk, ?_,
            PlaybackQueue.waitingJobs_admit createdAt hlookup⟩
          unfold PlaybackState.admits
          dsimp only
          rw [hk]
          dsimp only
          rw [hroom, if_neg Bool.false_ne_true]
      | worked hstage =>
          exact Or.inl hstage.shrinks
      | _ =>
          exact Or.inl s.queue.shrinks_refl
  | @dropped k t hk =>
      left
      split
      · exact s.queue.shrinks_refl
      · exact s.queue.shrinks_refl
  | pruned now =>
      exact Or.inl (PlaybackQueue.shrinks_prune now)
  | polled id now =>
      exact Or.inl
        (PlaybackQueue.shrinks_update (Job.poll_id now) (Job.poll_keepsPlace now) id)
  | cancelled id now =>
      exact Or.inl
        (PlaybackQueue.shrinks_update (Job.cancel_id now)
          (Job.cancel_keepsPlace now) id)
  | cleared now =>
      exact Or.inl
        (PlaybackQueue.shrinks_map (Job.clear_id now) (Job.clear_keepsPlace now))

/-!
## Runs
-/

theorem PlaybackState.Steps.spread {s s' : PlaybackState Id} {a : PlaybackAction Id}
    (hsteps : s.Steps a s'.queue s'.tasks) (howned : Owned s.queue s.tasks)
    (hspread : s.queue.Spread) (hlater : s.AdmitsLater a) : s'.queue.Spread := by
  rcases hsteps.waiting howned with
    hshrinks | ⟨k, e, id, createdAt, accounts, pool, _, _, hadmits, hjobs⟩
  · exact hspread.shrinks hshrinks
  · unfold PlaybackQueue.Spread
    rw [hjobs, List.pairwise_append]
    refine ⟨hspread, List.pairwise_singleton _ _, ?_⟩
    intro j hj j' hj'
    rw [List.mem_singleton.mp hj']
    exact hlater createdAt hadmits j hj

theorem spread_of_run {actions : List (PlaybackAction Id)} {s : PlaybackState Id}
    (halong : (playback Id).Along PlaybackState.AdmitsLater .new actions)
    (hrun : (playback Id).run PlaybackState.new actions = some s) :
    s.queue.Spread := by
  have hstep : forall m a m', Owned m.queue m.tasks ∧ m.queue.Spread ->
      m.AdmitsLater a -> (playback Id).step m a = some m' ->
      Owned m'.queue m'.tasks ∧ m'.queue.Spread := by
    intro m a m' h hlater hm
    have hsteps := PlaybackState.steps_of_step hm
    constructor
    · exact (h.left.steps hsteps).left
    · exact hsteps.spread h.left h.right hlater
  have hend := System.run_invariant_along
    (I := fun m => Owned m.queue m.tasks ∧ m.queue.Spread) hstep
    ⟨new_owned, List.Pairwise.nil⟩ halong hrun
  exact hend.right

/-- The pending jobs stand in the order of a list of ids that have entered the
queue. -/
structure PlaybackState.WaitsIn (s : PlaybackState Id) (ids : List Id) : Prop where
  owned : Owned s.queue s.tasks
  waiting : s.queue.waitingIds.Sublist ids
  nodup : ids.Nodup
  entered : forall id, id ∈ ids -> Entered id s.queue s.tasks

theorem Owned.entered_of_waiting {q : PlaybackQueue Id}
    {tasks : List (PlaybackTask Id)} (h : Owned q tasks) {id : Id}
    (hid : id ∈ q.waitingIds) : Entered id q tasks := by
  apply h.entered
  rw [PlaybackQueue.mem_waitingIds.mp hid]
  exact fun hnone => nomatch hnone

theorem Owned.waitsIn {s : PlaybackState Id} (h : Owned s.queue s.tasks) :
    s.WaitsIn s.queue.waitingIds where
  owned := h
  waiting := List.Sublist.refl _
  nodup := s.queue.waitingIds_nodup
  entered := fun _ hid => h.entered_of_waiting hid

/-- A step leaves the order alone, or admits one job behind it. -/
theorem PlaybackState.WaitsIn.step {s s' : PlaybackState Id}
    {a : PlaybackAction Id} {ids : List Id} (h : s.WaitsIn ids)
    (hstep : (playback Id).step s a = some s') :
    exists more, s'.WaitsIn (ids ++ more) := by
  have hsteps := PlaybackState.steps_of_step hstep
  have howned := (h.owned.steps hsteps).left
  rcases hsteps.waiting h.owned with
    hshrinks | ⟨k, e, id, createdAt, accounts, pool, _, hk, _, hjobs⟩
  · refine ⟨[], ?_⟩
    rw [List.append_nil]
    exact ⟨howned, hshrinks.ids.trans h.waiting, h.nodup,
      fun id hid => ((h.entered id hid).steps hsteps).left⟩
  · have hids : s'.queue.waitingIds = s.queue.waitingIds ++ [id] := by
      unfold PlaybackQueue.waitingIds
      rw [hjobs, List.map_append]
      rfl
    have hfresh : id ∉ ids := fun hid =>
      (h.entered id hid).right _ (List.mem_of_getElem? hk) createdAt accounts pool rfl
    refine ⟨[id], howned, ?_, ?_, ?_⟩
    · rw [hids]
      exact h.waiting.append (List.Sublist.refl _)
    · apply List.nodup_append.mpr ⟨h.nodup, List.nodup_singleton id, ?_⟩
      intro id' hid' id'' hid'' heq
      rw [List.mem_singleton.mp hid''] at heq
      rw [heq] at hid'
      exact hfresh hid'
    · intro id' hid'
      rcases List.mem_append.mp hid' with hold | hnew
      · exact ((h.entered id' hold).steps hsteps).left
      · apply howned.entered_of_waiting
        rw [hids]
        exact List.mem_append_right _ hnew

/-- What is pending later has been pending or has been admitted since, behind
what was pending. -/
theorem waiting_later {s s' : PlaybackState Id} {actions : List (PlaybackAction Id)}
    (howned : Owned s.queue s.tasks)
    (hrun : (playback Id).run s actions = some s') :
    exists since, s'.queue.waitingIds.Sublist (s.queue.waitingIds ++ since) ∧
      (s.queue.waitingIds ++ since).Nodup := by
  have hstart : exists since, s.WaitsIn (s.queue.waitingIds ++ since) := by
    refine ⟨[], ?_⟩
    rw [List.append_nil]
    exact howned.waitsIn
  have hend := System.run_invariant
    (I := fun m => exists since, m.WaitsIn (s.queue.waitingIds ++ since))
    (fun m a m' h hstep => by
      rcases h with ⟨since, hwaits⟩
      rcases hwaits.step hstep with ⟨more, hmore⟩
      rw [List.append_assoc] at hmore
      exact ⟨since ++ more, hmore⟩)
    hstart hrun
  rcases hend with ⟨since, hwaits⟩
  exact ⟨since, hwaits.waiting, hwaits.nodup⟩

/-!
## When positions are fair
-/

theorem PlaybackState.Steps.rows_of_admits {s : PlaybackState Id}
    (h : Owned s.queue s.tasks) {a : PlaybackAction Id} {q' : PlaybackQueue Id}
    {tasks' : List (PlaybackTask Id)} (hstep : s.Steps a q' tasks') {createdAt : Int}
    (hadmits : s.admits a = some createdAt) :
    exists id, q'.jobs.rows = s.queue.jobs.rows ++ [Job.new id createdAt] := by
  unfold PlaybackState.admits at hadmits
  split at hadmits
  · rename_i k e
    split at hadmits
    · rename_i id createdAt' accounts pool hk
      split at hadmits
      · cases hadmits
      · rename_i hroom
        cases hadmits
        cases hstep with
        | resumed hk' hadvance =>
            rw [hk] at hk'
            cases hk'
            cases hadvance with
            | shed hfull =>
                exact absurd hfull hroom
            | admitted _ =>
                have hnone := (h.allowed _ (List.mem_of_getElem? hk) id rfl).right
                have hlookup : s.queue.jobs.lookup (Job.new id createdAt).id = none :=
                  Option.map_eq_none_iff.mp hnone
                exact ⟨id, Table.rows_put_of_none hlookup⟩
    · cases hadmits
  · cases hadmits

/-- Seen from the end, a job admitted in the second of an earlier one, or before
it, comes first. -/
theorem PlaybackQueue.not_countsAdmissions {q q' : PlaybackQueue Id} {id : Id}
    {createdAt : Int} (hrows : q'.jobs.rows = q.jobs.rows ++ [Job.new id createdAt])
    {j : Job Id} (hj : j ∈ q.waitingJobs) (hle : createdAt ≤ j.createdAt) :
    ¬ q'.CountsAdmissions (Table.Iteration.reversed _) := by
  intro hcounts
  have hwaiting : q'.waitingJobs = q.waitingJobs ++ [Job.new id createdAt] := by
    unfold waitingJobs
    rw [hrows, List.filter_append]
    rfl
  have hids : [j.id, id].Sublist q'.waitingIds := by
    unfold waitingIds
    rw [hwaiting, List.map_append]
    exact (List.singleton_sublist.mpr (List.mem_map_of_mem hj)).append
      (List.Sublist.refl [id])
  have hvisit : [Job.new id createdAt, j].Sublist
      (((Table.Iteration.reversed _).visit q'.jobs.rows).filter Job.waiting) := by
    show [Job.new id createdAt, j].Sublist (q'.jobs.rows.reverse.filter Job.waiting)
    rw [List.filter_reverse]
    show [Job.new id createdAt, j].Sublist q'.waitingJobs.reverse
    rw [hwaiting, List.reverse_append]
    apply List.Sublist.cons_cons
    exact List.singleton_sublist.mpr (List.mem_reverse.mpr hj)
  have hbefore := pendingPosition_lt hvisit hle
  have hafter := Ranks.idxOf_lt_of_pair hids q'.waitingIds_nodup
  rw [Ranks.position_of_map hcounts (hids.subset (List.mem_cons_self ..)),
    show (Job.new id createdAt).id = id from rfl,
    Ranks.position_of_map hcounts
      (hids.subset (List.mem_cons_of_mem _ (List.mem_cons_self ..)))] at hbefore
  exact absurd (Nat.lt_of_succ_lt_succ hbefore) (Nat.lt_asymm hafter)

/-- The positions of a run are fair exactly when every job is admitted with a
later second than all jobs pending then. -/
theorem fairPositions_iff {actions : List (PlaybackAction Id)} {s : PlaybackState Id}
    (hrun : (playback Id).run PlaybackState.new actions = some s) :
    FairPositions actions <->
      (playback Id).Along PlaybackState.AdmitsLater PlaybackState.new actions := by
  constructor
  · intro hfair
    by_contra hnot
    rcases System.exists_step_of_not_along hnot with
      ⟨before, a, after, mid, hactions, hbefore, _, hbad⟩
    have hbroken : exists createdAt, mid.admits a = some createdAt ∧
        exists j, j ∈ mid.queue.waitingJobs ∧ createdAt ≤ j.createdAt := by
      by_contra hnone
      apply hbad
      intro createdAt hadmits j hj
      by_contra hle
      exact hnone ⟨createdAt, hadmits, j, hj, not_lt.mp hle⟩
    rcases hbroken with ⟨createdAt, hadmits, j, hj, hle⟩
    rw [hactions] at hrun
    rcases System.run_append_some.mp hrun with ⟨mid', hmid', hrest⟩
    rw [hbefore] at hmid'
    cases hmid'
    rcases System.run_cons_some.mp hrest with ⟨next, hstep, _⟩
    rcases (PlaybackState.steps_of_step hstep).rows_of_admits (owned_of_run hbefore)
      hadmits with ⟨id, hrows⟩
    have hnext : (playback Id).run PlaybackState.new (before ++ [a]) = some next :=
      System.run_append_some.mpr
        ⟨mid, hbefore, System.run_cons_some.mpr ⟨next, hstep, rfl⟩⟩
    apply PlaybackQueue.not_countsAdmissions hrows hj hle
    apply hfair.left (before ++ [a]) after next _ _ hnext
    rw [hactions, List.append_assoc]
    rfl
  · intro halong
    have hcounts : forall first rest s order, actions = first ++ rest ->
        (playback Id).run PlaybackState.new first = some s ->
        s.queue.CountsAdmissions order := by
      intro first rest s order hactions hfirst
      rw [hactions] at halong
      have hfirstAlong := ((System.along_append hfirst).mp halong).left
      exact (spread_of_run hfirstAlong hfirst).countsAdmissions order
    refine ⟨hcounts, ?_⟩
    intro first second rest s s' order order' id hactions hfirst hsecond hpending
      hpending'
    have hboth : (playback Id).run PlaybackState.new (first ++ second) = some s' :=
      System.run_append_some.mpr ⟨s, hfirst, hsecond⟩
    have hid := PlaybackQueue.mem_waitingIds.mpr hpending
    have hid' := PlaybackQueue.mem_waitingIds.mpr hpending'
    have hnow := hcounts first (second ++ rest) s order
      (by rw [hactions, List.append_assoc]) hfirst
    have hlater := hcounts (first ++ second) rest s' order' hactions hboth
    rcases waiting_later (owned_of_run hfirst) hsecond with ⟨since, hsub, hnodup⟩
    rw [Ranks.position_of_map hnow hid, Ranks.position_of_map hlater hid']
    apply Nat.succ_le_succ
    have hsame : (s.queue.waitingIds ++ since).idxOf id = s.queue.waitingIds.idxOf id :=
      List.idxOf_append_of_mem hid
    rw [<- hsame]
    exact Ranks.idxOf_le_of_sublist hsub hnodup hid'

/-- Two requests in two slots; two more that queue, the first at a given second
and the second one at second 100. -/
def twoQueued (second : Int) : List (PlaybackAction Nat) :=
  [.arrive, .resume 0 (.prune 90), .resume 0 (.measure 2 1), .resume 0 (.load 0),
    .resume 0 .swap, .arrive, .resume 1 (.prune 90), .resume 1 (.measure 2 1),
    .resume 1 (.load 1), .resume 1 .swap, .arrive, .resume 2 (.prune 90),
    .resume 2 (.measure 2 1), .resume 2 (.load 2), .resume 2 (.draw 7 second),
    .resume 2 .enqueue, .arrive, .resume 3 (.prune 100), .resume 3 (.measure 2 1),
    .resume 3 (.load 2), .resume 3 (.draw 8 100), .resume 3 .enqueue]

/-- One second apart. -/
theorem fairPositions_iff_apart :
    exists s, (playback Nat).run PlaybackState.new (twoQueued 99) = some s ∧
      (FairPositions (twoQueued 99) <->
        (playback Nat).Along PlaybackState.AdmitsLater PlaybackState.new
          (twoQueued 99)) :=
  ⟨_, rfl, @fairPositions_iff Nat _ (twoQueued 99) _ rfl⟩

/-- In the same second an iteration from the end numbers the jobs backwards. -/
theorem not_fairPositions : ¬ FairPositions (twoQueued 100) := by
  intro h
  have hcounts := h.left (twoQueued 100) [] _ (Table.Iteration.reversed _)
    (List.append_nil _).symm rfl
  unfold PlaybackQueue.CountsAdmissions at hcounts
  revert hcounts
  decide

end HifiApi
