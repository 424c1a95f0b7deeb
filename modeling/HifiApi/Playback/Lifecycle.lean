import HifiApi.Playback.Transitions

/-!
# The life of a job

Every section that writes to a job checks its state again.  Each identifier
belongs to one task; the stage of the task says which states its job may have,
and what others do to the job keeps it among them.
-/

namespace HifiApi

variable {Id : Type}

inductive JobState.Next : JobState -> JobState -> Prop
  | started : Next .pending .processing
  | completed : Next .processing .completed
  | failed : Next .processing .failed
  | withdrawn : Next .pending .cancelled
  | interrupted : Next .processing .cancelled

namespace Job

/-- A finished time for exactly the states at the end, and an answer. -/
structure Sound (j : Job Id) : Prop where
  finishedAt : j.finishedAt.isSome = j.state.terminal
  result : j.state = .completed -> j.result.isSome = true

/-- One step of a job that stays in the map. -/
structure Moves (j j' : Job Id) : Prop where
  state : j'.state = j.state ∨ JobState.Next j.state j'.state
  frozen : j.state.terminal = true -> j'.state = j.state ∧ j'.result = j.result
  sound : j.Sound -> j'.Sound

end Job

/-- One step of what the map has under an identifier. -/
inductive JobStep : Option (Job Id) -> Option (Job Id) -> Prop
  | absent : JobStep none none
  | admitted {j : Job Id} : j.state = .pending -> j.Sound -> JobStep none (some j)
  | removed {j : Job Id} : j.state.terminal = true -> JobStep (some j) none
  | kept {j j' : Job Id} : j.Moves j' -> JobStep (some j) (some j')

/-- What happens to a job without its own task. -/
inductive JobState.Drifts : Option JobState -> Option JobState -> Prop
  | same (state : Option JobState) : Drifts state state
  | cancelled {state : JobState} : state.terminal = false ->
      Drifts (some state) (some .cancelled)
  | removed {state : JobState} : state.terminal = true -> Drifts (some state) none

/-!
## Single jobs
-/

namespace Job

theorem new_sound (id : Id) (now : Int) : (new id now).Sound :=
  ⟨rfl, fun h => nomatch h⟩

theorem moves_touched {j j' : Job Id} (hstate : j'.state = j.state)
    (hresult : j'.result = j.result) (hfinished : j'.finishedAt = j.finishedAt) :
    j.Moves j' := by
  constructor
  · exact Or.inl hstate
  · exact fun _ => ⟨hstate, hresult⟩
  · intro h
    constructor
    · rw [hfinished, hstate]
      exact h.finishedAt
    · rw [hstate, hresult]
      exact h.result

theorem moves_cancelled {j j' : Job Id}
    (hstate : j.state = .pending ∨ j.state = .processing)
    (hcancelled : j'.state = .cancelled) (hfinished : j'.finishedAt.isSome = true) :
    j.Moves j' := by
  constructor
  · right
    rw [hcancelled]
    rcases hstate with hpending | hprocessing
    · rw [hpending]
      exact JobState.Next.withdrawn
    · rw [hprocessing]
      exact JobState.Next.interrupted
  · intro hterminal
    rcases hstate with hpending | hprocessing
    · rw [hpending] at hterminal
      cases hterminal
    · rw [hprocessing] at hterminal
      cases hterminal
  · intro _
    constructor
    · rw [hfinished, hcancelled]
      rfl
    · rw [hcancelled]
      exact fun h => nomatch h

theorem drifts_cancelled {j : Job Id}
    (h : j.state = .pending ∨ j.state = .processing) :
    JobState.Drifts (some j.state) (some .cancelled) := by
  apply JobState.Drifts.cancelled
  rcases h with hpending | hprocessing
  · rw [hpending]
    rfl
  · rw [hprocessing]
    rfl

/-- A change that may come from anyone. -/
def Free (f : Job Id -> Job Id) : Prop :=
  forall j, j.Moves (f j) ∧ JobState.Drifts (some j.state) (some (f j).state)

theorem poll_free (now : Int) : Free (@poll Id now) := by
  intro j
  unfold poll
  split
  · exact ⟨moves_touched rfl rfl rfl, JobState.Drifts.same _⟩
  · exact ⟨moves_touched rfl rfl rfl, JobState.Drifts.same _⟩

theorem expire_free (now : Int) : Free (@expire Id now) := by
  intro j
  unfold expire
  split
  · rename_i h
    exact ⟨moves_cancelled (Or.inl h.left) rfl rfl, drifts_cancelled (Or.inl h.left)⟩
  · exact ⟨moves_touched rfl rfl rfl, JobState.Drifts.same _⟩

theorem cancel_free (now : Int) : Free (@cancel Id now) := by
  intro j
  unfold cancel
  split
  · rename_i h
    exact ⟨moves_cancelled h rfl rfl, drifts_cancelled h⟩
  · exact ⟨moves_touched rfl rfl rfl, JobState.Drifts.same _⟩

theorem clear_free (now : Int) : Free (@clear Id now) := by
  intro j
  unfold clear
  split
  · rename_i h
    exact ⟨moves_cancelled h rfl rfl, drifts_cancelled h⟩
  · exact ⟨moves_touched rfl rfl rfl, JobState.Drifts.same _⟩

theorem start_moves {j : Job Id} (h : j.state = .pending) (hsound : j.Sound) :
    j.Moves j.start := by
  constructor
  · right
    rw [h]
    exact JobState.Next.started
  · intro hterminal
    rw [h] at hterminal
    cases hterminal
  · intro _
    constructor
    · show j.finishedAt.isSome = false
      rw [hsound.finishedAt, h]
      rfl
    · exact fun hdone => nomatch hdone

theorem finish_moves {j : Job Id} (out : JobOutcome) (accounts : List LoggedAccount)
    (now : Int) (h : j.state = .processing ∨ j.state = .cancelled) :
    j.Moves (j.finish out accounts now) ∧
      (j.finish out accounts now).state.terminal = true := by
  unfold finish
  split
  · rename_i hcancelled
    constructor
    · exact moves_touched rfl rfl rfl
    · show j.state.terminal = true
      rw [hcancelled]
      rfl
  · rename_i hnot
    have hprocessing : j.state = .processing := h.resolve_right hnot
    have hfrozen : j.state.terminal ≠ true := by
      rw [hprocessing]
      exact Bool.false_ne_true
    cases out with
    | done result =>
        refine ⟨⟨Or.inr ?_, fun hend => absurd hend hfrozen, fun _ => ?_⟩, rfl⟩
        · rw [hprocessing]
          exact JobState.Next.completed
        · exact ⟨rfl, fun _ => rfl⟩
    | refused e =>
        refine ⟨⟨Or.inr ?_, fun hend => absurd hend hfrozen, fun _ => ?_⟩, rfl⟩
        · rw [hprocessing]
          exact JobState.Next.failed
        · exact ⟨rfl, fun hdone => nomatch hdone⟩
    | elapsed =>
        refine ⟨⟨Or.inr ?_, fun hend => absurd hend hfrozen, fun _ => ?_⟩, rfl⟩
        · rw [hprocessing]
          exact JobState.Next.failed
        · exact ⟨rfl, fun hdone => nomatch hdone⟩

end Job

theorem JobStep.refl (j : Option (Job Id)) : JobStep j j := by
  cases j with
  | none =>
      exact JobStep.absent
  | some j =>
      exact JobStep.kept (Job.moves_touched rfl rfl rfl)

theorem JobState.not_next_pending (state : JobState) : ¬ Next state .pending := by
  intro h
  cases h

theorem JobStep.not_pending {j j' : Option (Job Id)} (h : JobStep j j')
    (hstate : j.map Job.state ≠ some .pending) (hnone : j = none -> j' = none) :
    j'.map Job.state ≠ some .pending := by
  cases h with
  | absent =>
      exact hstate
  | admitted _ _ =>
      cases hnone rfl
  | removed _ =>
      exact fun heq => nomatch heq
  | @kept j j' hmoves =>
      intro heq
      have hpending : j'.state = .pending := Option.some.inj heq
      rcases hmoves.state with hsame | hnext
      · rw [hsame] at hpending
        exact hstate (congrArg some hpending)
      · rw [hpending] at hnext
        exact JobState.not_next_pending _ hnext

theorem JobStep.unstartable {j j' : Option (Job Id)} (h : JobStep j j')
    (hstate : JobState.unstartable (j.map Job.state)) (hnone : j = none -> j' = none) :
    JobState.unstartable (j'.map Job.state) := by
  cases h with
  | absent =>
      exact hstate
  | admitted _ _ =>
      cases hnone rfl
  | removed _ =>
      exact Or.inl rfl
  | @kept j j' hmoves =>
      rcases hstate with habsent | hcancelled
      · cases habsent
      · have heq : j.state = .cancelled := Option.some.inj hcancelled
        have hfrozen := hmoves.frozen (by rw [heq]; rfl)
        exact Or.inr (congrArg some (hfrozen.left.trans heq))

/-!
## The stages of a task and the states of its job
-/

def JobState.unstarted (state : Option JobState) : Prop :=
  state = none ∨ state = some .pending ∨ state = some .cancelled

def JobState.underWay (state : Option JobState) : Prop :=
  state = none ∨ state = some .processing ∨ state = some .cancelled

def JobState.concluded (state : Option JobState) : Prop :=
  forall st, state = some st -> st.terminal = true

/-- The states that a worker expects of its job. -/
def WorkerStage.allows : WorkerStage -> Option JobState -> Prop
  | checking => JobState.unstarted
  | measuring => JobState.unstarted
  | claiming _ _ => JobState.unstarted
  | sleeping => JobState.unstarted
  | admitted => JobState.unstarted
  | running => JobState.underWay
  | finishing _ _ => JobState.underWay
  | leaving => JobState.concluded
  | returned => JobState.concluded

namespace PlaybackTask

/-- The identifier that a task has drawn. -/
def owned : PlaybackTask Id -> Option Id
  | queueing id _ _ _ => some id
  | enqueued id _ => some id
  | worker id _ => some id
  | _ => none

def allows : PlaybackTask Id -> Option JobState -> Prop
  | queueing _ _ _ _ => fun state => state = none
  | enqueued _ _ => JobState.unstarted
  | worker _ stage => stage.allows
  | _ => fun _ => True

end PlaybackTask

namespace JobState

theorem unstarted_drifts {state state' : Option JobState} (h : unstarted state)
    (hdrift : Drifts state state') : unstarted state' := by
  cases hdrift with
  | same _ =>
      exact h
  | cancelled _ =>
      exact Or.inr (Or.inr rfl)
  | removed _ =>
      exact Or.inl rfl

theorem underWay_drifts {state state' : Option JobState} (h : underWay state)
    (hdrift : Drifts state state') : underWay state' := by
  cases hdrift with
  | same _ =>
      exact h
  | cancelled _ =>
      exact Or.inr (Or.inr rfl)
  | removed _ =>
      exact Or.inl rfl

theorem concluded_drifts {state state' : Option JobState} (h : concluded state)
    (hdrift : Drifts state state') : concluded state' := by
  cases hdrift with
  | same _ =>
      exact h
  | cancelled _ =>
      intro st hst
      cases hst
      rfl
  | removed _ =>
      intro st hst
      cases hst

theorem concluded_of_unstartable {state : Option JobState} (h : unstartable state) :
    concluded state := by
  intro st hst
  rcases h with hnone | hcancelled
  · rw [hnone] at hst
    cases hst
  · rw [hcancelled] at hst
    cases hst
    rfl

theorem pending_of_unstarted {state : Option JobState} (h : unstarted state)
    (hnot : ¬ unstartable state) : state = some .pending := by
  rcases h with hnone | hpending | hcancelled
  · exact absurd (Or.inl hnone) hnot
  · exact hpending
  · exact absurd (Or.inr hcancelled) hnot

end JobState

theorem WorkerStage.allows_drifts {stage : WorkerStage}
    {state state' : Option JobState} (h : stage.allows state)
    (hdrift : JobState.Drifts state state') : stage.allows state' := by
  cases stage with
  | checking =>
      exact JobState.unstarted_drifts h hdrift
  | measuring =>
      exact JobState.unstarted_drifts h hdrift
  | claiming pool current =>
      exact JobState.unstarted_drifts h hdrift
  | sleeping =>
      exact JobState.unstarted_drifts h hdrift
  | admitted =>
      exact JobState.unstarted_drifts h hdrift
  | running =>
      exact JobState.underWay_drifts h hdrift
  | finishing out accounts =>
      exact JobState.underWay_drifts h hdrift
  | leaving =>
      exact JobState.concluded_drifts h hdrift
  | returned =>
      exact JobState.concluded_drifts h hdrift

theorem PlaybackTask.allows_drifts {t : PlaybackTask Id}
    {state state' : Option JobState} (h : t.allows state)
    (hdrift : JobState.Drifts state state') : t.allows state' := by
  cases t with
  | queueing id createdAt accounts pool =>
      have hnone : state = none := h
      subst hnone
      cases hdrift
      rfl
  | enqueued id accounts =>
      exact JobState.unstarted_drifts h hdrift
  | worker id stage =>
      exact WorkerStage.allows_drifts h hdrift
  | _ =>
      trivial

/-- The job of an identifier has been admitted. -/
def Entered (id : Id) (q : PlaybackQueue Id) (tasks : List (PlaybackTask Id)) : Prop :=
  id ∈ q.drawn ∧
    forall t, t ∈ tasks -> forall createdAt accounts pool,
      t ≠ .queueing id createdAt accounts pool

theorem Entered.set {id : Id} {q q' : PlaybackQueue Id}
    {tasks : List (PlaybackTask Id)} {k : Nat} {t' : PlaybackTask Id}
    (h : Entered id q tasks) (hdrawn : id ∈ q'.drawn)
    (hnext : forall createdAt accounts pool,
      t' ≠ .queueing id createdAt accounts pool) :
    Entered id q' (tasks.set k t') := by
  constructor
  · exact hdrawn
  · intro t ht
    rcases List.mem_or_eq_of_mem_set ht with hold | hnew
    · exact h.right t hold
    · rw [hnew]
      exact hnext

/-!
## Changes of the queue
-/

variable [DecidableEq Id]

namespace PlaybackQueue

/-- A change that the task of an identifier, or nobody's task, makes. -/
structure Changes (q q' : PlaybackQueue Id) (owner : Option Id) : Prop where
  jobs : forall id, JobStep (q.jobs.lookup id) (q'.jobs.lookup id)
  others : forall id, owner ≠ some id ->
    JobState.Drifts (q.stateOf id) (q'.stateOf id)
  drawn : forall id, id ∈ q.drawn -> id ∈ q'.drawn

variable {q q' : PlaybackQueue Id}

theorem changes_of_jobs_eq (owner : Option Id) (hjobs : q'.jobs = q.jobs)
    (hdrawn : forall id, id ∈ q.drawn -> id ∈ q'.drawn) : Changes q q' owner := by
  constructor
  · intro id
    rw [hjobs]
    exact JobStep.refl _
  · intro id _
    unfold stateOf
    rw [hjobs]
    exact JobState.Drifts.same _
  · exact hdrawn

theorem changes_refl (q : PlaybackQueue Id) (owner : Option Id) :
    Changes q q owner :=
  changes_of_jobs_eq owner rfl fun _ h => h

theorem changes_release (q : PlaybackQueue Id) (owner : Option Id) :
    Changes q q.release owner :=
  changes_of_jobs_eq owner rfl fun _ h => h

theorem changes_map {f : Job Id -> Job Id} (hid : forall j, (f j).id = j.id)
    (hfree : Job.Free f) (owner : Option Id) :
    Changes q { q with jobs := q.jobs.mapRows f hid } owner := by
  constructor
  · intro id
    show JobStep _ ((q.jobs.mapRows f hid).lookup id)
    rw [Table.lookup_mapRows]
    cases q.jobs.lookup id with
    | none =>
        exact JobStep.absent
    | some j =>
        exact JobStep.kept (hfree j).left
  · intro id _
    show JobState.Drifts _ (((q.jobs.mapRows f hid).lookup id).map Job.state)
    rw [Table.lookup_mapRows]
    unfold stateOf
    cases q.jobs.lookup id with
    | none =>
        exact JobState.Drifts.same _
    | some j =>
        exact (hfree j).right
  · exact fun _ h => h

theorem changes_update {f : Job Id -> Job Id} (hid : forall j, (f j).id = j.id)
    (hfree : Job.Free f) (id : Id) (owner : Option Id) :
    Changes q { q with jobs := q.jobs.update id f hid } owner := by
  constructor
  · intro id'
    show JobStep _ ((q.jobs.update id f hid).lookup id')
    rw [Table.lookup_update]
    split
    · cases q.jobs.lookup id' with
      | none =>
          exact JobStep.absent
      | some j =>
          exact JobStep.kept (hfree j).left
    · exact JobStep.refl _
  · intro id' _
    show JobState.Drifts _ (((q.jobs.update id f hid).lookup id').map Job.state)
    rw [Table.lookup_update]
    unfold stateOf
    split
    · cases q.jobs.lookup id' with
      | none =>
          exact JobState.Drifts.same _
      | some j =>
          exact (hfree j).right
    · exact JobState.Drifts.same _
  · exact fun _ h => h

/-- A change of the job of one identifier by its own task. -/
theorem changes_update_own {f : Job Id -> Job Id} (hid : forall j, (f j).id = j.id)
    (id : Id) (hmoves : forall j, q.jobs.lookup id = some j -> j.Moves (f j)) :
    Changes q { q with jobs := q.jobs.update id f hid } (some id) := by
  constructor
  · intro id'
    show JobStep _ ((q.jobs.update id f hid).lookup id')
    rw [Table.lookup_update]
    split
    · rename_i heq
      subst heq
      cases hjob : q.jobs.lookup id' with
      | none =>
          exact JobStep.absent
      | some j =>
          exact JobStep.kept (hmoves j hjob)
    · exact JobStep.refl _
  · intro id' hother
    have hne : id' ≠ id := fun heq => hother (congrArg some heq.symm)
    show JobState.Drifts _ (((q.jobs.update id f hid).lookup id').map Job.state)
    rw [Table.lookup_update, if_neg hne]
    exact JobState.Drifts.same _
  · exact fun _ h => h

theorem changes_admit {id : Id} (now : Int) (h : q.stateOf id = none) :
    Changes q (q.pushTask id now) (some id) := by
  have hnone : q.jobs.lookup id = none := Option.map_eq_none_iff.mp h
  constructor
  · intro id'
    show JobStep _ ((q.jobs.put (Job.new id now)).lookup id')
    rw [Table.lookup_put]
    split
    · rename_i heq
      rw [heq, show (Job.new id now).id = id from rfl, hnone]
      exact JobStep.admitted rfl (Job.new_sound id now)
    · exact JobStep.refl _
  · intro id' hother
    have hne : id' ≠ (Job.new id now).id := fun heq => hother (congrArg some heq.symm)
    show JobState.Drifts _ (((q.jobs.put (Job.new id now)).lookup id').map Job.state)
    rw [Table.lookup_put, if_neg hne]
    exact JobState.Drifts.same _
  · exact fun _ h => h

/-- What a sweep removes has a finished time, and so is at its end. -/
theorem changes_prune (hsound : forall id j, q.jobs.lookup id = some j -> j.Sound)
    (now : Int) (owner : Option Id) : Changes q (q.prune now) owner := by
  have hlookup (id : Id) : (q.prune now).jobs.lookup id =
      ((q.jobs.lookup id).filter fun j => j.finishedAt.elim true fun finished =>
        decide (now - jobTtlSecs ≤ finished)).map (Job.expire now) := by
    unfold prune
    rw [Table.lookup_mapRows, Table.lookup_retain]
  have hgone : forall id j, q.jobs.lookup id = some j ->
      ¬ (j.finishedAt.elim true fun finished =>
        decide (now - jobTtlSecs ≤ finished)) = true -> j.state.terminal = true := by
    intro id j hj hnot
    rw [<- (hsound id j hj).finishedAt]
    cases hfinished : j.finishedAt with
    | none =>
        rw [hfinished] at hnot
        exact absurd rfl hnot
    | some finished =>
        rfl
  constructor
  · intro id
    rw [hlookup]
    cases hjob : q.jobs.lookup id with
    | none =>
        exact JobStep.absent
    | some j =>
        rw [Option.filter_some]
        split
        · exact JobStep.kept (Job.expire_free now j).left
        · rename_i hnot
          exact JobStep.removed (hgone id j hjob hnot)
  · intro id _
    unfold stateOf
    rw [hlookup]
    cases hjob : q.jobs.lookup id with
    | none =>
        exact JobState.Drifts.same _
    | some j =>
        rw [Option.filter_some]
        split
        · exact (Job.expire_free now j).right
        · rename_i hnot
          exact JobState.Drifts.removed (hgone id j hjob hnot)
  · exact fun _ h => h

theorem stateOf_update (f : Job Id -> Job Id) (hid : forall j, (f j).id = j.id)
    (id : Id) :
    ({ q with jobs := q.jobs.update id f hid } : PlaybackQueue Id).stateOf id =
      (q.jobs.lookup id).map fun j => (f j).state := by
  show ((q.jobs.update id f hid).lookup id).map Job.state = _
  rw [Table.lookup_update, if_pos rfl, Option.map_map]
  rfl

theorem state_of_lookup {id : Id} {j : Job Id} (h : q.jobs.lookup id = some j) :
    q.stateOf id = some j.state := by
  unfold stateOf
  rw [h]
  rfl

end PlaybackQueue

/-!
## One step of a task
-/

theorem WorkerStage.Advances.changes {q q' : PlaybackQueue Id} {id : Id}
    {stage stage' : WorkerStage} (h : stage.Advances q id stage' q')
    (hallowed : stage.allows (q.stateOf id))
    (hsound : forall id j, q.jobs.lookup id = some j -> j.Sound) :
    q.Changes q' (some id) ∧ stage'.allows (q'.stateOf id) := by
  cases h with
  | ended hgone =>
      exact ⟨q.changes_refl _, JobState.concluded_of_unstartable hgone⟩
  | goesOn _ =>
      exact ⟨q.changes_refl _, hallowed⟩
  | measured pool =>
      exact ⟨q.changes_refl _, hallowed⟩
  | loaded seen =>
      exact ⟨q.changes_refl _, hallowed⟩
  | full =>
      exact ⟨q.changes_refl _, hallowed⟩
  | claimed _ =>
      exact ⟨PlaybackQueue.changes_of_jobs_eq _ rfl fun _ hmem => hmem, hallowed⟩
  | woken =>
      exact ⟨q.changes_refl _, hallowed⟩
  | late hgone =>
      exact ⟨q.changes_refl _, JobState.concluded_of_unstartable hgone⟩
  | started hnot =>
      have hpending := JobState.pending_of_unstarted hallowed hnot
      constructor
      · apply PlaybackQueue.changes_update_own Job.start_id
        intro j hj
        rw [PlaybackQueue.state_of_lookup hj] at hpending
        exact Job.start_moves (Option.some.inj hpending) (hsound id j hj)
      · show JobState.underWay _
        unfold PlaybackQueue.start
        rw [PlaybackQueue.stateOf_update]
        cases q.jobs.lookup id with
        | none =>
            exact Or.inl rfl
        | some j =>
            exact Or.inr (Or.inl rfl)
  | cameTo out accounts =>
      exact ⟨q.changes_refl _, hallowed⟩
  | @finished out accounts now =>
      have hmoves : forall j, q.jobs.lookup id = some j ->
          j.Moves (j.finish out accounts now) ∧
            (j.finish out accounts now).state.terminal = true := by
        intro j hj
        apply Job.finish_moves
        rcases hallowed with hnone | hprocessing | hcancelled
        · rw [PlaybackQueue.state_of_lookup hj] at hnone
          cases hnone
        · rw [PlaybackQueue.state_of_lookup hj] at hprocessing
          exact Or.inl (Option.some.inj hprocessing)
        · rw [PlaybackQueue.state_of_lookup hj] at hcancelled
          exact Or.inr (Option.some.inj hcancelled)
      constructor
      · exact PlaybackQueue.changes_update_own (Job.finish_id out accounts now) id
          fun j hj => (hmoves j hj).left
      · show JobState.concluded _
        unfold PlaybackQueue.finish
        rw [PlaybackQueue.stateOf_update]
        intro st hst
        rcases Option.map_eq_some_iff.mp hst with ⟨j, hj, heq⟩
        rw [<- heq]
        exact (hmoves j hj).right
  | left =>
      exact ⟨q.changes_release _, hallowed⟩

/-- What a task does to the queue, and what it leaves to its next stage. -/
theorem PlaybackTask.Advances.changes {q q' : PlaybackQueue Id}
    {t t' : PlaybackTask Id} (h : t.Advances q t' q')
    (hallowed : forall id, t.owned = some id ->
      id ∈ q.drawn ∧ t.allows (q.stateOf id))
    (hsound : forall id j, q.jobs.lookup id = some j -> j.Sound)
    (hknown : forall id, q.stateOf id ≠ none -> id ∈ q.drawn) :
    q.Changes q' t.owned ∧
      forall id, t'.owned = some id -> (t.owned = some id ∨ id ∉ q.drawn) ∧
        id ∈ q'.drawn ∧ t'.allows (q'.stateOf id) := by
  cases h with
  | swept now =>
      exact ⟨q.changes_prune hsound now _, fun _ hid => nomatch hid⟩
  | hit =>
      exact ⟨q.changes_refl _, fun _ hid => nomatch hid⟩
  | measured accounts pool =>
      exact ⟨q.changes_refl _, fun _ hid => nomatch hid⟩
  | loaded seen =>
      exact ⟨q.changes_refl _, fun _ hid => nomatch hid⟩
  | full =>
      exact ⟨q.changes_refl _, fun _ hid => nomatch hid⟩
  | claimed _ =>
      exact ⟨PlaybackQueue.changes_of_jobs_eq _ rfl fun _ hmem => hmem,
        fun _ hid => nomatch hid⟩
  | cameTo out =>
      exact ⟨q.changes_refl _, fun _ hid => nomatch hid⟩
  | left =>
      exact ⟨q.changes_release _, fun _ hid => nomatch hid⟩
  | @drawn accounts pool id now hfresh =>
      constructor
      · exact PlaybackQueue.changes_of_jobs_eq _ rfl
          fun _ hmem => List.mem_cons_of_mem _ hmem
      · intro id' hid
        have heq : id = id' := Option.some.inj hid
        subst heq
        refine ⟨Or.inr hfresh, List.mem_cons_self .., ?_⟩
        show q.stateOf id = none
        by_contra hsome
        exact hfresh (hknown id hsome)
  | shed _ =>
      exact ⟨q.changes_refl _, fun _ hid => nomatch hid⟩
  | @admitted id createdAt accounts pool _ =>
      rcases hallowed id rfl with ⟨hdrawn, hnone⟩
      constructor
      · exact PlaybackQueue.changes_admit createdAt hnone
      · intro id' hid
        have heq : id = id' := Option.some.inj hid
        subst heq
        refine ⟨Or.inl rfl, hdrawn, ?_⟩
        show JobState.unstarted (((q.jobs.put (Job.new id createdAt)).lookup id).map _)
        rw [Table.lookup_put, if_pos (show id = (Job.new id createdAt).id from rfl)]
        exact Or.inr (Or.inl rfl)
  | @spawned id accounts =>
      rcases hallowed id rfl with ⟨hdrawn, hstate⟩
      constructor
      · exact q.changes_refl _
      · intro id' hid
        have heq : id = id' := Option.some.inj hid
        subst heq
        exact ⟨Or.inl rfl, hdrawn, hstate⟩
  | @worked id stage stage' _ hstage =>
      rcases hallowed id rfl with ⟨hdrawn, hstate⟩
      rcases hstage.changes hstate hsound with ⟨hchanges, hnext⟩
      constructor
      · exact hchanges
      · intro id' hid
        have heq : id = id' := Option.some.inj hid
        subst heq
        exact ⟨Or.inl rfl, hchanges.drawn id hdrawn, hnext⟩

/-!
## The invariant
-/

/-- Each identifier belongs to one task, and the jobs are as the stages of
their tasks expect them. -/
structure Owned (q : PlaybackQueue Id) (tasks : List (PlaybackTask Id)) : Prop where
  sound : forall id j, q.jobs.lookup id = some j -> j.Sound
  known : forall id, q.stateOf id ≠ none -> id ∈ q.drawn
  single : forall (i j : Nat) t t' id, tasks[i]? = some t -> tasks[j]? = some t' ->
    t.owned = some id -> t'.owned = some id -> i = j
  allowed : forall t, t ∈ tasks -> forall id, t.owned = some id ->
    id ∈ q.drawn ∧ t.allows (q.stateOf id)

namespace Owned

variable {q q' : PlaybackQueue Id} {tasks : List (PlaybackTask Id)}

theorem sound_changes (h : Owned q tasks) {owner : Option Id}
    (hchanges : q.Changes q' owner) (id : Id) (j : Job Id)
    (hj : q'.jobs.lookup id = some j) : j.Sound := by
  have hstep := hchanges.jobs id
  rw [hj] at hstep
  generalize hold : q.jobs.lookup id = old at hstep
  cases hstep with
  | admitted _ hsound =>
      exact hsound
  | kept hmoves =>
      exact hmoves.sound (h.sound id _ hold)

theorem known_changes (h : Owned q tasks) {owner : Option Id}
    (hchanges : q.Changes q' owner)
    (howner : forall id, owner = some id -> id ∈ q'.drawn) (id : Id)
    (hsome : q'.stateOf id ≠ none) : id ∈ q'.drawn := by
  by_cases hown : owner = some id
  · exact howner id hown
  · apply hchanges.drawn
    apply h.known
    intro hnone
    have hdrift := hchanges.others id hown
    rw [hnone] at hdrift
    generalize q'.stateOf id = state at hdrift hsome
    cases hdrift
    exact hsome rfl

theorem change (h : Owned q tasks) (hchanges : q.Changes q' none) :
    Owned q' tasks := by
  constructor
  · exact h.sound_changes hchanges
  · exact h.known_changes hchanges fun _ hid => nomatch hid
  · exact h.single
  · intro t ht id hid
    rcases h.allowed t ht id hid with ⟨hdrawn, hstate⟩
    exact ⟨hchanges.drawn id hdrawn,
      PlaybackTask.allows_drifts hstate (hchanges.others id fun hnone => nomatch hnone)⟩

theorem set (h : Owned q tasks) {k : Nat} {t t' : PlaybackTask Id}
    (hk : tasks[k]? = some t) (hchanges : q.Changes q' t.owned)
    (hnext : forall id, t'.owned = some id -> (t.owned = some id ∨ id ∉ q.drawn) ∧
      id ∈ q'.drawn ∧ t'.allows (q'.stateOf id)) : Owned q' (tasks.set k t') := by
  have ht : t ∈ tasks := List.mem_of_getElem? hk
  -- another task has another identifier than the next stage of this one
  have hother : forall (i : Nat) u id, i ≠ k -> tasks[i]? = some u ->
      u.owned = some id -> t'.owned ≠ some id := by
    intro i u id hik hu hid hid'
    rcases (hnext id hid').left with hsame | hfresh
    · exact hik (h.single i k u t id hu hk hid hsame)
    · exact hfresh (h.allowed u (List.mem_of_getElem? hu) id hid).left
  constructor
  · exact h.sound_changes hchanges
  · apply h.known_changes hchanges
    intro id hid
    exact hchanges.drawn id (h.allowed t ht id hid).left
  · intro i j u u' id hu hu' hid hid'
    rw [List.getElem?_set] at hu hu'
    split at hu
    · rename_i hki
      split at hu'
      · rename_i hkj
        rw [<- hki, <- hkj]
      · rename_i hkj
        split at hu
        · cases hu
          exact absurd hid (hother j u' id (Ne.symm hkj) hu' hid')
        · cases hu
    · rename_i hki
      split at hu'
      · split at hu'
        · cases hu'
          exact absurd hid' (hother i u id (Ne.symm hki) hu hid)
        · cases hu'
      · exact h.single i j u u' id hu hu' hid hid'
  · intro u hu id hid
    rcases List.mem_iff_getElem?.mp hu with ⟨i, hi⟩
    rw [List.getElem?_set] at hi
    split at hi
    · split at hi
      · cases hi
        exact (hnext id hid).right
      · cases hi
    · rename_i hki
      have hu' : u ∈ tasks := List.mem_of_getElem? hi
      rcases h.allowed u hu' id hid with ⟨hdrawn, hstate⟩
      refine ⟨hchanges.drawn id hdrawn, ?_⟩
      apply PlaybackTask.allows_drifts hstate
      apply hchanges.others
      intro hown
      exact hki (h.single k i t u id hk hi hown hid)

theorem append (h : Owned q tasks) {t : PlaybackTask Id} (ht : t.owned = none) :
    Owned q (tasks ++ [t]) := by
  constructor
  · exact h.sound
  · exact h.known
  · intro i j u u' id hu hu' hid hid'
    have hold : forall (i : Nat) u, (tasks ++ [t])[i]? = some u ->
        u.owned = some id -> tasks[i]? = some u := by
      intro i u hu hid
      rw [List.getElem?_append] at hu
      split at hu
      · exact hu
      · have hmem := List.mem_of_getElem? hu
        rw [List.mem_singleton.mp hmem, ht] at hid
        cases hid
    exact h.single i j u u' id (hold i u hu hid) (hold j u' hu' hid') hid hid'
  · intro u hu id hid
    rcases List.mem_append.mp hu with hold | hnew
    · exact h.allowed u hold id hid
    · rw [List.mem_singleton.mp hnew, ht] at hid
      cases hid

/-- Every step keeps the invariant and moves each job by at most one step. -/
theorem steps {s : PlaybackState Id} (h : Owned s.queue s.tasks)
    {a : PlaybackAction Id} {tasks' : List (PlaybackTask Id)}
    (hstep : s.Steps a q' tasks') :
    Owned q' tasks' ∧
      forall id, JobStep (s.queue.jobs.lookup id) (q'.jobs.lookup id) := by
  cases hstep with
  | arrived =>
      exact ⟨h.append rfl, fun id => JobStep.refl _⟩
  | @resumed k e t t' _ hk hadvance =>
      have hallowed := h.allowed t (List.mem_of_getElem? hk)
      rcases hadvance.changes hallowed h.sound h.known with ⟨hchanges, hnext⟩
      exact ⟨h.set hk hchanges hnext, hchanges.jobs⟩
  | @dropped k t hk =>
      have hchanges : s.queue.Changes
          (if t.holdsSlot then s.queue.release else s.queue) t.owned := by
        split
        · exact s.queue.changes_release _
        · exact s.queue.changes_refl _
      exact ⟨h.set hk hchanges fun _ hid => (nomatch hid), hchanges.jobs⟩
  | pruned now =>
      have hchanges := s.queue.changes_prune h.sound now none
      exact ⟨h.change hchanges, hchanges.jobs⟩
  | polled id now =>
      have hchanges :=
        s.queue.changes_update (Job.poll_id now) (Job.poll_free now) id none
      exact ⟨h.change hchanges, hchanges.jobs⟩
  | cancelled id now =>
      have hchanges :=
        s.queue.changes_update (Job.cancel_id now) (Job.cancel_free now) id none
      exact ⟨h.change hchanges, hchanges.jobs⟩
  | cleared now =>
      have hchanges := s.queue.changes_map (Job.clear_id now) (Job.clear_free now) none
      exact ⟨h.change hchanges, hchanges.jobs⟩

end Owned

theorem new_owned : Owned (PlaybackQueue.new : PlaybackQueue Id) [] :=
  ⟨fun _ _ hj => (nomatch hj), fun _ hsome => absurd rfl hsome,
    fun _ _ _ _ _ hu => (nomatch hu), fun _ ht => (nomatch ht)⟩

theorem owned_of_run {actions : List (PlaybackAction Id)} {s : PlaybackState Id}
    (hrun : (playback Id).run PlaybackState.new actions = some s) :
    Owned s.queue s.tasks :=
  @System.run_invariant _ _ (playback Id) (fun s => Owned s.queue s.tasks)
    (fun _ _ _ h hstep => (h.steps (PlaybackState.steps_of_step hstep)).left)
    _ _ _ new_owned hrun

/-!
## Operations that start and jobs that are withdrawn
-/

/-- What a run notes of jobs: an operation that starts, a job that is cancelled
or expires while it is pending. -/
inductive JobMark (Id : Type) where
  | started (id : Id)
  | withdrawn (id : Id)

instance (state : Option JobState) : Decidable (JobState.unstartable state) :=
  inferInstanceAs (Decidable (_ ∨ _))

namespace PlaybackState

def startedBy (s : PlaybackState Id) : PlaybackAction Id -> List Id
  | .resume k .start =>
      match s.tasks[k]? with
      | some (.worker id .admitted) =>
          if JobState.unstartable (s.queue.stateOf id) then [] else [id]
      | _ => []
  | _ => []

def withdrawnBy (s : PlaybackState Id) (a : PlaybackAction Id) : List Id :=
  match s.step a with
  | none => []
  | some s' =>
      (s.queue.jobs.rows.filter fun j =>
        j.waiting && decide (s'.queue.stateOf j.id = some .cancelled)).map Job.id

def marks (s : PlaybackState Id) (a : PlaybackAction Id) : List (JobMark Id) :=
  (s.startedBy a).map .started ++ (s.withdrawnBy a).map .withdrawn

end PlaybackState

theorem Owned.entered {q : PlaybackQueue Id} {tasks : List (PlaybackTask Id)}
    (h : Owned q tasks) {id : Id} (hsome : q.stateOf id ≠ none) :
    Entered id q tasks := by
  constructor
  · exact h.known id hsome
  · intro t ht createdAt accounts pool heq
    rw [heq] at ht
    exact hsome (h.allowed _ ht id rfl).right

namespace PlaybackQueue

variable {q : PlaybackQueue Id} {id : Id}

theorem update_absent (f : Job Id -> Job Id) (hid : forall j, (f j).id = j.id)
    (id' : Id) (hnone : q.jobs.lookup id = none) :
    (q.jobs.update id' f hid).lookup id = none := by
  rw [Table.lookup_update, hnone]
  split
  · rfl
  · rfl

theorem map_absent (f : Job Id -> Job Id) (hid : forall j, (f j).id = j.id)
    (hnone : q.jobs.lookup id = none) : (q.jobs.mapRows f hid).lookup id = none := by
  rw [Table.lookup_mapRows, hnone]
  rfl

theorem prune_absent (now : Int) (hnone : q.jobs.lookup id = none) :
    (q.prune now).jobs.lookup id = none := by
  unfold prune
  rw [Table.lookup_mapRows, Table.lookup_retain, hnone]
  rfl

end PlaybackQueue

theorem WorkerStage.Advances.absent {q q' : PlaybackQueue Id} {id id' : Id}
    {stage stage' : WorkerStage} (h : stage.Advances q id' stage' q')
    (hnone : q.jobs.lookup id = none) : q'.jobs.lookup id = none := by
  cases h with
  | started _ =>
      exact PlaybackQueue.update_absent Job.start Job.start_id id' hnone
  | @finished out accounts now =>
      exact PlaybackQueue.update_absent (Job.finish out accounts now)
        (Job.finish_id out accounts now) id' hnone
  | _ =>
      exact hnone

/-- An identifier comes into the map by the admission of its own task. -/
theorem PlaybackTask.Advances.admission {q q' : PlaybackQueue Id} {id : Id}
    {t t' : PlaybackTask Id} (h : t.Advances q t' q')
    (hnone : q.jobs.lookup id = none) :
    q'.jobs.lookup id = none ∨
      exists createdAt accounts pool, t = .queueing id createdAt accounts pool ∧
        q' = q.pushTask id createdAt ∧
        PlaybackQueue.overCapacity q.pendingCount pool = false := by
  cases h with
  | swept now =>
      exact Or.inl (q.prune_absent now hnone)
  | @admitted id' createdAt accounts pool hroom =>
      by_cases heq : id = id'
      · subst heq
        exact Or.inr ⟨createdAt, accounts, pool, rfl, rfl, hroom⟩
      · left
        have hne : id ≠ (Job.new id' createdAt).id := heq
        show (q.jobs.put (Job.new id' createdAt)).lookup id = none
        rw [Table.lookup_put, if_neg hne]
        exact hnone
  | worked hstage =>
      exact Or.inl (hstage.absent hnone)
  | _ =>
      exact Or.inl hnone

theorem PlaybackTask.Advances.drawn_mono {q q' : PlaybackQueue Id}
    {t t' : PlaybackTask Id} (h : t.Advances q t' q') (id : Id) (hid : id ∈ q.drawn) :
    id ∈ q'.drawn := by
  cases h with
  | drawn now _ =>
      exact List.mem_cons_of_mem _ hid
  | worked hstage =>
      cases hstage with
      | _ =>
          exact hid
  | _ =>
      exact hid

/-- An identifier that has been drawn is not drawn again. -/
theorem PlaybackTask.Advances.not_queueing {q q' : PlaybackQueue Id} {id : Id}
    {t t' : PlaybackTask Id} (h : t.Advances q t' q') (hdrawn : id ∈ q.drawn)
    (createdAt : Int) (accounts pool : Nat) :
    t' ≠ .queueing id createdAt accounts pool := by
  cases h with
  | drawn now hfresh =>
      intro heq
      cases heq
      exact hfresh hdrawn
  | _ =>
      exact fun heq => nomatch heq

namespace Entered

variable {id : Id}

/-- An identifier that has been admitted is not admitted again. -/
theorem steps {s : PlaybackState Id} (h : Entered id s.queue s.tasks)
    {a : PlaybackAction Id} {q' : PlaybackQueue Id}
    {tasks' : List (PlaybackTask Id)} (hstep : s.Steps a q' tasks') :
    Entered id q' tasks' ∧
      (s.queue.jobs.lookup id = none -> q'.jobs.lookup id = none) := by
  cases hstep with
  | arrived =>
      refine ⟨⟨h.left, ?_⟩, fun hnone => hnone⟩
      intro t ht
      rcases List.mem_append.mp ht with hold | hnew
      · exact h.right t hold
      · rw [List.mem_singleton.mp hnew]
        exact fun _ _ _ heq => nomatch heq
  | @resumed k e t t' _ hk hadvance =>
      constructor
      · exact h.set (hadvance.drawn_mono _ h.left) (hadvance.not_queueing h.left)
      · intro hnone
        rcases hadvance.admission hnone with
          hstill | ⟨createdAt, accounts, pool, heq, _⟩
        · exact hstill
        · exact absurd heq (h.right t (List.mem_of_getElem? hk) createdAt accounts pool)
  | @dropped k t hk =>
      have hsame : (if t.holdsSlot then s.queue.release else s.queue).drawn =
          s.queue.drawn ∧
          (if t.holdsSlot then s.queue.release else s.queue).jobs = s.queue.jobs := by
        split
        · exact ⟨rfl, rfl⟩
        · exact ⟨rfl, rfl⟩
      constructor
      · apply h.set
        · rw [hsame.left]
          exact h.left
        · exact fun _ _ _ heq => nomatch heq
      · rw [hsame.right]
        exact fun hnone => hnone
  | pruned now =>
      exact ⟨h, s.queue.prune_absent now⟩
  | polled id' now =>
      exact ⟨h, s.queue.update_absent (Job.poll now) (Job.poll_id now) id'⟩
  | cancelled id' now =>
      exact ⟨h, s.queue.update_absent (Job.cancel now) (Job.cancel_id now) id'⟩
  | cleared now =>
      exact ⟨h, s.queue.map_absent (Job.clear now) (Job.clear_id now)⟩

end Entered

/-!
## What is withdrawn is not started
-/

/-- An operation that has started is not of a pending job, one that has been
withdrawn is of a cancelled job or of one that is gone. -/
structure Apart (s : PlaybackState Id) (log : List (JobMark Id)) : Prop where
  owned : Owned s.queue s.tasks
  started : forall id, .started id ∈ log ->
    Entered id s.queue s.tasks ∧ s.queue.stateOf id ≠ some .pending
  withdrawn : forall id, .withdrawn id ∈ log ->
    Entered id s.queue s.tasks ∧ JobState.unstartable (s.queue.stateOf id)
  apart : forall id, .withdrawn id ∈ log -> .started id ∉ log

theorem mem_startedBy {s s' : PlaybackState Id} {a : PlaybackAction Id} {id : Id}
    (howned : Owned s.queue s.tasks) (hstep : (playback Id).step s a = some s')
    (h : id ∈ s.startedBy a) :
    s.queue.stateOf id = some .pending ∧ s'.queue.stateOf id = some .processing := by
  unfold PlaybackState.startedBy at h
  split at h
  · rename_i k
    split at h
    · rename_i id' hk
      split at h
      · cases h
      · rename_i hnot
        have heq : id = id' := List.mem_singleton.mp h
        subst heq
        have hallowed := (howned.allowed _ (List.mem_of_getElem? hk) id rfl).right
        have hpending := JobState.pending_of_unstarted hallowed hnot
        refine ⟨hpending, ?_⟩
        simp only [playback, PlaybackState.step, hk, PlaybackTask.advance,
          WorkerStage.advance, hpending] at hstep
        cases hstep
        show (s.queue.start id).stateOf id = _
        rcases Option.map_eq_some_iff.mp hpending with ⟨j, hj, _⟩
        unfold PlaybackQueue.start
        rw [PlaybackQueue.stateOf_update, hj]
        rfl
    · cases h
  · cases h

theorem mem_withdrawnBy {s s' : PlaybackState Id} {a : PlaybackAction Id} {id : Id}
    (hstep : (playback Id).step s a = some s') (h : id ∈ s.withdrawnBy a) :
    s.queue.stateOf id = some .pending ∧ s'.queue.stateOf id = some .cancelled := by
  have hstep' : s.step a = some s' := hstep
  unfold PlaybackState.withdrawnBy at h
  rw [hstep'] at h
  rcases List.mem_map.mp h with ⟨j, hj, hid⟩
  rcases List.mem_filter.mp hj with ⟨hmem, hboth⟩
  rw [Bool.and_eq_true, decide_eq_true_eq] at hboth
  have hlookup : s.queue.jobs.lookup id = some j := Table.lookup_eq_some.mpr ⟨hmem, hid⟩
  constructor
  · rw [PlaybackQueue.state_of_lookup hlookup]
    exact congrArg some (of_decide_eq_true hboth.left)
  · rw [<- hid]
    exact hboth.right

theorem Apart.step {s s' : PlaybackState Id} {log : List (JobMark Id)}
    (h : Apart s log) {a : PlaybackAction Id}
    (hstep : (playback Id).step s a = some s') : Apart s' (log ++ s.marks a) := by
  have hsteps := PlaybackState.steps_of_step hstep
  rcases h.owned.steps hsteps with ⟨howned, hjobs⟩
  have hstarted : forall id, .started id ∈ s.marks a ->
      s.queue.stateOf id = some .pending ∧ s'.queue.stateOf id = some .processing := by
    intro id hmem
    rcases List.mem_append.mp hmem with hleft | hright
    · rcases List.mem_map.mp hleft with ⟨id', hid', heq⟩
      cases heq
      exact mem_startedBy h.owned hstep hid'
    · rcases List.mem_map.mp hright with ⟨id', _, heq⟩
      cases heq
  have hwithdrawn : forall id, .withdrawn id ∈ s.marks a ->
      s.queue.stateOf id = some .pending ∧ s'.queue.stateOf id = some .cancelled := by
    intro id hmem
    rcases List.mem_append.mp hmem with hleft | hright
    · rcases List.mem_map.mp hleft with ⟨id', _, heq⟩
      cases heq
    · rcases List.mem_map.mp hright with ⟨id', hid', heq⟩
      cases heq
      exact mem_withdrawnBy hstep hid'
  have hentered : forall id, s.queue.stateOf id = some .pending ->
      Entered id s'.queue s'.tasks := by
    intro id hpending
    have hsome : s.queue.stateOf id ≠ none := by
      rw [hpending]
      exact fun heq => nomatch heq
    exact ((h.owned.entered hsome).steps hsteps).left
  constructor
  · exact howned
  · intro id hmem
    rcases List.mem_append.mp hmem with hold | hnew
    · rcases h.started id hold with ⟨hin, hstate⟩
      rcases hin.steps hsteps with ⟨hin', habsent⟩
      exact ⟨hin', (hjobs id).not_pending hstate habsent⟩
    · rcases hstarted id hnew with ⟨hpending, hprocessing⟩
      refine ⟨hentered id hpending, ?_⟩
      rw [hprocessing]
      exact fun heq => nomatch heq
  · intro id hmem
    rcases List.mem_append.mp hmem with hold | hnew
    · rcases h.withdrawn id hold with ⟨hin, hstate⟩
      rcases hin.steps hsteps with ⟨hin', habsent⟩
      exact ⟨hin', (hjobs id).unstartable hstate habsent⟩
    · rcases hwithdrawn id hnew with ⟨hpending, hcancelled⟩
      exact ⟨hentered id hpending, Or.inr hcancelled⟩
  · intro id hgone hstart
    rcases List.mem_append.mp hgone with holdGone | hnewGone
    · rcases List.mem_append.mp hstart with holdStart | hnewStart
      · exact h.apart id holdGone holdStart
      · have hstate := (h.withdrawn id holdGone).right
        rw [(hstarted id hnewStart).left] at hstate
        rcases hstate with hnone | hcancelled
        · cases hnone
        · cases hcancelled
    · rcases hwithdrawn id hnewGone with ⟨hpending, hcancelled⟩
      rcases List.mem_append.mp hstart with holdStart | hnewStart
      · exact (h.started id holdStart).right hpending
      · rw [(hstarted id hnewStart).right] at hcancelled
        cases hcancelled

/-!
## Every run
-/

/-- One request in the only slot, a second one whose client cancels it while its
worker waits. -/
def cancelledWhileWaiting : List (PlaybackAction Nat) :=
  [.arrive, .resume 0 (.prune 100), .resume 0 (.measure 1 1), .resume 0 (.load 0),
    .resume 0 .swap, .arrive, .resume 1 (.prune 100), .resume 1 (.measure 1 1),
    .resume 1 (.load 1), .resume 1 (.draw 7 100), .resume 1 .enqueue,
    .resume 1 (.spawn (Table.Iteration.inOrder _) 1), .resume 1 .check,
    .resume 1 (.measure 1 1), .resume 1 (.load 1), .cancel 7 105, .resume 1 .wake,
    .resume 1 .check]

end HifiApi
