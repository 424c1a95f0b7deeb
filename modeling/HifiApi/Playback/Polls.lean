import HifiApi.Playback.Requests

/-!
# Polls over whole runs

Polls of an identifier stand for the answer of the request that was told it: they
answer what its own operation came to, and go on to answer it until a sweep finds
the job too old.
-/

namespace HifiApi

variable {Id : Type}

/-!
## Jobs at their end
-/

/-- Jobs that answer alike. -/
def Job.Same (j j' : Job Id) : Prop :=
  j' = { j with lastPolledAt := j'.lastPolledAt, accounts := j'.accounts }

namespace Job

variable {j : Job Id}

theorem Same.refl (j : Job Id) : j.Same j := rfl

theorem Same.trans {j' j'' : Job Id} (h : j.Same j') (h' : j'.Same j'') : j.Same j'' := by
  unfold Same at *
  rw [h', h]

theorem Same.id {j' : Job Id} (h : j.Same j') : j'.id = j.id := by
  rw [h]

theorem Same.state {j' : Job Id} (h : j.Same j') : j'.state = j.state := by
  rw [h]

theorem Same.finishedAt {j' : Job Id} (h : j.Same j') : j'.finishedAt = j.finishedAt := by
  rw [h]

theorem not_open_of_terminal (h : j.state.terminal = true) :
    ¬ (j.state = .pending ∨ j.state = .processing) := by
  rintro (hstate | hstate)
  · rw [hstate] at h
    cases h
  · rw [hstate] at h
    cases h

theorem poll_terminal (now : Int) (h : j.state.terminal = true) : j.poll now = j :=
  if_neg (not_open_of_terminal h)

theorem cancel_terminal (now : Int) (h : j.state.terminal = true) : j.cancel now = j :=
  if_neg (not_open_of_terminal h)

theorem clear_terminal (now : Int) (h : j.state.terminal = true) : j.clear now = j :=
  if_neg (not_open_of_terminal h)

theorem expire_terminal (now : Int) (h : j.state.terminal = true) : j.expire now = j :=
  if_neg fun hpending => not_open_of_terminal h (Or.inl hpending.left)

/-- A poll reads nothing of a job at its end that others write. -/
theorem Same.response {j' : Job Id} (h : j.Same j') (hterminal : j.state.terminal = true)
    (id : String) (position position' pool active : Nat) :
    PlaybackQueue.jobResponse id position' pool active j' =
      PlaybackQueue.jobResponse id position pool active j := by
  rw [h]
  unfold PlaybackQueue.jobResponse
  cases hstate : j.state with
  | pending =>
      rw [hstate] at hterminal
      cases hterminal
  | _ =>
      rfl

end Job

variable [DecidableEq Id]

/-!
## Jobs that are kept
-/

/-- The clock of a sweep of the jobs. -/
def PlaybackAction.sweep : PlaybackAction Id -> List Int
  | prune now => [now]
  | resume _ (.prune now) => [now]
  | _ => []

namespace PlaybackQueue

/-- A job at its end is kept as it is, until a sweep finds it too old. -/
def Keeps (q : PlaybackQueue Id) (j : Job Id) (sweeps : List Int) : Prop :=
  (exists j', q.jobs.lookup j.id = some j' ∧ j.Same j') ∨
    (q.jobs.lookup j.id = none ∧ exists now finished, now ∈ sweeps ∧
      j.finishedAt = some finished ∧ finished < now - jobTtlSecs)

variable {q : PlaybackQueue Id} {j : Job Id}

theorem keeps_self (h : q.jobs.lookup j.id = some j) (sweeps : List Int) :
    q.Keeps j sweeps :=
  Or.inl ⟨j, h, Job.Same.refl j⟩

theorem keeps_update (h : q.jobs.lookup j.id = some j) {f : Job Id -> Job Id}
    (hid : forall j, (f j).id = j.id) (own : Id) (hf : own = j.id -> j.Same (f j))
    (sweeps : List Int) : Keeps { q with jobs := q.jobs.update own f hid } j sweeps := by
  left
  show exists j', (q.jobs.update own f hid).lookup j.id = some j' ∧ j.Same j'
  rw [Table.lookup_update, h]
  split
  · rename_i heq
    exact ⟨f j, rfl, hf heq.symm⟩
  · exact ⟨j, rfl, Job.Same.refl j⟩

theorem keeps_prune (h : q.jobs.lookup j.id = some j) (hterminal : j.state.terminal = true)
    (hsound : j.Sound) (now : Int) : (q.prune now).Keeps j [now] := by
  have hlookup : (q.prune now).jobs.lookup j.id =
      (if j.finishedAt.elim true fun finished => decide (now - jobTtlSecs ≤ finished) then
        some j else none).map (Job.expire now) := by
    unfold prune
    rw [Table.lookup_mapRows, Table.lookup_retain, h, Option.filter_some]
  unfold Keeps
  rw [hlookup]
  split
  · left
    refine ⟨j, ?_, Job.Same.refl j⟩
    exact congrArg some (Job.expire_terminal now hterminal)
  · rename_i hold
    right
    have hfinished : j.finishedAt.isSome = true := by
      rw [hsound.finishedAt]
      exact hterminal
    rcases Option.isSome_iff_exists.mp hfinished with ⟨finished, heq⟩
    refine ⟨rfl, now, finished, List.mem_singleton_self now, heq, ?_⟩
    rw [heq] at hold
    have hlate : ¬ now - jobTtlSecs ≤ finished := fun hle => hold (decide_eq_true hle)
    omega

theorem keeps_clear (h : q.jobs.lookup j.id = some j) (hterminal : j.state.terminal = true)
    (now : Int) (sweeps : List Int) : (q.clear now).Keeps j sweeps := by
  left
  refine ⟨j, ?_, Job.Same.refl j⟩
  unfold clear
  rw [Table.lookup_mapRows, h]
  exact congrArg some (Job.clear_terminal now hterminal)

theorem keeps_pushTask (h : q.jobs.lookup j.id = some j) {own : Id} (hne : j.id ≠ own)
    (now : Int) (sweeps : List Int) : (q.pushTask own now).Keeps j sweeps := by
  left
  refine ⟨j, ?_, Job.Same.refl j⟩
  have hput : (q.pushTask own now).jobs.lookup j.id =
      if j.id = own then some (Job.new own now) else q.jobs.lookup j.id :=
    Table.lookup_put q.jobs (Job.new own now) j.id
  rw [hput, if_neg hne]
  exact h

end PlaybackQueue

/-- The worker of a job at its end has nothing to write but its accounts. -/
theorem WorkerStage.Advances.keeps {q q' : PlaybackQueue Id} {id : Id}
    {stage stage' : WorkerStage} {j : Job Id} (h : stage.Advances q id stage' q')
    (hallowed : stage.allows (q.stateOf id)) (hj : q.jobs.lookup j.id = some j)
    (hterminal : j.state.terminal = true) (sweeps : List Int) : q'.Keeps j sweeps := by
  have hstate := PlaybackQueue.state_of_lookup hj
  cases h with
  | started hnot =>
      refine PlaybackQueue.keeps_update hj Job.start_id id ?_ sweeps
      intro heq
      subst heq
      have hpending := JobState.pending_of_unstarted hallowed hnot
      rw [hstate] at hpending
      exact absurd (Or.inl (Option.some.inj hpending)) (Job.not_open_of_terminal hterminal)
  | @finished out accounts now =>
      refine PlaybackQueue.keeps_update hj (Job.finish_id out accounts now) id ?_ sweeps
      intro heq
      subst heq
      have hunder : JobState.underWay (some j.state) := by
        rw [<- hstate]
        exact hallowed
      rcases hunder with hnone | hprocessing | hcancelled
      · cases hnone
      · exact absurd (Or.inr (Option.some.inj hprocessing))
          (Job.not_open_of_terminal hterminal)
      · unfold Job.finish
        rw [if_pos (Option.some.inj hcancelled)]
        rfl
  | _ =>
      exact PlaybackQueue.keeps_self hj sweeps

theorem PlaybackTask.Advances.keeps {q q' : PlaybackQueue Id}
    {tasks : List (PlaybackTask Id)} {t t' : PlaybackTask Id} {j : Job Id}
    (h : t.Advances q t' q') (ht : t ∈ tasks) (howned : Owned q tasks)
    (hj : q.jobs.lookup j.id = some j) (hterminal : j.state.terminal = true)
    (hwaits : t ≠ .arrived) (sweeps : List Int) : q'.Keeps j sweeps := by
  cases h with
  | swept now =>
      exact absurd rfl hwaits
  | @admitted id createdAt accounts pool _ =>
      refine PlaybackQueue.keeps_pushTask hj ?_ createdAt sweeps
      intro heq
      have hnone : q.stateOf id = none := (howned.allowed _ ht id rfl).right
      rw [<- heq, PlaybackQueue.state_of_lookup hj] at hnone
      cases hnone
  | @worked id stage stage' _ hstage =>
      exact hstage.keeps (howned.allowed _ ht id rfl).right hj hterminal sweeps
  | _ =>
      exact PlaybackQueue.keeps_self hj sweeps

/-- After a cancellation the polls of a job have their last answer. -/
theorem PlaybackQueue.cancel_concluded (q : PlaybackQueue Id) (id : Id) (now : Int) :
    JobState.concluded ((q.cancel id now).stateOf id) := by
  unfold PlaybackQueue.cancel
  rw [PlaybackQueue.stateOf_update]
  intro state hstate
  cases hj : q.jobs.lookup id with
  | none =>
      rw [hj] at hstate
      cases hstate
  | some j =>
      rw [hj] at hstate
      cases hstate
      unfold Job.cancel
      cases hcase : j.state with
      | _ =>
          simp [hcase, JobState.terminal]

theorem Owned.keeps {s s' : PlaybackState Id} (h : Owned s.queue s.tasks)
    {a : PlaybackAction Id} (hstep : (playback Id).step s a = some s') {j : Job Id}
    (hj : s.queue.jobs.lookup j.id = some j) (hterminal : j.state.terminal = true) :
    s'.queue.Keeps j a.sweep := by
  cases a with
  | arrive =>
      cases hstep
      exact PlaybackQueue.keeps_self hj _
  | resume k e =>
      simp only [playback, PlaybackState.step] at hstep
      cases hk : s.tasks[k]? with
      | none =>
          rw [hk] at hstep
          cases hstep
      | some t =>
          rw [hk] at hstep
          rcases Option.map_eq_some_iff.mp hstep with ⟨⟨q, t', replies⟩, hadvance, heq⟩
          cases heq
          by_cases hwaits : t = .arrived
          · subst hwaits
            cases e with
            | prune now =>
                cases hadvance
                exact PlaybackQueue.keeps_prune hj hterminal (h.sound j.id j hj) now
            | _ =>
                cases hadvance
          · exact (PlaybackTask.advances_of_advance hadvance).keeps
              (List.mem_of_getElem? hk) h hj hterminal hwaits _
  | drop k =>
      simp only [playback, PlaybackState.step] at hstep
      split at hstep
      · cases hstep
      · rename_i t ht
        cases hstep
        show PlaybackQueue.Keeps (if t.holdsSlot then s.queue.release else s.queue) j _
        split
        · exact PlaybackQueue.keeps_self hj _
        · exact PlaybackQueue.keeps_self hj _
  | prune now =>
      cases hstep
      exact PlaybackQueue.keeps_prune hj hterminal (h.sound j.id j hj) now
  | poll id now =>
      cases hstep
      refine PlaybackQueue.keeps_update hj (Job.poll_id now) id ?_ _
      intro _
      rw [Job.poll_terminal now hterminal]
      exact Job.Same.refl j
  | cancel id now =>
      cases hstep
      refine PlaybackQueue.keeps_update hj (Job.cancel_id now) id ?_ _
      intro _
      rw [Job.cancel_terminal now hterminal]
      exact Job.Same.refl j
  | clear now =>
      cases hstep
      exact PlaybackQueue.keeps_clear hj hterminal now _

theorem keeps_of_run {actions : List (PlaybackAction Id)} {s s' : PlaybackState Id}
    {j : Job Id} (howned : Owned s.queue s.tasks) (hentered : Entered j.id s.queue s.tasks)
    (hj : s.queue.jobs.lookup j.id = some j) (hterminal : j.state.terminal = true)
    (hrun : (playback Id).run s actions = some s') :
    s'.queue.Keeps j ((playback Id).history (fun _ a => a.sweep) s actions) := by
  have hend : (Owned s'.queue s'.tasks ∧ Entered j.id s'.queue s'.tasks ∧
      s'.queue.Keeps j ([] ++ (playback Id).history (fun _ a => a.sweep) s actions)) := by
    refine System.run_history_invariant (P := fun _ _ => True)
      (I := fun s sweeps => Owned s.queue s.tasks ∧ Entered j.id s.queue s.tasks ∧
        s.queue.Keeps j sweeps) ?_
      ⟨howned, hentered, PlaybackQueue.keeps_self hj []⟩
      (System.along_of_forall_mem fun _ _ => trivial) hrun
    rintro s a s' sweeps ⟨hown, hin, hkeeps⟩ _ hstep
    have hsteps := PlaybackState.steps_of_step hstep
    rcases hin.steps hsteps with ⟨hin', habsent⟩
    refine ⟨(hown.steps hsteps).left, hin', ?_⟩
    rcases hkeeps with ⟨j', hj', hsame⟩ | ⟨hnone, now, finished, hmem, hfinished, hold⟩
    · have hid := hsame.id
      rw [<- hid] at hj'
      have hnext := hown.keeps hstep hj' (by rw [hsame.state]; exact hterminal)
      rcases hnext with ⟨j'', hj'', hsame'⟩ | ⟨hnone, now, finished, hmem, hfinished, hold⟩
      · rw [hid] at hj''
        exact Or.inl ⟨j'', hj'', hsame.trans hsame'⟩
      · rw [hid] at hnone
        rw [hsame.finishedAt] at hfinished
        exact Or.inr ⟨hnone, now, finished, List.mem_append_right _ hmem, hfinished, hold⟩
    · exact Or.inr ⟨habsent hnone, now, finished, List.mem_append_left _ hmem,
        hfinished, hold⟩
  rw [List.nil_append] at hend
  exact hend.right.right

/-!
## Polls over whole runs
-/

/-- What a poll may answer to the request of a task: that it waits or is gone, or
what its own operation came to, as the request would have been answered at once. -/
inductive Polled (render : Id -> String) (log : List (RequestMark Id)) (k : Nat) (id : Id)
    (pool active : Nat) : Response -> Prop
  | missing : Polled render log k id pool active PlaybackQueue.notFoundResponse
  | waiting (position : Nat) : Polled render log k id pool active
      (PlaybackQueue.pendingResponse (render id) position pool active)
  | withdrawn : Polled render log k id pool active
      (Response.json 410 ((PlaybackQueue.payload (render id) "cancelled" 0 pool active).insert
        "detail" (.string "Playback request was cancelled")))
  | served {out : JobOutcome} : out.failure = none -> .cameTo k id out ∈ log ->
      Polled render log k id pool active
        ((PlaybackReply.ofOutcome out : PlaybackReply Id).response render)
  | refused {out : JobOutcome} {e : AppError} {r : Response} : out.failure = some e ->
      .cameTo k id out ∈ log -> r.Repeats e -> Polled render log k id pool active r

theorem Reported.polled {s : PlaybackState Id} {log : List (RequestMark Id)}
    (h : Reported s log) {k : Nat} {id : Id} (hmem : .told k id ∈ log)
    (render : Id -> String) (later : PlaybackQueue Id) (order : Table.Iteration (Job Id))
    (pool active : Nat) :
    Polled render log k id pool active
      (s.queue.getPlaybackRequest render later order pool active id) := by
  have hsole : forall {k' out}, .cameTo k' id out ∈ log -> .cameTo k id out ∈ log := by
    intro k' out hcame
    rw [h.told.sole k k' id hmem (h.told.cameTo k' id out hcame).left]
    exact hcame
  unfold PlaybackQueue.getPlaybackRequest
  cases hj : s.queue.jobs.lookup id with
  | none =>
      exact Polled.missing
  | some j =>
      have hid := Table.key_of_lookup hj
      cases h.tells id j hj with
      | live hstate _ =>
          simp only [PlaybackQueue.jobResponse]
          cases hcase : j.state with
          | pending =>
              exact Polled.waiting _
          | processing =>
              exact Polled.waiting 0
          | _ =>
              rw [hcase] at hstate
              cases hstate
      | withdrawn hstate =>
          simp only [PlaybackQueue.jobResponse, hstate]
          exact Polled.withdrawn
      | @completed k' answer hstate hresult hcame =>
          rw [hid] at hcame
          simp only [PlaybackQueue.jobResponse, hstate, hresult, Option.getD_some]
          exact Polled.served rfl (hsole hcame)
      | failed hstate hfailure hfails hcame =>
          rw [hid] at hcame
          exact Polled.refused hfailure (hsole hcame) (hfails.response _ _ _ _ hstate)

/-- In every run a request that is told an identifier is the only one told it, its
operation comes to one outcome at most, and a poll of the identifier answers with
that outcome as the request itself would have been answered: the same response for
a result, the same status and detail for an error.  Once a poll has answered for
good, later ones answer the same, or not at all after a sweep more than the time to
live past the end. -/
theorem polled_answers {actions more : List (PlaybackAction Id)} {s s' : PlaybackState Id}
    (hrun : (playback Id).run PlaybackState.new actions = some s)
    (hmore : (playback Id).run s more = some s') {k : Nat} {id : Id}
    (htold : .told k id ∈ (playback Id).history PlaybackState.requestMarks .new actions)
    (render : Id -> String) (later later' : PlaybackQueue Id)
    (order order' : Table.Iteration (Job Id)) (pool active : Nat) :
    (forall k',
      .told k' id ∈ (playback Id).history PlaybackState.requestMarks .new actions ->
        k' = k) ∧
    (forall out out',
      .cameTo k id out ∈ (playback Id).history PlaybackState.requestMarks .new actions ->
      .cameTo k id out' ∈ (playback Id).history PlaybackState.requestMarks .new actions ->
        out = out') ∧
    Polled render ((playback Id).history PlaybackState.requestMarks .new actions) k id
      pool active (s.queue.getPlaybackRequest render later order pool active id) ∧
    (JobState.concluded (s.queue.stateOf id) ->
      s'.queue.getPlaybackRequest render later' order' pool active id =
        s.queue.getPlaybackRequest render later order pool active id ∨
      (s'.queue.jobs.lookup id = none ∧ exists j now finished,
        s.queue.jobs.lookup id = some j ∧ j.finishedAt = some finished ∧
        now ∈ (playback Id).history (fun _ a => a.sweep) s more ∧
        finished < now - jobTtlSecs)) := by
  have hreported := reported_of_run hrun
  have hentered := hreported.told.entered htold
  refine ⟨fun k' hk' => hreported.told.sole k' k id hk' htold,
    fun out out' => hreported.told.outcome k id out out',
    hreported.polled htold render later order pool active, ?_⟩
  intro hconcluded
  cases hj : s.queue.jobs.lookup id with
  | none =>
      left
      have hgone : s'.queue.jobs.lookup id = none := by
        have hboth : Entered id s'.queue s'.tasks ∧ s'.queue.jobs.lookup id = none := by
          refine @System.run_invariant _ _ (playback Id)
            (fun s => Entered id s.queue s.tasks ∧ s.queue.jobs.lookup id = none)
            ?_ _ _ _ ⟨hentered, hj⟩ hmore
          intro s a s' h hstep
          rcases h.left.steps (PlaybackState.steps_of_step hstep) with ⟨hin, habsent⟩
          exact ⟨hin, habsent h.right⟩
        exact hboth.right
      unfold PlaybackQueue.getPlaybackRequest
      rw [hgone, hj]
  | some j =>
      have hid := Table.key_of_lookup hj
      subst hid
      have hterminal : j.state.terminal = true :=
        hconcluded j.state (PlaybackQueue.state_of_lookup hj)
      rcases keeps_of_run hreported.owned hentered hj hterminal hmore with
        ⟨j', hj', hsame⟩ | ⟨hnone, now, finished, hsweep, hfinished, hold⟩
      · left
        unfold PlaybackQueue.getPlaybackRequest
        rw [hj, hj']
        exact hsame.response hterminal _ _ _ _ _
      · exact Or.inr ⟨hnone, j, now, finished, rfl, hfinished, hsweep, hold⟩

/-- A second request waits for the only slot; its operation is told to come back in
30 seconds, and so is its client. -/
def refusedAfterWaiting : List (PlaybackAction Nat) :=
  [.arrive, .resume 0 (.prune 100), .resume 0 (.measure 1 1), .resume 0 (.load 0),
    .resume 0 .swap, .arrive, .resume 1 (.prune 100), .resume 1 (.measure 1 1),
    .resume 1 (.load 1), .resume 1 (.draw 7 100), .resume 1 .enqueue,
    .resume 1 (.spawn (Table.Iteration.inOrder _) 1), .resume 0 (.outcome .elapsed []),
    .resume 0 .leave, .resume 1 .check, .resume 1 (.measure 1 1), .resume 1 (.load 0),
    .resume 1 .swap, .resume 1 .start,
    .resume 1 (.outcome (.refused (.rateLimited 30)) []), .resume 1 (.finish 110)]

theorem polled_answers_refused :
    exists s, (playback Nat).run PlaybackState.new refusedAfterWaiting = some s ∧
      Polled toString [.told 1 7, .cameTo 1 7 (.refused (.rateLimited 30))] 1 7 1 0
        (s.queue.getPlaybackRequest toString .new (Table.Iteration.inOrder _) 1 0 7) := by
  refine ⟨_, rfl, ?_⟩
  have hpolled := @polled_answers Nat _ refusedAfterWaiting [] _ _ rfl rfl 1 7
    (List.mem_cons_self ..) toString .new .new (Table.Iteration.inOrder _)
    (Table.Iteration.inOrder _) 1 0
  exact hpolled.right.right.left

end HifiApi
