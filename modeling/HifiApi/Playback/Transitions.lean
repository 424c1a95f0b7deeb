import HifiApi.Playback.Queue

/-!
# Transitions of the playback queue

What the step of a task can do, one constructor for each section of the code
and each branch in it, and what a step of the whole system can do.
-/

namespace HifiApi

variable {Id : Type} [DecidableEq Id]

/-- No job of this state is left to start. -/
def JobState.unstartable (state : Option JobState) : Prop :=
  state = none ∨ state = some .cancelled

namespace WorkerStage

inductive Advances (q : PlaybackQueue Id) (id : Id) :
    WorkerStage -> WorkerStage -> PlaybackQueue Id -> Prop
  | ended : JobState.unstartable (q.stateOf id) -> Advances q id checking returned q
  | goesOn : ¬ JobState.unstartable (q.stateOf id) ->
      Advances q id checking measuring q
  | measured (pool : Nat) : Advances q id measuring (claiming pool none) q
  | loaded {pool : Nat} {current : Option (Fin (max pool 1))}
      (seen : Fin (max pool 1)) :
      Advances q id (claiming pool current) (claiming pool (some seen)) q
  | full {pool : Nat} {current : Option (Fin (max pool 1))} :
      Advances q id (claiming pool current) sleeping q
  | claimed {pool : Nat} {current : Fin (max pool 1)} : q.inflight = current ->
      Advances q id (claiming pool (some current)) admitted
        { q with inflight := current + 1 }
  | woken : Advances q id sleeping checking q
  | late : JobState.unstartable (q.stateOf id) -> Advances q id admitted leaving q
  | started : ¬ JobState.unstartable (q.stateOf id) ->
      Advances q id admitted running (q.start id)
  | cameTo (out : JobOutcome) (accounts : List LoggedAccount) :
      Advances q id running (finishing out accounts) q
  | finished {out : JobOutcome} {accounts : List LoggedAccount} (now : Int) :
      Advances q id (finishing out accounts) leaving (q.finish id out accounts now)
  | left : Advances q id leaving returned q.release

theorem unstartable_of_match {state : Option JobState} {A : Type} {x y z : A}
    (h : (match state with
      | none => x
      | some .cancelled => x
      | some _ => y) = z) :
    (JobState.unstartable state ∧ x = z) ∨ (¬ JobState.unstartable state ∧ y = z) := by
  unfold JobState.unstartable
  rcases state with _ | ⟨_ | _ | _ | _ | _⟩
  · exact Or.inl ⟨Or.inl rfl, h⟩
  · exact Or.inr ⟨by simp, h⟩
  · exact Or.inr ⟨by simp, h⟩
  · exact Or.inr ⟨by simp, h⟩
  · exact Or.inr ⟨by simp, h⟩
  · exact Or.inl ⟨Or.inr rfl, h⟩

theorem advances_of_advance {q q' : PlaybackQueue Id} {id : Id}
    {stage stage' : WorkerStage} {e : PlaybackEvent Id}
    (h : stage.advance q id e = some (q', stage')) :
    Advances q id stage stage' q' := by
  unfold advance at h
  split at h
  · rcases unstartable_of_match h with ⟨hstate, heq⟩ | ⟨hstate, heq⟩
    · cases heq
      exact Advances.ended hstate
    · cases heq
      exact Advances.goesOn hstate
  · cases h
    exact Advances.measured _
  · split at h
    · cases h
      exact Advances.loaded _
    · cases h
      exact Advances.full
  · split at h
    · rename_i hsame
      cases h
      exact Advances.claimed hsame
    · cases h
  · cases h
    exact Advances.woken
  · rcases unstartable_of_match h with ⟨hstate, heq⟩ | ⟨hstate, heq⟩
    · cases heq
      exact Advances.late hstate
    · cases heq
      exact Advances.started hstate
  · cases h
    exact Advances.cameTo _ _
  · cases h
    exact Advances.finished _
  · cases h
    exact Advances.left
  · cases h

end WorkerStage

namespace PlaybackTask

inductive Advances (q : PlaybackQueue Id) :
    PlaybackTask Id -> PlaybackTask Id -> PlaybackQueue Id -> Prop
  | swept (now : Int) : Advances q arrived pruned (q.prune now)
  | hit : Advances q pruned answered q
  | measured (accounts pool : Nat) :
      Advances q pruned (claiming accounts pool none) q
  | loaded {accounts pool : Nat} {current : Option (Fin (max pool 1))}
      (seen : Fin (max pool 1)) :
      Advances q (claiming accounts pool current) (claiming accounts pool (some seen)) q
  | full {accounts pool : Nat} {current : Option (Fin (max pool 1))} :
      Advances q (claiming accounts pool current) (refused accounts pool) q
  | claimed {accounts pool : Nat} {current : Fin (max pool 1)} :
      q.inflight = current ->
      Advances q (claiming accounts pool (some current)) serving
        { q with inflight := current + 1 }
  | cameTo (out : JobOutcome) : Advances q serving (served out) q
  | left {out : JobOutcome} : Advances q (served out) answered q.release
  | drawn {accounts pool : Nat} {id : Id} (now : Int) : id ∉ q.drawn ->
      Advances q (refused accounts pool) (queueing id now accounts pool)
        { q with drawn := id :: q.drawn }
  | shed {id : Id} {createdAt : Int} {accounts pool : Nat} :
      PlaybackQueue.overCapacity q.pendingCount pool = true ->
      Advances q (queueing id createdAt accounts pool) answered q
  | admitted {id : Id} {createdAt : Int} {accounts pool : Nat} :
      PlaybackQueue.overCapacity q.pendingCount pool = false ->
      Advances q (queueing id createdAt accounts pool) (enqueued id accounts)
        (q.pushTask id createdAt)
  | spawned {id : Id} {accounts : Nat} :
      Advances q (enqueued id accounts) (worker id .checking) q
  | worked {id : Id} {stage stage' : WorkerStage} {q' : PlaybackQueue Id} :
      stage.Advances q id stage' q' ->
      Advances q (worker id stage) (worker id stage') q'

theorem advances_of_advance {q q' : PlaybackQueue Id} {t t' : PlaybackTask Id}
    {e : PlaybackEvent Id} {replies : List (PlaybackReply Id)}
    (h : t.advance q e = some (q', t', replies)) : Advances q t t' q' := by
  unfold advance at h
  split at h
  · cases h
    exact Advances.swept _
  · cases h
    exact Advances.hit
  · cases h
    exact Advances.measured _ _
  · split at h
    · cases h
      exact Advances.loaded _
    · cases h
      exact Advances.full
  · split at h
    · rename_i hsame
      cases h
      exact Advances.claimed hsame
    · cases h
  · cases h
    exact Advances.cameTo _
  · cases h
    exact Advances.left
  · split at h
    · cases h
    · rename_i hfresh
      cases h
      exact Advances.drawn _ hfresh
  · split at h
    · rename_i hfull
      cases h
      exact Advances.shed hfull
    · rename_i hroom
      cases h
      exact Advances.admitted (Bool.not_eq_true _ ▸ hroom)
  · cases h
    exact Advances.spawned
  · rcases Option.map_eq_some_iff.mp h with ⟨⟨q'', stage''⟩, hstage, heq⟩
    cases heq
    exact Advances.worked (WorkerStage.advances_of_advance hstage)
  · cases h

end PlaybackTask

namespace PlaybackState

/-- What an action does to the queue and to the tasks. -/
inductive Steps (s : PlaybackState Id) :
    PlaybackAction Id -> PlaybackQueue Id -> List (PlaybackTask Id) -> Prop
  | arrived : Steps s .arrive s.queue (s.tasks ++ [PlaybackTask.arrived])
  | resumed {k : Nat} {e : PlaybackEvent Id} {t t' : PlaybackTask Id}
      {q : PlaybackQueue Id} : s.tasks[k]? = some t -> t.Advances s.queue t' q ->
      Steps s (.resume k e) q (s.tasks.set k t')
  | dropped {k : Nat} {t : PlaybackTask Id} : s.tasks[k]? = some t ->
      Steps s (.drop k) (if t.holdsSlot then s.queue.release else s.queue)
        (s.tasks.set k .dropped)
  | pruned (now : Int) : Steps s (.prune now) (s.queue.prune now) s.tasks
  | polled (id : Id) (now : Int) : Steps s (.poll id now) (s.queue.poll id now) s.tasks
  | cancelled (id : Id) (now : Int) :
      Steps s (.cancel id now) (s.queue.cancel id now) s.tasks
  | cleared (now : Int) : Steps s (.clear now) (s.queue.clear now) s.tasks

theorem steps_of_step {s s' : PlaybackState Id} {a : PlaybackAction Id}
    (h : (playback Id).step s a = some s') : Steps s a s'.queue s'.tasks := by
  cases a with
  | arrive =>
      cases h
      exact Steps.arrived
  | resume k e =>
      simp only [playback, step] at h
      split at h
      · cases h
      · rename_i t ht
        rcases Option.map_eq_some_iff.mp h with ⟨⟨q, t', replies⟩, hadvance, heq⟩
        cases heq
        exact Steps.resumed ht (PlaybackTask.advances_of_advance hadvance)
  | drop k =>
      simp only [playback, step] at h
      split at h
      · cases h
      · rename_i t ht
        cases h
        exact Steps.dropped ht
  | prune now =>
      cases h
      exact Steps.pruned now
  | poll id now =>
      cases h
      exact Steps.polled id now
  | cancel id now =>
      cases h
      exact Steps.cancelled id now
  | clear now =>
      cases h
      exact Steps.cleared now

end PlaybackState

end HifiApi
