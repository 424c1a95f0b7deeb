import HifiApi.Playback.Answers

/-!
# Requests and their jobs

A request that found no slot is told the identifier of a job.  Runs note which
task was told which identifier and what its operation came to; no two tasks are
told the same one, and a job at its end holds what the operation of its task came
to.
-/

namespace HifiApi

variable {Id : Type}

/-!
## Requests and the outcomes of their operations
-/

/-- What a run notes of requests: a task told its identifier, an operation at its
end. -/
inductive RequestMark (Id : Type) where
  | told (k : Nat) (id : Id)
  | cameTo (k : Nat) (id : Id) (out : JobOutcome)

/-- The error that stands for an outcome without a result. -/
def JobOutcome.failure : JobOutcome -> Option AppError
  | done _ => none
  | refused e => some e
  | elapsed => some .timeout

def PlaybackTask.marks (k : Nat) : PlaybackTask Id -> PlaybackTask Id -> List (RequestMark Id)
  | enqueued id _, _ => [.told k id]
  | worker id .running, worker _ (.finishing out _) => [.cameTo k id out]
  | _, _ => []

def PlaybackTask.isWorker : PlaybackTask Id -> Bool
  | worker _ _ => true
  | _ => false

/-- The stages of a worker after its operation has come to its outcome. -/
def PlaybackTask.past (out : JobOutcome) : PlaybackTask Id -> Prop
  | worker _ (.finishing out' _) => out' = out
  | worker _ .leaving => True
  | worker _ .returned => True
  | _ => False

/-- What is kept of an operation in a job is what it came to. -/
inductive Job.Tells (log : List (RequestMark Id)) (j : Job Id) : Prop
  | live : j.state.terminal = false -> j.errorRetryAfter = none -> Tells log j
  | withdrawn : j.state = .cancelled -> Tells log j
  | completed {k : Nat} {answer : JobResult} : j.state = .completed ->
      j.result = some answer -> .cameTo k j.id (.done answer) ∈ log -> Tells log j
  | failed {k : Nat} {out : JobOutcome} {e : AppError} : j.state = .failed ->
      out.failure = some e -> j.Fails e -> .cameTo k j.id out ∈ log -> Tells log j

namespace Job

variable {log log' : List (RequestMark Id)} {j : Job Id}

theorem Tells.mono (h : j.Tells log) (hlog : forall m, m ∈ log -> m ∈ log') :
    j.Tells log' := by
  cases h with
  | live hstate hretry =>
      exact Tells.live hstate hretry
  | withdrawn hstate =>
      exact Tells.withdrawn hstate
  | completed hstate hresult hmem =>
      exact Tells.completed hstate hresult (hlog _ hmem)
  | failed hstate hfailure hfails hmem =>
      exact Tells.failed hstate hfailure hfails (hlog _ hmem)

theorem Tells.poll (now : Int) (h : j.Tells log) : (j.poll now).Tells log := by
  unfold Job.poll
  split
  · cases h with
    | live hstate hretry =>
        exact Tells.live hstate hretry
    | withdrawn hstate =>
        exact Tells.withdrawn hstate
    | completed hstate hresult hmem =>
        exact Tells.completed hstate hresult hmem
    | failed hstate hfailure hfails hmem =>
        exact Tells.failed hstate hfailure ⟨hfails.error, hfails.errorStatus,
          hfails.errorRetryAfter⟩ hmem
  · exact h

theorem Tells.expire (now : Int) (h : j.Tells log) : (j.expire now).Tells log := by
  unfold Job.expire
  split
  · exact Tells.withdrawn rfl
  · exact h

theorem Tells.cancel (now : Int) (h : j.Tells log) : (j.cancel now).Tells log := by
  unfold Job.cancel
  split
  · exact Tells.withdrawn rfl
  · exact h

theorem Tells.clear (now : Int) (h : j.Tells log) : (j.clear now).Tells log := by
  unfold Job.clear
  split
  · exact Tells.withdrawn rfl
  · exact h

theorem Tells.retryAfter (h : j.Tells log) (hstate : j.state.terminal = false) :
    j.errorRetryAfter = none := by
  cases h with
  | live _ hretry =>
      exact hretry
  | withdrawn hcancelled =>
      rw [hcancelled] at hstate
      cases hstate
  | completed hcompleted _ _ =>
      rw [hcompleted] at hstate
      cases hstate
  | failed hfailed _ _ _ =>
      rw [hfailed] at hstate
      cases hstate

theorem Tells.start (h : j.Tells log) (hstate : j.state = .pending) :
    j.start.Tells log := by
  refine Tells.live rfl (h.retryAfter ?_)
  rw [hstate]
  rfl

theorem Tells.finish {k : Nat} {out : JobOutcome} (accounts : List LoggedAccount)
    (now : Int) (h : j.Tells log) (hstate : j.state = .processing ∨ j.state = .cancelled)
    (hmem : .cameTo k j.id out ∈ log) : (j.finish out accounts now).Tells log := by
  unfold Job.finish
  split
  · rename_i hcancelled
    exact Tells.withdrawn hcancelled
  · rename_i hnot
    have hretry : j.errorRetryAfter = none := by
      apply h.retryAfter
      rw [hstate.resolve_right hnot]
      rfl
    cases out with
    | done answer =>
        exact Tells.completed rfl rfl hmem
    | refused e =>
        refine Tells.failed rfl rfl ⟨rfl, rfl, ?_⟩ hmem
        cases e with
        | _ =>
            rfl
    | elapsed =>
        exact Tells.failed rfl rfl ⟨rfl, rfl, hretry⟩ hmem

end Job

/-!
## One task, one identifier, one outcome
-/

/-- Who was told an identifier owns it, and its operation comes to one outcome. -/
structure Told (drawn : List Id) (tasks : List (PlaybackTask Id))
    (log : List (RequestMark Id)) : Prop where
  owner : forall k id, .told k id ∈ log -> id ∈ drawn ∧
    forall (i : Nat) t, tasks[i]? = some t -> t.owned = some id ->
      i = k ∧ t.isWorker = true
  sole : forall k k' id, .told k id ∈ log -> .told k' id ∈ log -> k = k'
  cameTo : forall k id out, .cameTo k id out ∈ log -> .told k id ∈ log ∧
    forall t, tasks[k]? = some t -> t.owned = some id -> t.past out
  outcome : forall k id out out', .cameTo k id out ∈ log -> .cameTo k id out' ∈ log ->
    out = out'
  worker : forall (k : Nat) id stage, tasks[k]? = some (.worker id stage) ->
    .told k id ∈ log
  finishing : forall (k : Nat) id out accounts,
    tasks[k]? = some (.worker id (.finishing out accounts)) -> .cameTo k id out ∈ log

theorem PlaybackTask.Advances.past [DecidableEq Id] {q q' : PlaybackQueue Id}
    {t t' : PlaybackTask Id} {out : JobOutcome} (h : t.Advances q t' q')
    (hpast : t.past out) : t'.past out := by
  cases h with
  | worked hstage =>
      cases hstage with
      | finished now =>
          trivial
      | left =>
          trivial
      | _ =>
          exact False.elim hpast
  | _ =>
      exact False.elim hpast

namespace Told

variable {drawn drawn' : List Id} {tasks tasks' : List (PlaybackTask Id)}
  {log : List (RequestMark Id)}

/-- No task changes but one that has no identifier afterwards. -/
theorem keep (h : Told drawn tasks log) (hdrawn : forall id, id ∈ drawn -> id ∈ drawn')
    (htasks : forall (i : Nat) t id, tasks'[i]? = some t -> t.owned = some id ->
      tasks[i]? = some t) : Told drawn' tasks' log := by
  constructor
  · intro k id hmem
    rcases h.owner k id hmem with ⟨hid, hown⟩
    exact ⟨hdrawn id hid, fun i t ht hto => hown i t (htasks i t id ht hto) hto⟩
  · exact h.sole
  · intro k id out hmem
    rcases h.cameTo k id out hmem with ⟨htold, hpast⟩
    exact ⟨htold, fun t ht hto => hpast t (htasks k t id ht hto) hto⟩
  · exact h.outcome
  · intro k id stage hk
    exact h.worker k id stage (htasks k _ id hk rfl)
  · intro k id out accounts hk
    exact h.finishing k id out accounts (htasks k _ id hk rfl)

theorem entered {q : PlaybackQueue Id} {k : Nat} {id : Id} (h : Told q.drawn tasks log)
    (hmem : .told k id ∈ log) : Entered id q tasks := by
  rcases h.owner k id hmem with ⟨hdrawn, hown⟩
  refine ⟨hdrawn, ?_⟩
  intro t ht createdAt accounts pool heq
  rcases List.mem_iff_getElem?.mp ht with ⟨i, hi⟩
  have hworker := (hown i t hi (by rw [heq]; rfl)).right
  rw [heq] at hworker
  cases hworker

end Told

theorem PlaybackTask.mem_marks {t t' : PlaybackTask Id} {k : Nat} {m : RequestMark Id}
    (h : m ∈ t.marks k t') :
    (exists id accounts, t = .enqueued id accounts ∧ m = .told k id) ∨
      exists id id' out accounts, t = .worker id .running ∧
        t' = .worker id' (.finishing out accounts) ∧ m = .cameTo k id out := by
  unfold marks at h
  split at h
  · rename_i id accounts
    exact Or.inl ⟨id, accounts, rfl, List.mem_singleton.mp h⟩
  · rename_i id id' out accounts
    exact Or.inr ⟨id, id', out, accounts, rfl, rfl, List.mem_singleton.mp h⟩
  · cases h

namespace Told

variable {drawn : List Id} {tasks : List (PlaybackTask Id)}
  {log : List (RequestMark Id)} {k : Nat} {t t' : PlaybackTask Id}

theorem getElem?_set_cases {i : Nat} {u : PlaybackTask Id}
    (hu : (tasks.set k t')[i]? = some u) :
    (i = k ∧ u = t') ∨ (i ≠ k ∧ tasks[i]? = some u) := by
  rw [List.getElem?_set] at hu
  split at hu
  · rename_i hki
    split at hu
    · exact Or.inl ⟨hki.symm, (Option.some.inj hu).symm⟩
    · cases hu
  · rename_i hki
    exact Or.inr ⟨Ne.symm hki, hu⟩

/-- An operation that runs has not come to an outcome. -/
theorem not_cameTo_of_running (h : Told drawn tasks log) {id : Id}
    (hk : tasks[k]? = some (.worker id .running)) (k' : Nat) (out : JobOutcome) :
    .cameTo k' id out ∉ log := by
  intro hmem
  rcases h.cameTo k' id out hmem with ⟨htold, hpast⟩
  have hkk : k = k' := ((h.owner k' id htold).right k _ hk rfl).left
  subst hkk
  exact hpast _ hk rfl

theorem sole_marks (h : Told drawn tasks log) (hk : tasks[k]? = some t) {k₁ k₂ : Nat}
    {id : Id} (hold : .told k₁ id ∈ log) (hnew : .told k₂ id ∈ t.marks k t') :
    k₁ = k₂ := by
  rcases PlaybackTask.mem_marks hnew with ⟨id', accounts, heq, hm⟩ | ⟨_, _, _, _, _, _, hm⟩
  · cases hm
    exact ((h.owner k₁ id hold).right k t hk (by rw [heq]; rfl)).left.symm
  · cases hm

theorem sole_advance (h : Told drawn tasks log) (hk : tasks[k]? = some t) {k₁ k₂ : Nat}
    {id : Id} (hmem₁ : .told k₁ id ∈ log ++ t.marks k t')
    (hmem₂ : .told k₂ id ∈ log ++ t.marks k t') : k₁ = k₂ := by
  rcases List.mem_append.mp hmem₁ with hold₁ | hnew₁
  · rcases List.mem_append.mp hmem₂ with hold₂ | hnew₂
    · exact h.sole k₁ k₂ id hold₁ hold₂
    · exact h.sole_marks hk hold₁ hnew₂
  · rcases List.mem_append.mp hmem₂ with hold₂ | hnew₂
    · exact (h.sole_marks hk hold₂ hnew₁).symm
    · rcases PlaybackTask.mem_marks hnew₁ with ⟨_, _, _, hm₁⟩ | ⟨_, _, _, _, _, _, hm₁⟩
      · rcases PlaybackTask.mem_marks hnew₂ with ⟨_, _, _, hm₂⟩ | ⟨_, _, _, _, _, _, hm₂⟩
        · cases hm₁
          cases hm₂
          rfl
        · cases hm₂
      · cases hm₁

theorem outcome_advance (h : Told drawn tasks log) (hk : tasks[k]? = some t) {k' : Nat}
    {id : Id} {out out' : JobOutcome} (hmem : .cameTo k' id out ∈ log ++ t.marks k t')
    (hmem' : .cameTo k' id out' ∈ log ++ t.marks k t') : out = out' := by
  rcases List.mem_append.mp hmem with hold | hnew
  · rcases List.mem_append.mp hmem' with hold' | hnew'
    · exact h.outcome k' id out out' hold hold'
    · rcases PlaybackTask.mem_marks hnew' with ⟨_, _, _, hm⟩ | ⟨_, _, _, _, heq, _, hm⟩
      · cases hm
      · cases hm
        exact absurd hold (h.not_cameTo_of_running (heq ▸ hk) k out)
  · rcases PlaybackTask.mem_marks hnew with ⟨_, _, _, hm⟩ | ⟨_, _, _, _, heq, heq₁, hm⟩
    · cases hm
    · cases hm
      rcases List.mem_append.mp hmem' with hold' | hnew'
      · exact absurd hold' (h.not_cameTo_of_running (heq ▸ hk) k out')
      · rcases PlaybackTask.mem_marks hnew' with ⟨_, _, _, hm⟩ | ⟨_, _, _, _, _, heq₂, hm⟩
        · cases hm
        · cases hm
          rw [heq₁] at heq₂
          cases heq₂
          rfl

end Told

variable [DecidableEq Id]

theorem PlaybackTask.Advances.worker_marks {q q' : PlaybackQueue Id}
    {t t' : PlaybackTask Id} {k : Nat} {id : Id} {stage : WorkerStage}
    (h : t.Advances q t' q') (ht' : t' = .worker id stage) :
    (exists stage', t = .worker id stage') ∨ .told k id ∈ t.marks k t' := by
  cases h with
  | spawned =>
      cases ht'
      exact Or.inr (List.mem_singleton_self _)
  | worked hstage =>
      cases ht'
      exact Or.inl ⟨_, rfl⟩
  | _ =>
      cases ht'

theorem PlaybackTask.Advances.isWorker {q q' : PlaybackQueue Id}
    {t t' : PlaybackTask Id} (h : t.Advances q t' q') (ht : t.isWorker = true) :
    t'.isWorker = true := by
  cases h with
  | worked _ =>
      rfl
  | _ =>
      cases ht

theorem PlaybackTask.Advances.finishing_marks {q q' : PlaybackQueue Id}
    {t t' : PlaybackTask Id} {k : Nat} {id : Id} {out : JobOutcome}
    {accounts : List LoggedAccount} (h : t.Advances q t' q')
    (ht' : t' = .worker id (.finishing out accounts)) :
    .cameTo k id out ∈ t.marks k t' := by
  cases h with
  | worked hstage =>
      cases hstage with
      | cameTo out' accounts' =>
          cases ht'
          exact List.mem_singleton_self _
      | _ =>
          cases ht'
  | _ =>
      cases ht'

namespace Told

variable {q q' : PlaybackQueue Id} {tasks : List (PlaybackTask Id)}
  {log : List (RequestMark Id)} {k : Nat} {t t' : PlaybackTask Id}

/-- A task does not take an identifier that has been drawn for another one. -/
theorem owned_of_advance (howned : Owned q tasks) (hk : tasks[k]? = some t)
    (hadvance : t.Advances q t' q') {id : Id} (hid : id ∈ q.drawn)
    (hto : t'.owned = some id) : t.owned = some id := by
  have ht : t ∈ tasks := List.mem_of_getElem? hk
  have hnext := (hadvance.changes (howned.allowed t ht) howned.sound howned.known).right
  exact (hnext id hto).left.resolve_right fun hfresh => hfresh hid

theorem owner_advance (h : Told q.drawn tasks log) (howned : Owned q tasks)
    (hk : tasks[k]? = some t) (hadvance : t.Advances q t' q') {k' : Nat} {id : Id}
    (hmem : .told k' id ∈ log ++ t.marks k t') :
    id ∈ q'.drawn ∧ forall (i : Nat) u, (tasks.set k t')[i]? = some u ->
      u.owned = some id -> i = k' ∧ u.isWorker = true := by
  rcases List.mem_append.mp hmem with hold | hnew
  · rcases h.owner k' id hold with ⟨hid, hown⟩
    refine ⟨hadvance.drawn_mono id hid, ?_⟩
    intro i u hu huo
    rcases getElem?_set_cases hu with ⟨hik, heq⟩ | ⟨_, hu'⟩
    · subst hik heq
      rcases hown i t hk (owned_of_advance howned hk hadvance hid huo) with ⟨hik, hworker⟩
      exact ⟨hik, hadvance.isWorker hworker⟩
    · exact hown i u hu' huo
  · rcases PlaybackTask.mem_marks hnew with ⟨id', accounts, heq, hm⟩ | ⟨_, _, _, _, _, _, hm⟩
    · cases hm
      have hto : t.owned = some id := by rw [heq]; rfl
      refine ⟨hadvance.drawn_mono id
        (howned.allowed t (List.mem_of_getElem? hk) id hto).left, ?_⟩
      intro i u hu huo
      rcases getElem?_set_cases hu with ⟨hik, hut⟩ | ⟨hne, hu'⟩
      · refine ⟨hik, ?_⟩
        subst hut heq
        cases hadvance
        rfl
      · exact absurd (howned.single i k u t id hu' hk huo hto) hne
    · cases hm

theorem cameTo_advance (h : Told q.drawn tasks log) (howned : Owned q tasks)
    (hk : tasks[k]? = some t) (hadvance : t.Advances q t' q') {k' : Nat} {id : Id}
    {out : JobOutcome} (hmem : .cameTo k' id out ∈ log ++ t.marks k t') :
    .told k' id ∈ log ++ t.marks k t' ∧ forall u, (tasks.set k t')[k']? = some u ->
      u.owned = some id -> u.past out := by
  rcases List.mem_append.mp hmem with hold | hnew
  · rcases h.cameTo k' id out hold with ⟨htold, hpast⟩
    refine ⟨List.mem_append_left _ htold, ?_⟩
    intro u hu huo
    rcases getElem?_set_cases hu with ⟨hkk, heq⟩ | ⟨_, hu'⟩
    · subst hkk heq
      have hid := (h.owner k' id htold).left
      exact hadvance.past (hpast t hk (owned_of_advance howned hk hadvance hid huo))
    · exact hpast u hu' huo
  · rcases PlaybackTask.mem_marks hnew with
      ⟨_, _, _, hm⟩ | ⟨id', id'', out', accounts, heq, heq', hm⟩
    · cases hm
    · cases hm
      refine ⟨List.mem_append_left _ (h.worker k id .running (heq ▸ hk)), ?_⟩
      intro u hu _
      rcases getElem?_set_cases hu with ⟨_, hut⟩ | ⟨hne, _⟩
      · rw [hut, heq']
        rfl
      · exact absurd rfl hne

/-- The step of a task, with what the run notes of it. -/
theorem advance (h : Told q.drawn tasks log) (howned : Owned q tasks)
    (hk : tasks[k]? = some t) (hadvance : t.Advances q t' q') :
    Told q'.drawn (tasks.set k t') (log ++ t.marks k t') := by
  constructor
  · exact fun _ _ hmem => h.owner_advance howned hk hadvance hmem
  · exact fun _ _ _ hmem₁ hmem₂ => h.sole_advance hk hmem₁ hmem₂
  · exact fun _ _ _ hmem => h.cameTo_advance howned hk hadvance hmem
  · exact fun _ _ _ _ hmem hmem' => h.outcome_advance hk hmem hmem'
  · intro k' id stage hk'
    rcases getElem?_set_cases hk' with ⟨hkk, heq⟩ | ⟨_, hold⟩
    · subst hkk
      rcases hadvance.worker_marks heq.symm with ⟨stage', hbefore⟩ | hnew
      · exact List.mem_append_left _ (h.worker k' id stage' (hbefore ▸ hk))
      · exact List.mem_append_right _ hnew
    · exact List.mem_append_left _ (h.worker k' id stage hold)
  · intro k' id out accounts hk'
    rcases getElem?_set_cases hk' with ⟨hkk, heq⟩ | ⟨_, hold⟩
    · subst hkk
      exact List.mem_append_right _ (hadvance.finishing_marks heq.symm)
    · exact List.mem_append_left _ (h.finishing k' id out accounts hold)

end Told

/-!
## What the jobs keep
-/

namespace PlaybackQueue

/-- Every job holds what its operation came to. -/
def Tells (q : PlaybackQueue Id) (log : List (RequestMark Id)) : Prop :=
  forall id j, q.jobs.lookup id = some j -> j.Tells log

variable {q : PlaybackQueue Id} {log log' : List (RequestMark Id)}

theorem Tells.mono (h : q.Tells log) (hlog : forall m, m ∈ log -> m ∈ log') :
    q.Tells log' :=
  fun id j hj => (h id j hj).mono hlog

theorem Tells.mapRows (h : q.Tells log) {f : Job Id -> Job Id}
    (hid : forall j, (f j).id = j.id) (hf : forall j : Job Id, j.Tells log -> (f j).Tells log) :
    Tells { q with jobs := q.jobs.mapRows f hid } log := by
  intro id j hj
  have hj' : (q.jobs.lookup id).map f = some j := by
    rw [<- Table.lookup_mapRows q.jobs hid]
    exact hj
  rcases Option.map_eq_some_iff.mp hj' with ⟨old, hold, heq⟩
  rw [<- heq]
  exact hf old (h id old hold)

theorem Tells.update (h : q.Tells log) {f : Job Id -> Job Id}
    (hid : forall j, (f j).id = j.id) (own : Id)
    (hf : forall j, q.jobs.lookup own = some j -> (f j).Tells log) :
    Tells { q with jobs := q.jobs.update own f hid } log := by
  intro id j hj
  have hj' : (if id = own then (q.jobs.lookup id).map f else q.jobs.lookup id) = some j := by
    rw [<- Table.lookup_update q.jobs own f hid]
    exact hj
  split at hj'
  · rename_i heq
    subst heq
    rcases Option.map_eq_some_iff.mp hj' with ⟨old, hold, hfold⟩
    rw [<- hfold]
    exact hf old hold
  · exact h id j hj'

theorem Tells.prune (h : q.Tells log) (now : Int) : (q.prune now).Tells log := by
  have hkept : forall p : Job Id -> Bool,
      Tells { q with jobs := q.jobs.retain p } log := by
    intro p id j hj
    have hj' : (q.jobs.lookup id).filter p = some j := by
      rw [<- Table.lookup_retain]
      exact hj
    exact h id j (Option.filter_eq_some_iff.mp hj').left
  exact (hkept _).mapRows (Job.expire_id now) fun _ hj => hj.expire now

theorem Tells.pushTask (h : q.Tells log) (own : Id) (now : Int) :
    (q.pushTask own now).Tells log := by
  intro id j hj
  have hj' : (if id = own then some (Job.new own now) else q.jobs.lookup id) = some j := by
    rw [<- hj]
    exact (Table.lookup_put q.jobs (Job.new own now) id).symm
  split at hj'
  · rw [<- Option.some.inj hj']
    exact Job.Tells.live rfl rfl
  · exact h id j hj'

end PlaybackQueue

theorem PlaybackTask.Advances.tells {q q' : PlaybackQueue Id}
    {tasks : List (PlaybackTask Id)} {log : List (RequestMark Id)} {k : Nat}
    {t t' : PlaybackTask Id} (h : t.Advances q t' q') (htells : q.Tells log)
    (htold : Told q.drawn tasks log) (howned : Owned q tasks) (hk : tasks[k]? = some t) :
    q'.Tells log := by
  cases h with
  | swept now =>
      exact htells.prune now
  | @admitted id createdAt accounts pool _ =>
      exact htells.pushTask id createdAt
  | @worked id stage stage' _ hstage =>
      have hallowed := (howned.allowed _ (List.mem_of_getElem? hk) id rfl).right
      cases hstage with
      | started hnot =>
          refine htells.update Job.start_id id ?_
          intro j hj
          have hpending := JobState.pending_of_unstarted hallowed hnot
          rw [PlaybackQueue.state_of_lookup hj] at hpending
          exact (htells id j hj).start (Option.some.inj hpending)
      | @finished out accounts now =>
          refine htells.update (Job.finish_id out accounts now) id ?_
          intro j hj
          have hunder : JobState.underWay (some j.state) := by
            rw [<- PlaybackQueue.state_of_lookup hj]
            exact hallowed
          have hstate : j.state = .processing ∨ j.state = .cancelled := by
            rcases hunder with hnone | hprocessing | hcancelled
            · cases hnone
            · exact Or.inl (Option.some.inj hprocessing)
            · exact Or.inr (Option.some.inj hcancelled)
          have hmem := htold.finishing k id out accounts hk
          rw [<- Table.key_of_lookup hj] at hmem
          exact (htells id j hj).finish accounts now hstate hmem
      | _ =>
          exact htells
  | _ =>
      exact htells

/-!
## Every run
-/

/-- What a step notes of the task that takes it. -/
def PlaybackState.requestMarks (s : PlaybackState Id) :
    PlaybackAction Id -> List (RequestMark Id)
  | .resume k e =>
      match s.tasks[k]? with
      | none => []
      | some t =>
          match t.advance s.queue e with
          | none => []
          | some next => t.marks k next.2.1
  | _ => []

/-- The requests of a state and what its jobs hold of them. -/
structure Reported (s : PlaybackState Id) (log : List (RequestMark Id)) : Prop where
  owned : Owned s.queue s.tasks
  told : Told s.queue.drawn s.tasks log
  tells : s.queue.Tells log

theorem Reported.new : Reported (PlaybackState.new : PlaybackState Id) [] :=
  ⟨new_owned,
    ⟨fun _ _ hmem => (nomatch hmem), fun _ _ _ hmem => (nomatch hmem),
      fun _ _ _ hmem => (nomatch hmem), fun _ _ _ _ hmem => (nomatch hmem),
      fun _ _ _ hk => (nomatch hk), fun _ _ _ _ hk => (nomatch hk)⟩,
    fun _ _ hj => (nomatch hj)⟩

/-- What changes the jobs alone. -/
theorem Reported.change {s : PlaybackState Id} {log : List (RequestMark Id)}
    (h : Reported s log) {q : PlaybackQueue Id} (howned : Owned q s.tasks)
    (hdrawn : q.drawn = s.queue.drawn) (htells : q.Tells log) :
    Reported { s with queue := q } (log ++ []) := by
  rw [List.append_nil]
  refine ⟨howned, h.told.keep ?_ fun _ _ _ ht _ => ht, htells⟩
  intro id hid
  rw [hdrawn]
  exact hid

theorem Reported.step {s s' : PlaybackState Id} {log : List (RequestMark Id)}
    (h : Reported s log) {a : PlaybackAction Id}
    (hstep : (playback Id).step s a = some s') :
    Reported s' (log ++ s.requestMarks a) := by
  have howned := (h.owned.steps (PlaybackState.steps_of_step hstep)).left
  cases a with
  | arrive =>
      cases hstep
      show Reported _ (log ++ [])
      rw [List.append_nil]
      refine ⟨howned, h.told.keep (fun _ hid => hid) ?_, h.tells⟩
      intro i t id hi hto
      rw [List.getElem?_append] at hi
      split at hi
      · exact hi
      · rw [List.mem_singleton.mp (List.mem_of_getElem? hi)] at hto
        cases hto
  | resume k e =>
      simp only [playback, PlaybackState.step] at hstep
      cases hk : s.tasks[k]? with
      | none =>
          rw [hk] at hstep
          cases hstep
      | some t =>
          rw [hk] at hstep
          rcases Option.map_eq_some_iff.mp hstep with ⟨⟨q, t', replies⟩, hadvance, heq⟩
          have hmarks : s.requestMarks (.resume k e) = t.marks k t' := by
            simp only [PlaybackState.requestMarks, hk, hadvance]
          have hadv := PlaybackTask.advances_of_advance hadvance
          cases heq
          rw [hmarks]
          refine ⟨howned, h.told.advance h.owned hk hadv, ?_⟩
          exact (hadv.tells h.tells h.told h.owned hk).mono fun _ hm =>
            List.mem_append_left _ hm
  | drop k =>
      simp only [playback, PlaybackState.step] at hstep
      split at hstep
      · cases hstep
      · rename_i t ht
        cases hstep
        have hsame : (if t.holdsSlot then s.queue.release else s.queue).drawn =
            s.queue.drawn ∧
            (if t.holdsSlot then s.queue.release else s.queue).jobs = s.queue.jobs := by
          split
          · exact ⟨rfl, rfl⟩
          · exact ⟨rfl, rfl⟩
        show Reported _ (log ++ [])
        rw [List.append_nil]
        refine ⟨howned, h.told.keep ?_ ?_, ?_⟩
        · intro id hid
          rw [hsame.left]
          exact hid
        · intro i u id hu huo
          rw [List.getElem?_set] at hu
          split at hu
          · split at hu
            · cases hu
              cases huo
            · cases hu
          · exact hu
        · intro id j hj
          rw [hsame.right] at hj
          exact h.tells id j hj
  | prune now =>
      cases hstep
      exact h.change howned rfl (h.tells.prune now)
  | poll id now =>
      cases hstep
      exact h.change howned rfl
        (h.tells.update (Job.poll_id now) id fun j hj => (h.tells id j hj).poll now)
  | cancel id now =>
      cases hstep
      exact h.change howned rfl
        (h.tells.update (Job.cancel_id now) id fun j hj => (h.tells id j hj).cancel now)
  | clear now =>
      cases hstep
      exact h.change howned rfl (h.tells.mapRows (Job.clear_id now) fun _ hj => hj.clear now)

theorem reported_of_run {actions : List (PlaybackAction Id)} {s : PlaybackState Id}
    (hrun : (playback Id).run PlaybackState.new actions = some s) :
    Reported s ((playback Id).history PlaybackState.requestMarks .new actions) := by
  have hend : Reported s
      ([] ++ (playback Id).history PlaybackState.requestMarks .new actions) := by
    refine System.run_history_invariant (P := fun _ _ => True) (I := Reported)
      ?_ Reported.new (System.along_of_forall_mem fun _ _ => trivial) hrun
    exact fun _ _ _ _ h _ hstep => h.step hstep
  rw [List.nil_append] at hend
  exact hend

end HifiApi
