import HifiApi.Tokens.RefreshLocks

/-!
# The steps of a refresh

What one step of the token manager does to the callers of a refresh and to the
records.  A refresh gets past its gate only when the account's retry time has
come; the retry time itself moves when a refresh fails, and is cleared when one
succeeds.
-/

namespace HifiApi

open TokenManager

/-!
## Records and their retry times
-/

/-- The roster lists the same pointers, and every record keeps its id. -/
structure Roster.SameEntries (m m' : Roster accounts) : Prop where
  roster : m'.memory.roster = m.memory.roster
  ids : forall p, (m'.memory.cells p).id = (m.memory.cells p).id

namespace Roster

variable {m m' m'' : Roster accounts}

theorem SameEntries.refl (m : Roster accounts) : m.SameEntries m :=
  ⟨rfl, fun _ => rfl⟩

theorem SameEntries.trans (h : m.SameEntries m') (h' : m'.SameEntries m'') :
    m.SameEntries m'' where
  roster := h'.roster.trans h.roster
  ids := fun p => (h'.ids p).trans (h.ids p)

theorem Keeps.sameEntries (h : m.Keeps m') : m.SameEntries m' where
  roster := h.roster
  ids := fun p => (h.cells p).id

theorem SameEntries.find? (h : m.SameEntries m') (id : String) :
    m'.memory.find? id = m.memory.find? id :=
  find?_congr h.roster h.ids id

theorem sameEntries_write (m : Roster accounts) {p : Nat} {a : AccountState}
    (hid : a.id = (m.memory.cells p).id) :
    m.SameEntries { m with memory := m.memory.write p a hid } where
  roster := rfl
  ids := by
    intro q
    by_cases hq : q = p
    · subst hq
      simpa [Arena.write] using hid
    · simp [Arena.write, hq]

theorem sameEntries_rewrite (m : Roster accounts) (p : Nat)
    {f : AccountState -> AccountState} (hf : forall a, (f a).id = a.id) :
    m.SameEntries (m.rewrite p f hf) :=
  sameEntries_write m (hf _)

theorem sameEntries_storeRefreshedCredentials {p : Nat} {oldRefresh : String}
    {rotated : Option String} {token : String} {expires : Int} {now : I64}
    (h : m.storeRefreshedCredentials p oldRefresh rotated token expires now =
      .ok m') : m.SameEntries m' := by
  unfold storeRefreshedCredentials at h
  split at h
  · cases h
  · dsimp only at h
    split at h
    · cases h
    · split at h
      · cases h
        exact ⟨rfl, (sameEntries_write m _).ids⟩
      · cases h

/-- When the accounts may be refreshed again, by pointer. -/
def retryAt (m : Roster accounts) (p : Nat) : Int :=
  (m.memory.cells p).healNextRetry

theorem retryAt_write {p : Nat} {a : AccountState}
    (hid : a.id = (m.memory.cells p).id) :
    retryAt { m with memory := m.memory.write p a hid } =
      Function.update m.retryAt p a.healNextRetry := by
  funext q
  by_cases hq : q = p
  · subst hq
    simp [retryAt, Arena.write]
  · simp [retryAt, Arena.write, hq]

theorem retryAt_rewrite (m : Roster accounts) (p : Nat)
    {f : AccountState -> AccountState} (hf : forall a, (f a).id = a.id) :
    (m.rewrite p f hf).retryAt =
      Function.update m.retryAt p (f (m.memory.cells p)).healNextRetry :=
  retryAt_write (hf _)

theorem retryAt_storeRefreshedCredentials {p : Nat} {oldRefresh : String}
    {rotated : Option String} {token : String} {expires : Int} {now : I64}
    (h : m.storeRefreshedCredentials p oldRefresh rotated token expires now =
      .ok m') : m'.retryAt = m.retryAt := by
  unfold storeRefreshedCredentials at h
  split at h
  · cases h
  · dsimp only at h
    split at h
    · cases h
    · rename_i a hstore
      split at h
      · cases h
        have hsame : a.healNextRetry = (m.memory.cells p).healNextRetry := by
          rw [(AccountState.storeRefreshedCredentials_eq_some.mp hstore).right]
        have hwrite := retryAt_write (storeRefreshedCredentials_id hstore)
        rw [hsame] at hwrite
        exact hwrite.trans (Function.update_eq_self p m.retryAt)
      · cases h

/-- A change of other fields. -/
theorem retryAt_rewrite_eq (m : Roster accounts) (p : Nat)
    {f : AccountState -> AccountState} (hf : forall a, (f a).id = a.id)
    (hsame : forall a, (f a).healNextRetry = a.healNextRetry) :
    (m.rewrite p f hf).retryAt = m.retryAt := by
  rw [retryAt_rewrite, hsame]
  exact Function.update_eq_self p m.retryAt

end Roster

/-!
## What a failure sets
-/

namespace TokenManager

/-- The shortest pause that {lit}`defer_retry` sets. -/
def backoff (a : AccountState) : Nat :=
  min (30 * 2 ^ min a.healFailures 7) 3600

/-- The shortest pause after an error. -/
def failureMinimum : AppError -> Nat
  | .rateLimited seconds => seconds
  | .serviceUnavailableRetry _ seconds => seconds
  | .unauthorized _ => 300
  | _ => 0

/-- The retry time that {lit}`defer_retry` sets. -/
def deferredTo (now : I64) (jitter minimum : Nat) (a : AccountState) : Int :=
  I64.saturate (now.val + countColumn (max (backoff a + jitter % 16) minimum))

theorem failRefresh_retry (now : I64) (jitter : Nat) (error : AppError)
    (a : AccountState) :
    (failRefresh now jitter error a).healNextRetry =
      deferredTo now jitter (failureMinimum error) a := by
  cases error <;> rfl

theorem rejectAccessToken_healNextRetry (rejected : String) (a : AccountState) :
    (rejectAccessToken rejected a).healNextRetry = a.healNextRetry := by
  unfold rejectAccessToken
  split <;> rfl

theorem noteFailure_cooldown (failure : TokenAttemptFailure) (useBasic : Bool)
    (a : AccountState) :
    (noteFailure failure useBasic a).healNextRetry = a.healNextRetry ∧
      (noteFailure failure useBasic a).healFailures = a.healFailures := by
  unfold noteFailure
  split <;> exact ⟨rfl, rfl⟩

theorem readAnswer_cooldown (now : I64) (r : AuthResponse) (a : AccountState) :
    (readAnswer now r a).1.healNextRetry = a.healNextRetry ∧
      (readAnswer now r a).1.healFailures = a.healFailures := by
  unfold readAnswer
  split
  · exact ⟨rfl, rfl⟩
  · split
    · split <;> exact ⟨rfl, rfl⟩
    · exact ⟨rfl, rfl⟩

theorem countColumn_le {n n' : Nat} (h : n ≤ n') :
    countColumn n ≤ countColumn n' := by
  unfold countColumn
  split <;> split <;> omega

theorem saturate_le {n n' : Int} (h : n ≤ n') :
    I64.saturate n ≤ I64.saturate n' := by
  unfold I64.saturate
  omega

/-- A failure is followed by at least the pause it asks for. -/
theorem le_deferredTo (now : I64) (jitter : Nat) {seconds minimum : Nat}
    (h : seconds ≤ minimum) (a : AccountState) :
    I64.saturate (now.val + countColumn seconds) ≤
      deferredTo now jitter minimum a :=
  saturate_le (Int.add_le_add_left
    (countColumn_le (h.trans (le_max_right _ _))) _)

theorem backoff_le_deferredTo (now : I64) (jitter minimum : Nat)
    (a : AccountState) :
    I64.saturate (now.val + countColumn (backoff a)) ≤
      deferredTo now jitter minimum a :=
  saturate_le (Int.add_le_add_left
    (countColumn_le ((Nat.le_add_right _ _).trans (le_max_left _ _))) _)

end TokenManager

namespace Roster

theorem editListed_disable_cells (m : Roster accounts) (p q : Nat) (now : I64) :
    ((m.editListed p (.setSystemDisabled true) now).memory.cells q).healNextRetry =
        (m.memory.cells q).healNextRetry ∧
      ((m.editListed p (.setSystemDisabled true) now).memory.cells q).healFailures =
        (m.memory.cells q).healFailures := by
  unfold editListed
  split
  · dsimp only
    split
    · exact ⟨rfl, rfl⟩
    · rename_i a hedit
      by_cases hq : q = p
      · subst hq
        simp only [accounts, AccountEdit.apply, AccountState.setSystemDisabled]
          at hedit
        split at hedit
        · cases hedit
        · split at hedit
          · cases hedit
          · cases hedit
            simp [Arena.write]
      · simp [Arena.write, hq]
  · exact ⟨rfl, rfl⟩

/-- The end of a refresh that failed moves the retry time of its account. -/
theorem retryAt_failRefresh (m : Roster accounts) (p : Nat) (now : I64)
    (jitter : Nat) (error : AppError) :
    (m.failRefresh p now jitter error).retryAt =
      Function.update m.retryAt p
        (deferredTo now jitter (failureMinimum error) (m.memory.cells p)) := by
  have hdisabled : forall q,
      ((if disablesAccount error then
        m.editListed p (.setSystemDisabled true) now else m).memory.cells
          q).healNextRetry = (m.memory.cells q).healNextRetry ∧
      ((if disablesAccount error then
        m.editListed p (.setSystemDisabled true) now else m).memory.cells
          q).healFailures = (m.memory.cells q).healFailures := by
    intro q
    split
    · exact editListed_disable_cells m p q now
    · exact ⟨rfl, rfl⟩
  show (rewrite _ p (TokenManager.failRefresh now jitter error)
    fun a => (failRefresh_sameToken now jitter error a).id).retryAt = _
  rw [retryAt_rewrite, failRefresh_retry]
  congr 1
  · funext q
    exact (hdisabled q).left
  · unfold deferredTo backoff
    rw [(hdisabled p).right]

end Roster

/-!
## The cycle
-/

def CycleEvent.time : CycleEvent -> Option I64
  | .answer now _ _ | .store now _ | .timeout now _ => some now
  | .send | .publish => none

/-- The reading of the clock in a step of the token manager. -/
def TokenManagerAction.time : TokenManagerAction -> Option I64
  | .call _ _ now | .enter _ now | .share _ now _ | .resolve _ _ now _ _
  | .expire _ now _ => some now
  | .cycle _ e => e.time
  | .lookUp _ | .lock _ | .acquire _ | .leave _ | .others _ | .dropLock _
  | .wait _ => none

namespace Cycle

/-- The refresh holds this record. -/
def Holds (p : Nat) : Cycle -> Prop
  | .sending r => r.pointer = p
  | .asking r _ => r.pointer = p
  | .storing r _ _ _ => r.pointer = p
  | .publishing r _ _ => r.pointer = p
  | .ended _ => True

/-- What a step of a refresh does to the retry times. -/
inductive Retries (p : Nat) (m m' : Roster accounts) (c c' : Cycle)
    (e : CycleEvent) : Prop
  | stays (heq : m'.retryAt = m.retryAt)
  | fails (now : I64) (jitter : Nat) (error : AppError) (he : e.time = some now)
      (hended : c' = .ended (.error error))
      (heq : m'.retryAt = Function.update m.retryAt p
        (deferredTo now jitter (failureMinimum error) (m.memory.cells p)))
  | succeeds (r : Refreshing) (token : String) (expires : Int)
      (hpublishing : c = .publishing r token expires) (he : e = .publish)
      (heq : m'.retryAt = Function.update m.retryAt p 0)

section Steps

variable {p : Nat} {m m' : Roster accounts} {c c' : Cycle} {e : CycleEvent}

theorem sameEntries_of_step (h : c.step m e = some (m', c')) :
    m.SameEntries m' := by
  cases c with
  | sending r => exact (step_sending h).left.sameEntries
  | asking r oldRefresh => exact (step_asking h).left.sameEntries
  | storing r oldRefresh grant expires =>
      rcases step_storing h with ⟨now, jitter, _, hstored, _⟩ | hfails
      · exact Roster.sameEntries_storeRefreshedCredentials hstored
      · exact hfails.left.sameEntries
  | publishing r token expires => exact (step_publishing h).left.sameEntries
  | ended result => cases h

theorem holds_of_step (hc : c.Holds p) (h : c.step m e = some (m', c')) :
    c'.Holds p := by
  cases c with
  | sending r =>
      rcases (step_sending h).right with hasks | ⟨error, hended⟩
      · rw [hasks]
        exact hc
      · rw [hended]
        trivial
  | asking r oldRefresh =>
      rcases (step_asking h).right with ⟨r', hsends, hr'⟩ | ⟨error, hended⟩ |
        ⟨now, jitter, response, grant, _, _, hstores⟩
      · rw [hsends]
        exact hr'.trans hc
      · rw [hended]
        trivial
      · rw [hstores]
        exact hc
  | storing r oldRefresh grant expires =>
      rcases step_storing h with ⟨now, jitter, _, _, hpublishes⟩ |
        ⟨_, error, hended⟩
      · rw [hpublishes]
        exact hc
      · rw [hended]
        trivial
  | publishing r token expires =>
      rcases (step_publishing h).right with ⟨result, hended⟩
      rw [hended]
      trivial
  | ended result => cases h

/-- A failed attempt is followed by another one, or it moves the retry time. -/
theorem failAttempt_cases (m : Roster accounts) (r : Refreshing) (now : I64)
    (jitter : Nat) (failure : TokenAttemptFailure) :
    (exists r', (failAttempt m r now jitter failure).2 = .sending r' ∧
      (failAttempt m r now jitter failure).1.retryAt = m.retryAt) ∨
    ((failAttempt m r now jitter failure).2 = .ended (.error failure.error) ∧
      (failAttempt m r now jitter failure).1.retryAt =
        Function.update m.retryAt r.pointer (deferredTo now jitter
          (failureMinimum failure.error) (m.memory.cells r.pointer))) := by
  have hnoted := Roster.retryAt_rewrite_eq m r.pointer
    (fun a => (noteFailure_sameToken failure r.useBasic a).id)
    (fun a => (noteFailure_cooldown failure r.useBasic a).left)
  unfold failAttempt
  split
  · exact Or.inl ⟨_, rfl, hnoted⟩
  · refine Or.inr ⟨rfl, ?_⟩
    rw [Roster.retryAt_failRefresh, hnoted]
    congr 1
    have hsame := (noteFailure_cooldown failure r.useBasic
      (m.memory.cells r.pointer)).right
    unfold deferredTo backoff
    simp only [Roster.rewrite, Arena.write, Function.update_self, hsame]

theorem retries_failAttempt {r : Refreshing} (hr : r.pointer = p)
    {m₀ m : Roster accounts} {c : Cycle} {now : I64} {jitter : Nat}
    {failure : TokenAttemptFailure} (he : e.time = some now)
    (hretry : m.retryAt = m₀.retryAt)
    (hfailures : (m.memory.cells p).healFailures =
      (m₀.memory.cells p).healFailures)
    (h : failAttempt m r now jitter failure = (m', c')) :
    Retries p m₀ m' c c' e := by
  have hcases := failAttempt_cases m r now jitter failure
  rw [h] at hcases
  rcases hcases with ⟨r', _, hstays⟩ | ⟨hended, hfails⟩
  · exact .stays (hstays.trans hretry)
  · refine .fails now jitter failure.error he hended (hfails.trans ?_)
    rw [hretry, hr]
    unfold deferredTo backoff
    rw [hfailures]

/-- An answer that ends the refresh, and what it sets. -/
theorem answer_failed {r : Refreshing} {oldRefresh : String} {now : I64}
    {jitter : Nat} {response : AuthResponse} {error : AppError}
    (h : (asking r oldRefresh).step m (.answer now jitter (.ok response)) =
      some (m', .ended (.error error))) :
    exists failure,
      (readAnswer now response (m.memory.cells r.pointer)).2 = .error failure ∧
      failure.error = error ∧
      m'.retryAt = Function.update m.retryAt r.pointer (deferredTo now jitter
        (failureMinimum error) (m.memory.cells r.pointer)) := by
  have hread := Roster.retryAt_rewrite_eq m r.pointer
    (fun a => (readAnswer_sameToken now response a).id)
    (fun a => (readAnswer_cooldown now response a).left)
  have hsame := (readAnswer_cooldown now response
    (m.memory.cells r.pointer)).right
  simp only [step] at h
  split at h
  · rename_i failure hfailure
    have hcases := failAttempt_cases (m.rewrite r.pointer
      (fun a => (readAnswer now response a).1)
      fun a => (readAnswer_sameToken now response a).id) r now jitter failure
    rw [Option.some.inj h] at hcases
    rcases hcases with ⟨r', hsends, _⟩ | ⟨hended, hfails⟩
    · cases hsends
    · have heq : failure.error = error := by
        cases hended
        rfl
      refine ⟨failure, hfailure, heq, hfails.trans ?_⟩
      rw [hread, heq]
      unfold deferredTo backoff
      simp only [Roster.rewrite, Arena.write, Function.update_self, hsame]
  · cases h

theorem retries_of_step (hc : c.Holds p) (h : c.step m e = some (m', c')) :
    Retries p m m' c c' e := by
  have htimeout : forall (r : Refreshing) (now : I64) (jitter : Nat),
      e.time = some now -> r.pointer = p ->
      (m.failRefresh r.pointer now jitter .timeout,
        Cycle.ended (.error .timeout)) = (m', c') -> Retries p m m' c c' e := by
    intro r now jitter he hr heq
    cases heq
    refine .fails now jitter .timeout he rfl ?_
    rw [Roster.retryAt_failRefresh, hr]
  cases c with
  | sending r =>
      cases e with
      | send =>
          cases h
          exact .stays rfl
      | timeout now jitter => exact htimeout r now jitter rfl hc (Option.some.inj h)
      | _ => cases h
  | asking r oldRefresh =>
      cases e with
      | answer now jitter response =>
          cases response with
          | error failure =>
              exact retries_failAttempt hc rfl rfl rfl (Option.some.inj h)
          | ok response =>
              have hread := Roster.retryAt_rewrite_eq m r.pointer
                (fun a => (readAnswer_sameToken now response a).id)
                (fun a => (readAnswer_cooldown now response a).left)
              have hfailures : ((m.rewrite r.pointer
                  (fun a => (readAnswer now response a).1)
                  fun a => (readAnswer_sameToken now response a).id).memory.cells
                    p).healFailures = (m.memory.cells p).healFailures := by
                have hr : r.pointer = p := hc
                rw [hr]
                simp only [Roster.rewrite, Arena.write, Function.update_self]
                exact (readAnswer_cooldown now response _).right
              simp only [step] at h
              split at h
              · exact retries_failAttempt hc rfl hread hfailures (Option.some.inj h)
              · cases h
                exact .stays hread
      | timeout now jitter => exact htimeout r now jitter rfl hc (Option.some.inj h)
      | _ => cases h
  | storing r oldRefresh grant expires =>
      cases e with
      | store now jitter =>
          simp only [step] at h
          split at h
          · exact retries_failAttempt hc rfl rfl rfl (Option.some.inj h)
          · rename_i stored hstored
            cases h
            exact .stays (Roster.retryAt_storeRefreshedCredentials hstored)
      | timeout now jitter => exact htimeout r now jitter rfl hc (Option.some.inj h)
      | _ => cases h
  | publishing r token expires =>
      cases e with
      | publish =>
          cases h
          refine .succeeds r token expires rfl rfl ?_
          rw [Roster.retryAt_rewrite, hc]
          rfl
      | timeout now jitter => exact htimeout r now jitter rfl hc (Option.some.inj h)
      | _ => cases h
  | ended result => cases h

end Steps

end Cycle

/-!
## Callers
-/

namespace TokenWorld

/-- How the caller of a refresh gets from one stage to the next. -/
inductive Goes (s : TokenWorld) (i : Nat) (job : RefreshJob) :
    TokenManagerAction -> Stage RefreshStage -> Stage RefreshStage -> Prop
  | locks : Goes s i job (.lock i) .waiting (.inside .entered)
  | passes {now : I64} (hproceeds : enterRefresh now job.previous job.force
      (s.account job.pointer) = .proceed) :
      Goes s i job (.enter i now) (.inside .entered) (.inside .sharing)
  | queues {now : I64} {raw : Option (Option Value)} :
      Goes s i job (.share i now raw) (.inside .sharing) (.inside .queueing)
  | acquires : Goes s i job (.acquire i) (.inside .queueing) (.inside .resolving)
  | resolves {rotates : Bool} {now : I64} {jitter : Nat} {r : Refreshing}
      (hr : r.pointer = job.pointer) :
      Goes s i job (.resolve i rotates now jitter (.ok ())) (.inside .resolving)
        (.inside (.cycle (.sending r)))
  | fails {a : TokenManagerAction} {error : AppError} :
      Goes s i job a (.inside .resolving)
        (.inside (.cycle (.ended (.error error))))
  | cycles {e : CycleEvent} {c c' : Cycle} {m : Roster accounts}
      (hstep : c.step s.roster e = some (m, c')) :
      Goes s i job (.cycle i e) (.inside (.cycle c)) (.inside (.cycle c'))
  | leaves {a : TokenManagerAction} {stage : Stage RefreshStage} :
      Goes s i job a stage .left

section Callers

variable {s s' : TokenWorld} {a : TokenManagerAction} {i j : Nat}

theorem caller_eq_some {job : RefreshJob} {stage : Stage RefreshStage} :
    s.caller i = some (job, stage) <->
      exists c, s.refreshLocks.callers[i]? = some c ∧ c.job = job ∧
        c.stage = stage := by
  unfold caller
  rw [Option.map_eq_some_iff]
  constructor
  · rintro ⟨c, hc, heq⟩
    cases heq
    exact ⟨c, hc, rfl, rfl⟩
  · rintro ⟨c, hc, hjob, hstage⟩
    rw [← hjob, ← hstage]
    exact ⟨c, hc, rfl⟩

/-- What has become of a caller of the state before. -/
def Moves (s : TokenWorld) (a : TokenManagerAction) (j : Nat)
    (c' : LockCaller String RefreshJob RefreshStage) : Prop :=
  exists c, s.refreshLocks.callers[j]? = some c ∧ c'.key = c.key ∧
    c'.job = c.job ∧ (c'.stage = c.stage ∨ s.Goes j c.job a c.stage c'.stage)

theorem moves_of_move {t : TokenWorld} {x : Stage RefreshStage}
    {c c' : LockCaller String RefreshJob RefreshStage}
    (hi : s.refreshLocks.callers[i]? = some c)
    (hgoes : s.Goes i c.job a c.stage x)
    (hj : (t.withLocks (s.refreshLocks.move i c x)).refreshLocks.callers[j]? =
      some c') : s.Moves a j c' := by
  change (s.refreshLocks.move i c x).callers[j]? = some c' at hj
  rw [LockCache.getElem?_move hi] at hj
  split at hj
  · rename_i hij
    subst hij
    cases hj
    exact ⟨c, hi, rfl, rfl, Or.inr hgoes⟩
  · exact ⟨c', hj, rfl, rfl, Or.inl rfl⟩

theorem moves_of_advance {t : TokenWorld} {x : RefreshStage} {job : RefreshJob}
    {stage : Stage RefreshStage}
    {c' : LockCaller String RefreshJob RefreshStage}
    (hcaller : s.caller i = some (job, stage))
    (hgoes : s.Goes i job a stage (.inside x))
    (hstep : (s.refreshLocks.advance i x).map t.withLocks = some s')
    (hj : s'.refreshLocks.callers[j]? = some c') : s.Moves a j c' := by
  rcases Option.map_eq_some_iff.mp hstep with ⟨g, hg, heq⟩
  rcases LockCache.advance_eq_some hg with ⟨c, was, hi, _, hmove⟩
  rcases caller_eq_some.mp hcaller with ⟨d, hd, hjob, hstage⟩
  cases hi.symm.trans hd
  rw [← heq, hmove] at hj
  rw [← hjob, ← hstage] at hgoes
  exact moves_of_move hi hgoes hj

theorem moves_of_leave {t : TokenWorld}
    {c' : LockCaller String RefreshJob RefreshStage}
    (hstep : (s.refreshLocks.leave i).map t.withLocks = some s')
    (hj : s'.refreshLocks.callers[j]? = some c') : s.Moves a j c' := by
  rcases Option.map_eq_some_iff.mp hstep with ⟨g, hg, heq⟩
  rcases LockCache.leave_eq_some hg with ⟨c, hi, hmove⟩
  rw [← heq, hmove] at hj
  exact moves_of_move hi .leaves hj

theorem moves_of_same (hlocks : s'.refreshLocks.callers = s.refreshLocks.callers)
    {c' : LockCaller String RefreshJob RefreshStage}
    (hj : s'.refreshLocks.callers[j]? = some c') : s.Moves a j c' := by
  rw [hlocks] at hj
  exact ⟨c', hj, rfl, rfl, Or.inl rfl⟩

/-- A caller has been there before, or it comes after those. -/
theorem moves_or_joins (h : s.step a = some s')
    {c' : LockCaller String RefreshJob RefreshStage}
    (hj : s'.refreshLocks.callers[j]? = some c') :
    s.Moves a j c' ∨ s.refreshLocks.callers.length ≤ j ∧
      exists job lock, job ∈ s.called ∧
        c' = ⟨job.accountId, job, lock, .waiting⟩ := by
  cases a with
  | call p kind now =>
      cases h
      exact Or.inl (moves_of_same (by rw [call_refreshLocks]) hj)
  | lookUp k =>
      simp only [step] at h
      split at h
      · cases h
      · rename_i job hcalled
        cases h
        rcases LockCache.join_callers refreshLockPolicy s.refreshLocks
          job.accountId job with ⟨lock, hcallers⟩
        dsimp only at hj
        rw [hcallers, List.getElem?_append] at hj
        split at hj
        · exact Or.inl ⟨c', hj, rfl, rfl, Or.inl rfl⟩
        · rename_i hnew
          have hmem := List.mem_singleton.mp (List.mem_of_getElem? hj)
          exact Or.inr
            ⟨Nat.le_of_not_lt hnew, job, lock, List.mem_of_getElem? hcalled, hmem⟩
  | lock i =>
      rcases Option.map_eq_some_iff.mp h with ⟨g, hg, heq⟩
      rcases LockCache.enter_eq_some hg with ⟨c, hi, hwaits, _, hmove⟩
      rw [← heq, hmove] at hj
      refine Or.inl (moves_of_move hi ?_ hj)
      rw [hwaits]
      exact .locks
  | enter i now =>
      simp only [step] at h
      split at h
      · rename_i job hcaller
        split at h
        · exact Or.inl (moves_of_leave h hj)
        · rename_i hproceeds
          exact Or.inl (moves_of_advance hcaller (.passes hproceeds) h hj)
      · cases h
  | share i now raw =>
      simp only [step] at h
      split at h
      · rename_i job hcaller
        split at h
        · exact Or.inl (moves_of_leave h hj)
        · exact Or.inl (moves_of_advance hcaller .queues h hj)
      · cases h
  | acquire i =>
      simp only [step] at h
      split at h
      · rename_i job hcaller
        split at h
        · exact Or.inl (moves_of_advance hcaller .acquires h hj)
        · cases h
      · cases h
  | resolve i rotates now jitter client =>
      simp only [step] at h
      split at h
      · rename_i job hcaller
        split at h
        · exact Or.inl (moves_of_advance hcaller .fails h hj)
        · exact Or.inl (moves_of_advance hcaller (.resolves rfl) h hj)
      · cases h
  | cycle i e =>
      simp only [step] at h
      split at h
      · rename_i job c hcaller
        split at h
        · rename_i m next hcycle
          exact Or.inl (moves_of_advance hcaller (.cycles hcycle) h hj)
        · cases h
      · cases h
  | expire i now jitter =>
      simp only [step] at h
      split at h
      · rename_i job hcaller
        exact Or.inl (moves_of_advance hcaller .fails h hj)
      · cases h
  | leave i =>
      exact Or.inl (moves_of_leave h hj)
  | others m =>
      cases h
      exact Or.inl (moves_of_same rfl hj)
  | dropLock id =>
      rcases Option.map_eq_some_iff.mp h with ⟨g, hg, heq⟩
      refine Or.inl (moves_of_same ?_ hj)
      rw [← heq]
      unfold LockCache.drop at hg
      split at hg
      · cases hg
        rfl
      · cases hg
  | wait ms =>
      cases h
      exact Or.inl (moves_of_same rfl hj)

/-- A caller has been there before, or it has just looked its lock up. -/
theorem moves_of_step (h : s.step a = some s')
    {c' : LockCaller String RefreshJob RefreshStage}
    (hj : s'.refreshLocks.callers[j]? = some c') :
    s.Moves a j c' ∨
      exists job lock, job ∈ s.called ∧
        c' = ⟨job.accountId, job, lock, .waiting⟩ :=
  (moves_or_joins h hj).imp_right And.right

end Callers

/-!
## Records
-/

section Records

variable {s s' : TokenWorld} {a : TokenManagerAction}

/-- A change of the locks alone. -/
theorem withLocks_of_map {o : Option (LockCache String RefreshJob RefreshStage)}
    {t : TokenWorld} (h : o.map t.withLocks = some s') :
    s'.called = t.called ∧ s'.roster = t.roster := by
  rcases Option.map_eq_some_iff.mp h with ⟨g, _, heq⟩
  rw [← heq]
  exact ⟨rfl, rfl⟩

theorem share_eq_some {job : RefreshJob} {now : I64}
    {raw : Option (Option Value)} (h : s.share job now raw = some s') :
    s'.called = s.called ∧ s.roster.SameEntries s'.roster ∧
      s'.roster.retryAt = s.roster.retryAt := by
  unfold share at h
  dsimp only at h
  split at h
  · cases h
  · rename_i shared token htaken
    cases h
    rcases sharedToken_eq_some htaken with ⟨_, expires, heq⟩
    have hsame : shared.healNextRetry = (s.account job.pointer).healNextRetry := by
      rw [heq]
    have hid : shared.id = (s.account job.pointer).id := by
      rw [heq]
    have hwrite := Roster.retryAt_write (m := s.roster) hid
    rw [hsame] at hwrite
    constructor
    · rfl
    · constructor
      · exact (Roster.sameEntries_write s.roster hid).trans
          (Roster.keeps_saveRefreshState _ _).sameEntries
      · exact hwrite.trans (Function.update_eq_self job.pointer s.roster.retryAt)

theorem rotateProxy_spec (m : Roster accounts) (p : Nat) (rotates : Bool) :
    m.SameEntries (rotateProxy m p rotates) ∧
      (rotateProxy m p rotates).retryAt = m.retryAt ∧
      forall q, ((rotateProxy m p rotates).memory.cells q).healFailures =
        (m.memory.cells q).healFailures := by
  unfold rotateProxy
  split
  · refine ⟨Roster.sameEntries_rewrite _ _ _,
      Roster.retryAt_rewrite_eq _ _ _ fun _ => rfl, ?_⟩
    intro q
    by_cases hq : q = p
    · subst hq
      simp [Roster.rewrite, Arena.write]
    · simp [Roster.rewrite, Arena.write, hq]
  · exact ⟨Roster.SameEntries.refl m, rfl, fun _ => rfl⟩

/-- The caller that an action moves. -/
def mover : TokenManagerAction -> Option Nat
  | .lock i | .enter i _ | .share i _ _ | .acquire i | .resolve i _ _ _ _
  | .cycle i _ | .expire i _ _ | .leave i => some i
  | .call _ _ _ | .lookUp _ | .others _ | .dropLock _ | .wait _ => none

/-- The call of the refresh that an action makes fail. -/
def failing (s : TokenWorld) (a : TokenManagerAction) : Option RefreshJob :=
  match (mover a).bind fun i => (s.step a).bind fun s' => s'.caller i with
  | some (job, .inside (.cycle (.ended (.error _)))) => some job
  | _ => none

/-- What a step does to the retry times. -/
inductive Retries (s s' : TokenWorld) (a : TokenManagerAction) : Prop
  | stays (heq : s'.roster.retryAt = s.roster.retryAt)
  | fails (job : RefreshJob) (now : I64) (jitter : Nat) (error : AppError)
      (ha : a.time = some now) (hfailing : s.failing a = some job)
      (heq : s'.roster.retryAt = Function.update s.roster.retryAt job.pointer
        (deferredTo now jitter (failureMinimum error) (s.account job.pointer)))
  | succeeds (i : Nat) (job : RefreshJob) (r : Refreshing) (token : String)
      (expires : Int) (ha : a = .cycle i .publish)
      (hcaller : s.caller i =
        some (job, .inside (.cycle (.publishing r token expires))))
      (heq : s'.roster.retryAt =
        Function.update s.roster.retryAt job.pointer 0)

/-- The call of a caller that has moved on. -/
theorem caller_of_advance {i : Nat} {x : RefreshStage} {t : TokenWorld}
    {job : RefreshJob} {stage : Stage RefreshStage}
    (hcaller : s.caller i = some (job, stage))
    (h : (s.refreshLocks.advance i x).map t.withLocks = some s') :
    s'.caller i = some (job, .inside x) := by
  rcases Option.map_eq_some_iff.mp h with ⟨g, hg, heq⟩
  rcases LockCache.advance_eq_some hg with ⟨c, was, hi, _, hmove⟩
  rcases caller_eq_some.mp hcaller with ⟨d, hd, hjob, _⟩
  cases hi.symm.trans hd
  refine caller_eq_some.mpr ⟨{ c with stage := .inside x }, ?_, hjob, rfl⟩
  rw [← heq, hmove]
  exact (LockCache.getElem?_move hi).trans (if_pos rfl)

theorem failing_of_advance {i : Nat} {t : TokenWorld} {error : AppError}
    {job : RefreshJob} {stage : Stage RefreshStage} (hmover : mover a = some i)
    (hstep : s.step a = some s') (hcaller : s.caller i = some (job, stage))
    (h : (s.refreshLocks.advance i (.cycle (.ended (.error error)))).map
      t.withLocks = some s') : s.failing a = some job := by
  unfold failing
  rw [hmover, Option.bind_some, hstep, Option.bind_some,
    caller_of_advance hcaller h]

theorem retries_of_roster_eq (h : s'.roster = s.roster) :
    s.roster.SameEntries s'.roster ∧ s.Retries s' a := by
  rw [h]
  exact ⟨Roster.SameEntries.refl _, .stays (by rw [h])⟩

/-- The failure of a refresh that no request of its own has been sent for. -/
theorem retries_of_failRefresh {i : Nat} {job : RefreshJob}
    {stage : Stage RefreshStage} {now : I64} {jitter : Nat} {error : AppError}
    {m : Roster accounts} (hmover : mover a = some i) (ha : a.time = some now)
    (hstep : s.step a = some s') (hcaller : s.caller i = some (job, stage))
    (hentries : s.roster.SameEntries m) (hretry : m.retryAt = s.roster.retryAt)
    (hfailures : (m.memory.cells job.pointer).healFailures =
      (s.account job.pointer).healFailures)
    (h : (s.refreshLocks.advance i (.cycle (.ended (.error error)))).map
      { s with
        roster := m.failRefresh job.pointer now jitter error }.withLocks =
      some s') : s.roster.SameEntries s'.roster ∧ s.Retries s' a := by
  have hroster : s'.roster = m.failRefresh job.pointer now jitter error :=
    (withLocks_of_map h).right
  constructor
  · rw [hroster]
    exact hentries.trans (Roster.keeps_failRefresh m _ _ _ _).sameEntries
  · apply Retries.fails job now jitter error ha
      (failing_of_advance hmover hstep hcaller h)
    rw [hroster, Roster.retryAt_failRefresh, hretry]
    unfold deferredTo backoff
    rw [hfailures]

/-- A step keeps the accounts as they are listed, and moves the retry time of
one of them at most. -/
theorem retries_of_step (h : s.step a = some s')
    (hothers : forall m, a ≠ .others m)
    (hholds : forall i job c, s.caller i = some (job, .inside (.cycle c)) ->
      c.Holds job.pointer) :
    s.roster.SameEntries s'.roster ∧ s.Retries s' a := by
  have hstep := h
  cases a with
  | call p kind now =>
      cases h
      cases kind with
      | getToken =>
          unfold call
          dsimp only
          split <;> exact retries_of_roster_eq rfl
      | refreshToken =>
          exact retries_of_roster_eq rfl
      | refreshAfterUnauthorized rejected =>
          constructor
          · exact (Roster.sameEntries_rewrite s.roster p _).trans
              (Roster.keeps_saveRefreshState _ _).sameEntries
          · apply Retries.stays
            exact Roster.retryAt_rewrite_eq s.roster p
              (rejectAccessToken_id rejected)
              (rejectAccessToken_healNextRetry rejected)
  | lookUp k =>
      simp only [step] at h
      split at h
      · cases h
      · cases h
        exact retries_of_roster_eq rfl
  | lock i | leave i | dropLock id =>
      exact retries_of_roster_eq (withLocks_of_map h).right
  | enter i now =>
      simp only [step] at h
      split at h
      · split at h
        · exact retries_of_roster_eq (withLocks_of_map h).right
        · exact retries_of_roster_eq (withLocks_of_map h).right
      · cases h
  | share i now raw =>
      simp only [step] at h
      split at h
      · split at h
        · rename_i t htaken
          rcases share_eq_some htaken with ⟨_, hentries, hretry⟩
          rw [(withLocks_of_map h).right]
          exact ⟨hentries, .stays (by rw [(withLocks_of_map h).right, hretry])⟩
        · exact retries_of_roster_eq (withLocks_of_map h).right
      · cases h
  | acquire i =>
      simp only [step] at h
      split at h
      · split at h
        · exact retries_of_roster_eq (withLocks_of_map h).right
        · cases h
      · cases h
  | resolve i rotates now jitter client =>
      simp only [step] at h
      split at h
      · rename_i job hcaller
        rcases rotateProxy_spec s.roster job.pointer rotates with
          ⟨hentries, hretry, hfailures⟩
        split at h
        · exact retries_of_failRefresh rfl rfl hstep hcaller hentries hretry
            (hfailures _) h
        · have hroster : s'.roster = rotateProxy s.roster job.pointer rotates :=
            (withLocks_of_map h).right
          rw [hroster]
          exact ⟨hentries, .stays (by rw [hroster, hretry])⟩
      · cases h
  | cycle i e =>
      simp only [step] at h
      split at h
      · rename_i job c hcaller
        split at h
        · rename_i m c' hcycle
          have hroster : s'.roster = m := (withLocks_of_map h).right
          rw [hroster]
          refine ⟨Cycle.sameEntries_of_step hcycle, ?_⟩
          have hretries := Cycle.retries_of_step (hholds i job c hcaller) hcycle
          cases hretries with
          | stays heq =>
              exact .stays (by rw [hroster, heq])
          | fails now jitter error he hended heq =>
              rw [hended] at h
              exact .fails job now jitter error he
                (failing_of_advance rfl hstep hcaller h)
                ((congrArg Roster.retryAt hroster).trans heq)
          | succeeds r token expires hpublishing he heq =>
              rw [hpublishing] at hcaller
              rw [he]
              exact .succeeds i job r token expires rfl hcaller
                (by rw [hroster, heq])
        · cases h
      · cases h
  | expire i now jitter =>
      simp only [step] at h
      split at h
      · rename_i job hcaller
        exact retries_of_failRefresh rfl rfl hstep hcaller
          (Roster.SameEntries.refl s.roster) rfl rfl h
      · cases h
  | others m =>
      exact absurd rfl (hothers m)
  | wait ms =>
      cases h
      exact retries_of_roster_eq rfl

/-- A call that is about to look its lock up has been made before, or is the
one of this step. -/
theorem called_of_step (h : s.step a = some s') {job : RefreshJob}
    (hjob : job ∈ s'.called) :
    job ∈ s.called ∨
      exists kind now, a = .call job.pointer kind now ∧
        job.accountId = (s.account job.pointer).id := by
  cases a with
  | call p kind now =>
      cases h
      have hnew : forall previous force,
          job ∈ s.called ++ [⟨p, (s.account p).id, previous, force⟩] ->
          job ∈ s.called ∨
            exists kind' now', TokenManagerAction.call p kind now =
                .call job.pointer kind' now' ∧
              job.accountId = (s.account job.pointer).id := by
        intro previous force hmem
        rcases List.mem_append.mp hmem with hold | hnew
        · exact Or.inl hold
        · rw [List.mem_singleton.mp hnew]
          exact Or.inr ⟨kind, now, rfl, rfl⟩
      cases kind with
      | getToken =>
          unfold call at hjob
          dsimp only at hjob
          split at hjob
          · exact Or.inl hjob
          · exact hnew _ _ hjob
      | refreshToken =>
          exact hnew _ _ hjob
      | refreshAfterUnauthorized rejected =>
          exact hnew _ _ hjob
  | lookUp k =>
      simp only [step] at h
      split at h
      · cases h
      · cases h
        exact Or.inl (List.mem_of_mem_eraseIdx hjob)
  | lock i | leave i | dropLock id =>
      rw [(withLocks_of_map h).left] at hjob
      exact Or.inl hjob
  | enter i now =>
      simp only [step] at h
      split at h
      · split at h
        · rw [(withLocks_of_map h).left] at hjob
          exact Or.inl hjob
        · rw [(withLocks_of_map h).left] at hjob
          exact Or.inl hjob
      · cases h
  | share i now raw =>
      simp only [step] at h
      split at h
      · split at h
        · rename_i t htaken
          rw [(withLocks_of_map h).left, (share_eq_some htaken).left] at hjob
          exact Or.inl hjob
        · rw [(withLocks_of_map h).left] at hjob
          exact Or.inl hjob
      · cases h
  | acquire i =>
      simp only [step] at h
      split at h
      · split at h
        · rw [(withLocks_of_map h).left] at hjob
          exact Or.inl hjob
        · cases h
      · cases h
  | resolve i rotates now jitter client =>
      simp only [step] at h
      split at h
      · split at h
        · rw [(withLocks_of_map h).left] at hjob
          exact Or.inl hjob
        · rw [(withLocks_of_map h).left] at hjob
          exact Or.inl hjob
      · cases h
  | cycle i e =>
      simp only [step] at h
      split at h
      · split at h
        · rw [(withLocks_of_map h).left] at hjob
          exact Or.inl hjob
        · cases h
      · cases h
  | expire i now jitter =>
      simp only [step] at h
      split at h
      · rw [(withLocks_of_map h).left] at hjob
        exact Or.inl hjob
      · cases h
  | others m =>
      cases h
      exact Or.inl hjob
  | wait ms =>
      cases h
      exact Or.inl hjob

end Records

/-!
## Refreshes of listed records
-/

/-- The record of the call is the one listed for its account. -/
def Listed (s : TokenWorld) (job : RefreshJob) : Prop :=
  job.pointer ∈ s.roster.memory.roster ∧
    (s.account job.pointer).id = job.accountId

/-- Every account has one lock, and every refresh that has not returned works on
the record listed for its account. -/
structure InPlace (s : TokenWorld) : Prop where
  sound : s.refreshLocks.Sound
  keyed : forall c, c ∈ s.refreshLocks.callers -> c.key = c.job.accountId
  called : forall job, job ∈ s.called -> s.Listed job
  callers : forall c, c ∈ s.refreshLocks.callers -> c.stage.isOpen = true ->
    s.Listed c.job
  holds : forall c x, c ∈ s.refreshLocks.callers ->
    c.stage = .inside (.cycle x) -> x.Holds c.job.pointer

section InPlace

variable {s s' : TokenWorld} {a : TokenManagerAction}

theorem listed_iff_find? {job : RefreshJob} :
    s.Listed job <->
      s.roster.memory.find? job.accountId = some job.pointer :=
  Arena.find?_eq_some.symm

theorem inPlace_start (m : Roster accounts) : (start m).InPlace where
  sound := LockCache.sound_start
  keyed := fun _ hc => nomatch hc
  called := fun _ hjob => nomatch hjob
  callers := fun _ hc => nomatch hc
  holds := fun _ _ hc => nomatch hc

theorem InPlace.caller (h : s.InPlace) {i : Nat} {job : RefreshJob}
    {x : RefreshStage} (hcaller : s.caller i = some (job, .inside x)) :
    s.Listed job ∧ forall c, x = .cycle c -> c.Holds job.pointer := by
  rcases caller_eq_some.mp hcaller with ⟨c, hc, hjob, hstage⟩
  have hmem := List.mem_of_getElem? hc
  rw [← hjob]
  constructor
  · exact h.callers c hmem (by rw [hstage]; rfl)
  · intro x hx
    exact h.holds c x hmem (by rw [hstage, hx])

/-- Two refreshes of one account under way are the same. -/
theorem InPlace.same (h : s.InPlace) {i j : Nat}
    {c c' : LockCaller String RefreshJob RefreshStage}
    (hi : s.refreshLocks.callers[i]? = some c)
    (hj : s.refreshLocks.callers[j]? = some c')
    (hc : c.stage.isInside = true) (hc' : c'.stage.isInside = true)
    (hid : c.job.accountId = c'.job.accountId) : i = j := by
  apply h.sound.of_key hi hj hc hc'
  rw [h.keyed c (List.mem_of_getElem? hi), h.keyed c' (List.mem_of_getElem? hj)]
  exact hid

theorem Listed.sameEntries {job : RefreshJob} (h : s.Listed job)
    (hentries : s.roster.SameEntries s'.roster) : s'.Listed job := by
  constructor
  · rw [hentries.roster]
    exact h.left
  · exact (hentries.ids job.pointer).trans h.right

theorem Goes.isOpen {i : Nat} {job : RefreshJob} {stage stage' : Stage RefreshStage}
    (h : s.Goes i job a stage stage') (hopen : stage'.isOpen = true) :
    stage.isOpen = true := by
  cases h with
  | leaves => cases hopen
  | _ => rfl

theorem Goes.holds {i : Nat} {job : RefreshJob} {stage : Stage RefreshStage}
    {x : Cycle} (h : s.Goes i job a stage (.inside (.cycle x)))
    (hholds : forall c, stage = .inside (.cycle c) -> c.Holds job.pointer) :
    x.Holds job.pointer := by
  cases h with
  | resolves hr => exact hr
  | fails => trivial
  | cycles hstep => exact Cycle.holds_of_step (hholds _ rfl) hstep

/-- The steps keep this, as long as only listed records are refreshed. -/
theorem InPlace.step (h : s.InPlace) (hone : s.OneRefreshLock a)
    (hothers : forall m, a ≠ .others m)
    (hcall : forall p kind now, a = .call p kind now ->
      p ∈ s.roster.memory.roster)
    (hstep : s.step a = some s') :
    s'.InPlace ∧ s.roster.SameEntries s'.roster ∧ s.Retries s' a := by
  have hretries := retries_of_step hstep hothers
    fun i job c hcaller => (h.caller hcaller).right c rfl
  have hentries := hretries.left
  refine ⟨?_, hretries⟩
  constructor
  · exact (stepped_of_step hstep).sound h.sound hone
  · intro c' hc'
    rcases List.mem_iff_getElem?.mp hc' with ⟨j, hj⟩
    rcases moves_of_step hstep hj with ⟨c, hc, hkey, hjob, _⟩ |
      ⟨job, lock, _, hnew⟩
    · rw [hkey, hjob]
      exact h.keyed c (List.mem_of_getElem? hc)
    · rw [hnew]
  · intro job hjob
    rcases called_of_step hstep hjob with hold | ⟨kind, now, hcalls, hid⟩
    · exact (h.called job hold).sameEntries hentries
    · exact Listed.sameEntries ⟨hcall _ _ _ hcalls, hid.symm⟩ hentries
  · intro c' hc' hopen
    rcases List.mem_iff_getElem?.mp hc' with ⟨j, hj⟩
    rcases moves_of_step hstep hj with ⟨c, hc, _, hjob, hstage⟩ |
      ⟨job, lock, hcalled, hnew⟩
    · rw [hjob]
      apply Listed.sameEntries _ hentries
      apply h.callers c (List.mem_of_getElem? hc)
      rcases hstage with hsame | hgoes
      · rw [← hsame]
        exact hopen
      · exact hgoes.isOpen hopen
    · rw [hnew]
      exact (h.called job hcalled).sameEntries hentries
  · intro c' x hc' hx
    rcases List.mem_iff_getElem?.mp hc' with ⟨j, hj⟩
    rcases moves_of_step hstep hj with ⟨c, hc, _, hjob, hstage⟩ |
      ⟨job, lock, _, hnew⟩
    · have hmem := List.mem_of_getElem? hc
      rw [hjob]
      rcases hstage with hsame | hgoes
      · exact h.holds c x hmem (hsame.symm.trans hx)
      · rw [hx] at hgoes
        exact hgoes.holds fun y hy => h.holds c y hmem hy
    · rw [hnew] at hx
      cases hx

/-- The rest of the program may change the accounts, as long as the records
under way stay listed. -/
theorem InPlace.others (h : s.InPlace) (m : Roster accounts)
    (hfind : forall job, job ∈ s.called ∨ (exists c,
        c ∈ s.refreshLocks.callers ∧ c.stage.isOpen = true ∧ c.job = job) ->
      m.memory.find? job.accountId = s.roster.memory.find? job.accountId) :
    InPlace { s with roster := m } where
  sound := h.sound
  keyed := h.keyed
  called := by
    intro job hjob
    apply listed_iff_find?.mpr
    exact (hfind job (Or.inl hjob)).trans (listed_iff_find?.mp (h.called job hjob))
  callers := by
    intro c hc hopen
    apply listed_iff_find?.mpr
    exact (hfind c.job (Or.inr ⟨c, hc, hopen, rfl⟩)).trans
      (listed_iff_find?.mp (h.callers c hc hopen))
  holds := h.holds

end InPlace

end TokenWorld

end HifiApi
