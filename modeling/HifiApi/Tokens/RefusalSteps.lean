import HifiApi.Tokens.Refusals

/-!
# The steps of a refused account

What a step of a refresh does to the refusals counted on the account, and what a
section of the proxy manager does to the account's binding.
-/

namespace HifiApi

open TokenManager

/-!
## What a refresh does to the count
-/

namespace Roster

variable {m m' : Roster accounts} {p q : Nat}

/-- The refusals counted on the record behind a pointer. -/
def streakAt (m : Roster accounts) (p : Nat) : Nat :=
  (m.memory.cells p).authForbiddenStreak

theorem streakAt_write {a : AccountState} (hid : a.id = (m.memory.cells p).id) :
    streakAt { m with memory := m.memory.write p a hid } q =
      if q = p then a.authForbiddenStreak else m.streakAt q := by
  by_cases hq : q = p
  · rw [if_pos hq, hq]
    simp [streakAt, Arena.write]
  · rw [if_neg hq]
    simp [streakAt, Arena.write, hq]

theorem streakAt_rewrite (m : Roster accounts) (p : Nat)
    {f : AccountState -> AccountState} (hf : forall a, (f a).id = a.id) :
    (m.rewrite p f hf).streakAt p =
      (f (m.memory.cells p)).authForbiddenStreak := by
  have hwrite := streakAt_write (m := m) (q := p) (hf (m.memory.cells p))
  rw [if_pos rfl] at hwrite
  exact hwrite

theorem streakAt_disable (m : Roster accounts) (p q : Nat) (now : I64) :
    (m.editListed p (.setSystemDisabled true) now).streakAt q = m.streakAt q := by
  unfold editListed
  split
  · dsimp only
    split
    · rfl
    · rename_i a hedit
      by_cases hq : q = p
      · subst hq
        simp only [accounts, AccountEdit.apply, AccountState.setSystemDisabled]
          at hedit
        split at hedit
        · cases hedit
        · split at hedit
          · cases hedit
          · cases hedit
            simp [streakAt, Arena.write]
      · simp [streakAt, Arena.write, hq]
  · rfl

theorem streakAt_failRefresh (m : Roster accounts) (p : Nat) (now : I64)
    (jitter : Nat) (error : AppError) :
    (m.failRefresh p now jitter error).streakAt p = m.streakAt p := by
  have hdisabled :
      (if disablesAccount error then
        m.editListed p (.setSystemDisabled true) now else m).streakAt p =
          m.streakAt p := by
    split
    · exact streakAt_disable m p p now
    · rfl
  show (rewrite _ p (TokenManager.failRefresh now jitter error)
    fun a => (failRefresh_sameToken now jitter error a).id).streakAt p = _
  rw [streakAt_rewrite]
  exact hdisabled

theorem streakAt_storeRefreshedCredentials {oldRefresh : String}
    {rotated : Option String} {token : String} {expires : Int} {now : I64}
    (h : m.storeRefreshedCredentials p oldRefresh rotated token expires now =
      .ok m') : m'.streakAt p = m.streakAt p := by
  have hstored := (stored_of_ok h).record
  rw [streakAt, hstored]
  rfl

end Roster

namespace Cycle

variable {m m' : Roster accounts} {r : Refreshing} {c' : Cycle}

/-- A failed attempt counts a refusal, and starts over otherwise; the refresh
goes on with the same record or ends. -/
theorem streakAt_failAttempt (m : Roster accounts) (r : Refreshing) (now : I64)
    (jitter : Nat) (failure : TokenAttemptFailure) :
    (failAttempt m r now jitter failure).1.streakAt r.pointer =
      if failure.forbidden then m.streakAt r.pointer + 1 else 0 := by
  have hnoted : (m.rewrite r.pointer (noteFailure failure r.useBasic)
      fun a => (noteFailure_sameToken failure r.useBasic a).id).streakAt r.pointer =
        if failure.forbidden then m.streakAt r.pointer + 1 else 0 := by
    rw [Roster.streakAt_rewrite]
    unfold noteFailure
    split <;> rfl
  unfold failAttempt
  split
  · exact hnoted
  · exact (Roster.streakAt_failRefresh _ _ _ _ _).trans hnoted

theorem forbidden_readAnswer {now : I64} {response : AuthResponse}
    {a : AccountState} {failure : TokenAttemptFailure}
    (h : (readAnswer now response a).2 = .error failure) :
    failure.forbidden = decide (response.status.code = 403) := by
  unfold readAnswer at h
  split at h
  · rename_i hlimited
    cases h
    rw [hlimited]
    rfl
  · split at h
    · rename_i hsuccess
      split at h
      · rename_i hgrant
        cases h
        rcases readGrant_eq_error hgrant with ⟨text, heq⟩
        have hne : response.status.code ≠ 403 := by
          intro hcode
          rw [StatusCode.isSuccess, hcode] at hsuccess
          exact absurd hsuccess (by decide)
        rw [heq, decide_eq_false hne]
        rfl
      · cases h
    · cases h
      unfold readFailure
      dsimp only
      split
      · rename_i hcredentials
        have hne : response.status.code ≠ 403 := by
          rcases hcredentials.left with hcode | hcode <;> rw [hcode] <;> decide
        rw [decide_eq_false hne]
        rfl
      · rfl

theorem streakAt_readAnswer (m : Roster accounts) (p : Nat) (now : I64)
    (response : AuthResponse) :
    (m.rewrite p (fun a => (readAnswer now response a).1)
      fun a => (readAnswer_sameToken now response a).id).streakAt p =
        m.streakAt p := by
  rw [Roster.streakAt_rewrite]
  show _ = (m.memory.cells p).authForbiddenStreak
  unfold readAnswer
  split
  · rfl
  · split
    · split <;> rfl
    · rfl

/-- What reading an answer does to the count. -/
theorem streakAt_answer {oldRefresh : String} {answer : AuthAnswer} {now : I64}
    {jitter : Nat}
    (h : (asking r oldRefresh).step m (answer.event now jitter) = some (m', c')) :
    (exists grant expires, c' = .storing r oldRefresh grant expires ∧
      m'.streakAt r.pointer = m.streakAt r.pointer) ∨
    (forall r' old grant expires, c' ≠ .storing r' old grant expires) ∧
      m'.streakAt r.pointer =
        if answer.forbidden then m.streakAt r.pointer + 1 else 0 := by
  have hfails : forall (m₁ : Roster accounts) failure,
      failAttempt m₁ r now jitter failure = (m', c') ->
        (forall r' old grant expires, c' ≠ .storing r' old grant expires) ∧
          m'.streakAt r.pointer =
            if failure.forbidden then m₁.streakAt r.pointer + 1 else 0 := by
    intro m₁ failure heq
    have hcount := streakAt_failAttempt m₁ r now jitter failure
    have hnext := failAttempt_next m₁ r now jitter failure
    rw [heq] at hcount hnext
    refine ⟨?_, hcount⟩
    intro r' old grant expires hstoring
    rcases hnext with ⟨_, hsends, _⟩ | ⟨_, hended⟩
    · cases hstoring.symm.trans hsends
    · cases hstoring.symm.trans hended
  cases answer with
  | error e =>
      simp only [AuthAnswer.event, step, Option.some.injEq] at h
      right
      rcases hfails m e.failure h with ⟨hnot, hcount⟩
      refine ⟨hnot, hcount.trans ?_⟩
      cases e <;> rfl
  | ok response =>
      simp only [AuthAnswer.event, step] at h
      split at h
      · rename_i failure hread
        right
        simp only [Option.some.injEq] at h
        rcases hfails _ failure h with ⟨hnot, hcount⟩
        refine ⟨hnot, ?_⟩
        rw [hcount, streakAt_readAnswer, forbidden_readAnswer hread]
        rfl
      · rename_i grant hread
        left
        cases h
        exact ⟨grant, _, rfl, streakAt_readAnswer m r.pointer now response⟩

/-- Storing a granted token leaves the count; where it fails, and where the token
is published, the count starts over. -/
theorem streakAt_store {oldRefresh : String} {grant : Grant} {expires : Int}
    {now : I64} {jitter : Nat}
    (h : (storing r oldRefresh grant expires).step m (.store now jitter) =
      some (m', c')) :
    (exists token expires', c' = .publishing r token expires' ∧
      m'.streakAt r.pointer = m.streakAt r.pointer) ∨
    (forall r' token expires', c' ≠ .publishing r' token expires') ∧
      m'.streakAt r.pointer = 0 := by
  simp only [step] at h
  split at h
  · rename_i error _
    simp only [Option.some.injEq] at h
    have hcount := streakAt_failAttempt m r now jitter (nonRetryableAttempt error)
    have hnext := failAttempt_next m r now jitter (nonRetryableAttempt error)
    rw [h] at hcount hnext
    right
    refine ⟨?_, hcount⟩
    intro r' token expires' hpublishing
    rcases hnext with ⟨_, hsends, _⟩ | ⟨_, hended⟩
    · cases hpublishing.symm.trans hsends
    · cases hpublishing.symm.trans hended
  · rename_i m₁ hstored
    cases h
    left
    exact ⟨_, _, rfl, Roster.streakAt_storeRefreshedCredentials hstored⟩

theorem streakAt_publish {token : String} {expires : Int}
    (h : (publishing r token expires).step m .publish = some (m', c')) :
    m'.streakAt r.pointer = 0 := by
  cases h
  rw [Roster.streakAt_rewrite]
  rfl

end Cycle

/-!
## What the proxy manager does to the binding
-/

namespace ProxyEvent

theorem binds_of_not_onRoutes {id : String} {e : ProxyEvent}
    (h : e.onRoutes = false) : e.binds id = false := by
  cases e with
  | bound _ _ _ _ | restored =>
      cases h
  | _ => rfl

theorem rotatesOff_of_not_onRoutes {id : String} {e : ProxyEvent}
    (h : e.onRoutes = false) : e.rotatesOff id = false := by
  cases e with
  | dropped _ _ _ =>
      cases h
  | _ => rfl

theorem bindings_append {id : String} {log events : List ProxyEvent}
    (h : forall e, e ∈ events -> e.binds id = false) :
    bindings id (log ++ events) = bindings id log := by
  have hnone : events.countP (binds id) = 0 :=
    List.countP_eq_zero.mpr fun e he => by rw [h e he]; exact Bool.noConfusion
  rw [bindings, List.countP_append, hnone, Nat.add_zero]
  rfl

end ProxyEvent

namespace ProxyWorld

section Sections

variable {cfg : ProxyConfig} {s : ProxyWorld} {a : ProxyAction} {x : Section}
  {id : String}

/-- A section that does not stand before a new binding of the account makes
none. -/
theorem keepsBinding_of_section (hx : s.sectionOf cfg a = some x)
    (hold : (s.stands a).rebinds id = false) :
    (forall e, e ∈ x.events -> e.binds id = false) ∧
      (x.manager.routes.route id ≠ none -> s.manager.routes.route id ≠ none) := by
  have hquiet : forall {m : ProxyManager}, m.Quiet x ->
      (m.routes.route id ≠ none -> s.manager.routes.route id ≠ none) ->
      (forall e, e ∈ x.events -> e.binds id = false) ∧
        (x.manager.routes.route id ≠ none -> s.manager.routes.route id ≠ none) := by
    intro m h hroute
    constructor
    · exact fun e he => ProxyEvent.binds_of_not_onRoutes (h.events e he)
    · rw [h.routes]
      exact hroute
  cases routesStep_of_section hx with
  | quiet h =>
      exact hquiet h fun hroute => hroute
  | locked _ =>
      constructor
      · intro e he
        cases he
      · exact fun h => h
  | assigned ht =>
      rw [ht] at hold
      have hne := of_decide_eq_false hold
      constructor
      · intro e he
        rw [List.mem_singleton.mp he]
        exact decide_eq_false hne
      · intro h
        dsimp only at h
        rw [AccountRoutes.route_assign, if_neg (Ne.symm hne)] at h
        exact h
  | unbound _ h =>
      refine hquiet h fun hroute => ?_
      rw [AccountRoutes.route_unbind] at hroute
      split at hroute
      · exact absurd rfl hroute
      · exact hroute
  | refused _ h =>
      refine hquiet h fun hroute => ?_
      rw [AccountRoutes.route_refuse] at hroute
      split at hroute
      · exact absurd rfl hroute
      · exact hroute
  | verified _ h =>
      refine hquiet h fun hroute hnone => ?_
      rw [AccountRoutes.verify, AccountRoutes.route_modify] at hroute
      split at hroute
      · rename_i hid
        rw [← hid, hnone] at hroute
        exact hroute rfl
      · exact hroute hnone
  | failed _ h =>
      exact hquiet h fun hroute => hroute
  | retained _ h =>
      refine hquiet h fun hroute hnone => ?_
      rw [AccountRoutes.route_retain, hnone] at hroute
      exact hroute rfl
  | loaded ht _ =>
      rw [ht] at hold
      cases hold
  | dropped _ _ =>
      constructor
      · intro e he
        rw [List.mem_singleton.mp he]
        rfl
      · intro h
        dsimp only at h
        rw [AccountRoutes.route_rotate] at h
        split at h
        · exact absurd rfl h
        · exact h
  | forgotten _ h =>
      refine hquiet h fun hroute => ?_
      rw [AccountRoutes.route_forget] at hroute
      split at hroute
      · exact absurd rfl hroute
      · exact hroute
  | counted _ hcounted =>
      constructor
      · intro e he
        rw [List.mem_singleton.mp he]
        rfl
      · intro h hnone
        dsimp only at h
        rw [AccountRoutes.noteFailure, AccountRoutes.route_modify] at h
        split at h
        · rename_i hid
          rw [← hid, hnone] at h
          exact h rfl
        · exact h hnone
  | succeeded _ hsucceeded =>
      constructor
      · intro e he
        rw [List.mem_singleton.mp he]
        rfl
      · intro h hnone
        dsimp only at h
        rw [AccountRoutes.noteSuccess, AccountRoutes.route_modify] at h
        split at h
        · rename_i hid
          rw [← hid, hnone] at h
          exact h rfl
        · exact h hnone

/-- An account that is taken off its proxy had one. -/
theorem route_of_rotatesOff (hx : s.sectionOf cfg a = some x)
    (hoff : x.events.any (ProxyEvent.rotatesOff id) = true) :
    s.manager.routes.route id ≠ none := by
  rcases List.any_eq_true.mp hoff with ⟨e, he, heoff⟩
  have hquiet : forall {m : ProxyManager}, m.Quiet x -> False := by
    intro m h
    rw [ProxyEvent.rotatesOff_of_not_onRoutes (h.events e he)] at heoff
    cases heoff
  cases routesStep_of_section hx with
  | dropped ht hroute =>
      rename_i id' who route
      rw [List.mem_singleton.mp he] at heoff
      cases who with
      | failures =>
          cases heoff
      | caller =>
          rw [← of_decide_eq_true heoff, hroute]
          exact Option.some_ne_none route
  | assigned _ | loaded _ _ | counted _ _ | succeeded _ _ =>
      rw [List.mem_singleton.mp he] at heoff
      cases heoff
  | locked _ =>
      cases he
  | quiet h | unbound _ h | refused _ h | verified _ h | failed _ h
  | retained _ h | forgotten _ h =>
      exact (hquiet h).elim

/-- A call alone changes no binding. -/
theorem called_binding (cfg : ProxyConfig) (s : ProxyWorld) (c : ProxyCall)
    (now : Int) (id : String) :
    ProxyEvent.bindings id (s.called cfg c now).log =
        ProxyEvent.bindings id s.log ∧
      (s.called cfg c now).manager.routes.route id =
        s.manager.routes.route id := by
  have hquiet : s.manager.Quiet (s.manager.begin cfg now c) :=
    ProxyManager.quiet_begin s.manager now c
  constructor
  · exact ProxyEvent.bindings_append fun e he =>
      ProxyEvent.binds_of_not_onRoutes (hquiet.events e he)
  · show (s.manager.begin cfg now c).manager.routes.route id = _
    rw [hquiet.routes]

end Sections

end ProxyWorld

end HifiApi
