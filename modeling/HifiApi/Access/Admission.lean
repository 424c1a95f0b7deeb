import HifiApi.Access.Guesses

/-!
# What lets a request in

A request reaches its handler by one of three ways: the path or the empty roster lets
everyone in, a right credential was judged after the guard had found no lock, or an API
key of the roster had uses left.  This holds of every answer of every run, whatever steps
of other requests came between.
-/

namespace HifiApi

namespace Access

variable {Ip : Type} [DecidableEq Ip]

/-- The request finds no running lock in this step. -/
def Ticket.passes (guard : GuardState Ip) (ticket : Ticket Ip) : List (Request Ip) :=
  if ticket.stage = .check ∧ guard.left ticket.request.ip ticket.request.now = none then
    [ticket.request]
  else []

/-- The requests that pass the guard in a step. -/
def passed (g : Gate Ip) : Action Ip -> List (Request Ip)
  | .advance i _ _ => g.tickets[i]?.elim [] (Ticket.passes g.guard)
  | .arrive _ | .roster _ => []

/-- Nothing is asked of the request. -/
def Unasked (g : Gate Ip) (r : Request Ip) : Prop :=
  exists path, r.entry = .api path ∧ (Request.exempt path = true ∨ g.activeCount = 0)

/-- The request presents the admin key, or a session if it is for an admin route, or there
is no admin key. -/
def Owner (c : Secrets) (clock : UtcSecond) (r : Request Ip) : Prop :=
  (c.adminKey ≠ "" ∧ r.adminKey = c.adminKey) ∨
    r.entry = .admin ∧ (c.adminKey = "" ∨
      AdminSession.validSession c.sha256 r.headers c.adminKey clock = true)

/-- The request presents an active key of the roster that has uses left. -/
def Metered (c : Secrets) (g : Gate Ip) (r : Request Ip) : Prop :=
  exists raw k, r.apiKey = some raw ∧ k ∈ g.keys ∧ k.isActive = true ∧
    k.keyHash = c.hashKey raw ∧
    (k.quota.val = 0 ∨ (k.used.wrappingAdd 1).val ≤ k.quota.val)

/-- What a request under way has behind it. -/
def Behind (c : Secrets) (log : List (Request Ip)) (ticket : Ticket Ip) : Prop :=
  (ticket.stage = .judge -> ticket.request ∈ log) ∧
    (ticket.stage ≠ .consume -> forall path, ticket.request.entry = .api path ->
      c.adminKey ≠ "")

/-!
## One step
-/

section Steps

variable {c : Secrets} {g g' : Gate Ip} {log : List (Request Ip)} {i : Nat} {r : Request Ip}
  {stage : Stage} {clock : UtcSecond} {order : Table.Iteration (Ip × IpActivity)}

omit [DecidableEq Ip] in
theorem behind_mono {log' : List (Request Ip)} (hlog : log ⊆ log') {tickets : List (Ticket Ip)}
    (h : forall ticket, ticket ∈ tickets -> Behind c log ticket) :
    forall ticket, ticket ∈ tickets -> Behind c log' ticket :=
  fun ticket hticket =>
    ⟨fun hjudge => hlog ((h ticket hticket).left hjudge), (h ticket hticket).right⟩

omit [DecidableEq Ip] in
theorem behind_consume (r : Request Ip) : Behind c log ⟨r, .consume⟩ :=
  ⟨fun hjudge => (by cases hjudge), fun hconsume => absurd rfl hconsume⟩

omit [DecidableEq Ip] in
theorem behind_arrive (h : forall ticket, ticket ∈ g.tickets -> Behind c log ticket)
    (r : Request Ip) : forall ticket, ticket ∈ (g.arrive c r).1.tickets ->
      Behind c log ticket := by
  have hcheck : (forall path, r.entry = .api path -> c.adminKey ≠ "") ->
      Behind c log ⟨r, .check⟩ :=
    fun hkey => ⟨fun hjudge => (by cases hjudge), fun _ => hkey⟩
  unfold Gate.arrive
  cases hentry : r.entry with
  | login key =>
      refine Threads.forall_concat h (hcheck ?_)
      intro path hpath
      rw [hentry] at hpath
      cases hpath
  | admin =>
      refine Threads.forall_concat h (hcheck ?_)
      intro path hpath
      rw [hentry] at hpath
      cases hpath
  | api path =>
      dsimp only
      split
      · exact h
      · split
        · rename_i hkey
          exact Threads.forall_concat h (hcheck fun _ _ => hkey.left)
        · exact Threads.forall_concat h (behind_consume r)

theorem behind_check (h : forall ticket, ticket ∈ g.tickets -> Behind c log ticket)
    (hget : g.tickets[i]? = some ⟨r, .check⟩) :
    forall ticket, ticket ∈ (g.check i r).1.tickets ->
      Behind c (log ++ Ticket.passes g.guard ⟨r, .check⟩) ticket := by
  unfold Gate.check AdminAuthGuard.check
  cases hleft : g.guard.left r.ip r.now with
  | some seconds =>
      exact behind_mono (List.subset_append_left _ _) (Threads.forall_eraseIdx h)
  | none =>
      have hpasses : Ticket.passes g.guard ⟨r, .check⟩ = [r] := if_pos ⟨rfl, hleft⟩
      rw [hpasses]
      refine Threads.forall_modify (behind_mono (List.subset_append_left _ _) h) ?_
      intro ticket hticket
      rw [hget] at hticket
      cases hticket
      have hbehind := h _ (List.mem_of_getElem? hget)
      exact ⟨fun _ => List.mem_append_right _ List.mem_cons_self,
        fun _ => hbehind.right (by intro heq; cases heq)⟩

theorem behind_judge (h : forall ticket, ticket ∈ g.tickets -> Behind c log ticket) :
    forall ticket, ticket ∈ (g.judge c clock order i r).1.tickets ->
      Behind c log ticket := by
  have hleave := Threads.forall_eraseIdx (i := i) h
  have hmove : forall ticket, ticket ∈ g.tickets.modify i
      (fun t => { t with stage := Stage.consume }) -> Behind c log ticket := by
    refine Threads.forall_modify h ?_
    intro ticket _
    exact behind_consume ticket.request
  unfold Gate.judge
  cases r.credential c clock with
  | right => exact hleave
  | absent => exact hleave
  | wrong =>
      dsimp only
      rcases AdminAuthGuard.failed order r.ip r.now g.guard with ⟨guard, answer⟩
      cases answer with
      | some seconds => exact hleave
      | none =>
          dsimp only
          cases hrefusal : r.refusal with
          | ok outcome => exact hleave
          | error stage =>
              rw [refusal_error hrefusal]
              exact hmove

theorem behind_step {a : Action Ip}
    (h : forall ticket, ticket ∈ g.tickets -> Behind c log ticket)
    (hstep : (system c).step g a = some g') :
    forall ticket, ticket ∈ g'.tickets -> Behind c (log ++ passed g a) ticket := by
  cases a with
  | arrive r =>
      cases hstep
      rw [passed, List.append_nil]
      exact behind_arrive h r
  | roster keys =>
      cases hstep
      rw [passed, List.append_nil]
      exact h
  | advance i clock order =>
      have hstep' : (g.tickets[i]?.map fun ticket =>
          g.advance c clock order i ticket).map Prod.fst = some g' := hstep
      show forall ticket, ticket ∈ g'.tickets ->
        Behind c (log ++ g.tickets[i]?.elim [] (Ticket.passes g.guard)) ticket
      cases hget : g.tickets[i]? with
      | none =>
          rw [hget] at hstep'
          cases hstep'
      | some ticket =>
          rcases ticket with ⟨r, stage⟩
          rw [hget] at hstep'
          cases hstep'
          cases stage with
          | check => exact behind_check h hget
          | judge =>
              exact behind_mono (List.subset_append_left _ _) (behind_judge h)
          | consume =>
              refine behind_mono (List.subset_append_left _ _) ?_
              show forall ticket, ticket ∈ (g.consume c i r).1.tickets -> _
              unfold Gate.consume
              cases r.apiKey with
              | none => exact Threads.forall_eraseIdx h
              | some raw => exact Threads.forall_eraseIdx h

/-- The key that takes the use of a request is one that has uses left. -/
theorem served_of_consumeKey {hash : String} {keys : List ApiKeyState}
    (h : keyOutcome (some (consumeKey hash keys).2) = .served) :
    exists k, k ∈ keys ∧ k.isActive = true ∧ k.keyHash = hash ∧
      (k.quota.val = 0 ∨ (k.used.wrappingAdd 1).val ≤ k.quota.val) := by
  induction keys with
  | nil =>
      cases h
  | cons k rest ih =>
      unfold consumeKey at h
      split at h
      · rename_i hadmits
        have hboth : decide (k.keyHash = hash) = true ∧ k.isActive = true :=
          Bool.and_eq_true_iff.mp hadmits
        refine ⟨k, List.mem_cons_self, hboth.right, of_decide_eq_true hboth.left, ?_⟩
        rcases k.consume_cases hash with
          ⟨hno, _⟩ | ⟨_, hzero, _⟩ | ⟨_, _, _, heq⟩ | ⟨_, _, hunder, _⟩
        · rw [hadmits] at hno
          cases hno
        · exact Or.inl hzero
        · dsimp only at h
          rw [heq] at h
          cases h
        · exact Or.inr hunder
      · rcases ih h with ⟨k', hk', hrest⟩
        exact ⟨k', List.mem_cons_of_mem _ hk', hrest⟩

omit [DecidableEq Ip] in
theorem owner_of_right {r : Request Ip} (h : r.credential c clock = .right)
    (hwelcome : r.welcome c clock = .served)
    (hkey : forall path, r.entry = .api path -> c.adminKey ≠ "") : Owner c clock r := by
  unfold Request.welcome at hwelcome
  unfold Request.credential at h
  cases hentry : r.entry with
  | login key =>
      rw [hentry] at hwelcome
      cases hwelcome
  | admin =>
      rw [hentry] at h
      dsimp only at h
      split at h
      · rename_i hany
        by_cases hempty : c.adminKey = ""
        · exact Or.inr ⟨hentry, Or.inl hempty⟩
        · rcases hany with hnone | hheader | hsession
          · exact absurd hnone hempty
          · exact Or.inl ⟨hempty, hheader⟩
          · exact Or.inr ⟨hentry, Or.inr hsession⟩
      · split at h <;> cases h
  | api path =>
      rw [hentry] at h
      dsimp only at h
      split at h
      · rename_i hheader
        exact Or.inl ⟨hkey path hentry, hheader⟩
      · cases h

/-- What a step needs to let a request in. -/
theorem served_step {a : Action Ip}
    (h : forall ticket, ticket ∈ g.tickets -> Behind c log ticket)
    (hserved : ⟨r, .served⟩ ∈ answers c g a) :
    Unasked g r ∨ (r ∈ log ∧ exists clock, Owner c clock r) ∨ Metered c g r := by
  cases a with
  | arrive r' =>
      have harrive : (⟨r, .served⟩ : Answer Ip) ∈ (g.arrive c r').2 := hserved
      unfold Gate.arrive at harrive
      cases hentry : r'.entry with
      | login key =>
          rw [hentry] at harrive
          cases harrive
      | admin =>
          rw [hentry] at harrive
          cases harrive
      | api path =>
          rw [hentry] at harrive
          dsimp only at harrive
          split at harrive
          · rename_i hopen
            have hsame : r = r' :=
              (Answer.mk.inj (List.mem_singleton.mp harrive)).left
            rw [hsame]
            exact Or.inl ⟨path, hentry, hopen⟩
          · split at harrive <;> cases harrive
  | roster keys =>
      cases hserved
  | advance i clock order =>
      have hserved' : (⟨r, .served⟩ : Answer Ip) ∈ (((g.tickets[i]?.map fun ticket =>
          g.advance c clock order i ticket).map Prod.snd).getD []) := hserved
      cases hget : g.tickets[i]? with
      | none =>
          rw [hget] at hserved'
          cases hserved'
      | some ticket =>
          rcases ticket with ⟨r', stage⟩
          rw [hget] at hserved'
          have hbehind := h _ (List.mem_of_getElem? hget)
          cases stage with
          | check =>
              have hcheck : (⟨r, .served⟩ : Answer Ip) ∈ (g.check i r').2 := hserved'
              unfold Gate.check AdminAuthGuard.check at hcheck
              cases hleft : g.guard.left r'.ip r'.now with
              | some seconds =>
                  rw [hleft] at hcheck
                  have hsame := (Answer.mk.inj (List.mem_singleton.mp hcheck)).right
                  cases hsame
              | none =>
                  rw [hleft] at hcheck
                  cases hcheck
          | judge =>
              have hjudge : (⟨r, .served⟩ : Answer Ip) ∈
                  (g.judge c clock order i r').2 := hserved'
              refine Or.inr (Or.inl ?_)
              unfold Gate.judge at hjudge
              cases hcredential : r'.credential c clock with
              | right =>
                  rw [hcredential] at hjudge
                  have hsame := Answer.mk.inj (List.mem_singleton.mp hjudge)
                  rw [hsame.left]
                  exact ⟨hbehind.left rfl, clock,
                    owner_of_right hcredential hsame.right.symm
                      (hbehind.right (by intro heq; cases heq))⟩
              | absent =>
                  rw [hcredential] at hjudge
                  have hsame := (Answer.mk.inj (List.mem_singleton.mp hjudge)).right
                  cases hsame
              | wrong =>
                  rw [hcredential] at hjudge
                  dsimp only at hjudge
                  rcases hfailed : AdminAuthGuard.failed order r'.ip r'.now g.guard with
                    ⟨guard, answer⟩
                  rw [hfailed] at hjudge
                  cases answer with
                  | some seconds =>
                      have hsame := (Answer.mk.inj (List.mem_singleton.mp hjudge)).right
                      cases hsame
                  | none =>
                      dsimp only at hjudge
                      unfold Request.refusal at hjudge
                      cases hentry : r'.entry with
                      | login key =>
                          rw [hentry] at hjudge
                          have hsame := (Answer.mk.inj (List.mem_singleton.mp hjudge)).right
                          cases hsame
                      | admin =>
                          rw [hentry] at hjudge
                          have hsame := (Answer.mk.inj (List.mem_singleton.mp hjudge)).right
                          cases hsame
                      | api path =>
                          rw [hentry] at hjudge
                          cases hjudge
          | consume =>
              have hconsume : (⟨r, .served⟩ : Answer Ip) ∈ (g.consume c i r').2 := hserved'
              refine Or.inr (Or.inr ?_)
              unfold Gate.consume at hconsume
              cases hraw : r'.apiKey with
              | none =>
                  rw [hraw] at hconsume
                  have hsame := (Answer.mk.inj (List.mem_singleton.mp hconsume)).right
                  cases hsame
              | some raw =>
                  rw [hraw] at hconsume
                  have hsame := Answer.mk.inj (List.mem_singleton.mp hconsume)
                  rcases served_of_consumeKey hsame.right.symm with
                    ⟨k, hk, hactive, hhash, huses⟩
                  rw [hsame.left]
                  exact ⟨raw, k, hraw, hk, hactive, hhash, huses⟩

end Steps

/-!
## Whole runs
-/

/-- The guard found no lock for the request in some earlier step. -/
def Cleared (c : Secrets) (start : Instant) (before : List (Action Ip)) (r : Request Ip) :
    Prop :=
  exists early a late g, before = early ++ a :: late ∧
    (system c).run (Gate.new start) early = some g ∧ g.guard.left r.ip r.now = none

theorem cleared_of_passed {c : Secrets} {start : Instant} {before : List (Action Ip)}
    {g : Gate Ip} {r : Request Ip}
    (hrun : (system c).run (Gate.new start) before = some g)
    (h : r ∈ (system c).history passed (Gate.new start) before) :
    Cleared c start before r := by
  rcases System.exists_step_of_mem_history hrun h with
    ⟨early, a, late, t, _, heq, hearly, hpassed, _, _⟩
  refine ⟨early, a, late, t, heq, hearly, ?_⟩
  cases a with
  | arrive r' => cases hpassed
  | roster keys => cases hpassed
  | advance i clock order =>
      have hpassed' : r ∈ t.tickets[i]?.elim [] (Ticket.passes t.guard) := hpassed
      cases hget : t.tickets[i]? with
      | none =>
          rw [hget] at hpassed'
          cases hpassed'
      | some ticket =>
          rw [hget, Option.elim_some, Ticket.passes] at hpassed'
          split at hpassed'
          · rename_i hnone
            rw [List.mem_singleton.mp hpassed']
            exact hnone.right
          · cases hpassed'

/-- A request for a track with the key of the owner. -/
def ownerRequest : Request Nat :=
  ⟨1, [⟨"x-admin-key", some "secret"⟩], 0, .api "/track/"⟩

/-- The request while an API key is active. -/
def ownerRun : List (Action Nat) :=
  [.roster [⟨"k", "app", "h", "hifi_abcdefg", 0, 0, true, 0⟩], .arrive ownerRequest, goOn 0,
    goOn 0]

end Access

end HifiApi
