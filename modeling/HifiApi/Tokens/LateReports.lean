import HifiApi.Tokens.RefreshSteps
import HifiApi.Tokens.Rotation

/-!
# Late reports of a refused token

Many requests may report the same token as refused.  A report marks its own
token only, and the callers that get the lock after the first refresh has ended
find the new token there, which is not the one they have reported: they start no
cycle of their own.
-/

namespace HifiApi

open TokenManager

/-- Calls of {lit}`get_token`, {lit}`refresh_token` and
{lit}`refresh_after_unauthorized` on one account, without Redis. -/
def TokenManagerAction.OnlyOn (p : Nat) : TokenManagerAction -> Prop
  | .call q _ _ => q = p
  | .share _ _ raw => raw = none
  | .others _ => False
  | _ => True

instance (p : Nat) : (a : TokenManagerAction) -> Decidable (a.OnlyOn p)
  | .call q _ _ => inferInstanceAs (Decidable (q = p))
  | .share _ _ none => isTrue rfl
  | .share _ _ (some _) => isFalse nofun
  | .others _ => isFalse id
  | .lookUp _ | .lock _ | .enter _ _ | .acquire _ | .resolve _ _ _ _ _
  | .cycle _ _ | .expire _ _ _ | .leave _ | .dropLock _ | .wait _ => isTrue trivial

namespace TokenWorld

/-- The callers that start an auth request cycle. -/
def starts (_ : TokenWorld) : TokenManagerAction -> List Nat
  | .acquire i => [i]
  | _ => []

/-- What the callers are answered. -/
def answers (s : TokenWorld) :
    TokenManagerAction -> List (Nat × Except AppError String)
  | .enter i now =>
      match s.caller i with
      | some (job, .inside .entered) =>
          match enterRefresh now job.previous job.force
              (s.account job.pointer) with
          | .answered result => [(i, result)]
          | .proceed => []
      | _ => []
  | .share i now raw =>
      match s.caller i with
      | some (job, .inside .sharing) =>
          match sharedToken now (if job.force then job.previous else none) raw
              (s.account job.pointer) with
          | some (_, token) => [(i, .ok token)]
          | none => []
      | _ => []
  | .leave i =>
      match s.caller i with
      | some (_, .inside (.cycle (.ended result))) => [(i, result)]
      | _ => []
  | _ => []

/-- The callers that have reported a token, and get the lock while another one
is the token of the account, neither expired nor refused. -/
def granted (p : Nat) (reported token : String) (s : TokenWorld) :
    TokenManagerAction -> List Nat
  | .enter i now =>
      match s.caller i with
      | some (job, .inside .entered) =>
          if job.force = true ∧ job.previous = some reported ∧
              (s.account p).accessToken = some token ∧
              now.val < (s.account p).tokenExpiresAt ∧
              (s.account p).rejectedAccessToken ≠ some token then
            [i]
          else []
      | _ => []
  | _ => []

/-- A call on the account, while its lock is not lost. -/
def Ordinary (p : Nat) (s : TokenWorld) (a : TokenManagerAction) : Prop :=
  a.OnlyOn p ∧ s.OneRefreshLock a

instance (p : Nat) (s : TokenWorld) (a : TokenManagerAction) :
    Decidable (Ordinary p s a) :=
  inferInstanceAs (Decidable (_ ∧ _))

/-- One cycle is started, and it ends with a token. -/
structure Renewed (s : TokenWorld) (actions : List TokenManagerAction) (f : Nat)
    (token : String) (s' : TokenWorld) : Prop where
  run : tokenManagerSystem.run s actions = some s'
  first : tokenManagerSystem.history starts s actions = [f]
  ended : exists job,
    s'.caller f = some (job, .inside (.cycle (.ended (.ok token))))

/-- A report leaves every other token as it is, and only its own report marks a
token. -/
structure Harmless (p : Nat) (s : TokenWorld) (a : TokenManagerAction)
    (s' : TokenWorld) : Prop where
  newer : forall reported now, a = .call p (.refreshAfterUnauthorized reported) now ->
    forall token time, token ≠ reported ->
      cachedToken time (s.account p) = some token ->
      cachedToken time (s'.account p) = some token
  marks : forall token, (s'.account p).rejectedAccessToken = some token ->
    (s.account p).rejectedAccessToken = some token ∨
      (s.account p).accessToken = some token ∧
        exists now, a = .call p (.refreshAfterUnauthorized token) now

/-!
## Stages
-/

/-- How far a caller has come. -/
def stageHeight : Stage RefreshStage -> Nat
  | .waiting => 0
  | .inside .entered => 1
  | .inside .sharing => 2
  | .inside .queueing => 3
  | .inside .resolving => 4
  | .inside (.cycle _) => 5
  | .left => 6

def height (i : Nat) (s : TokenWorld) : Nat :=
  match s.caller i with
  | some (_, stage) => stageHeight stage
  | none => 0

section Heights

variable {s s' : TokenWorld} {a : TokenManagerAction} {i : Nat}

theorem height_of_caller {job : RefreshJob} {stage : Stage RefreshStage}
    (h : s.caller i = some (job, stage)) : s.height i = stageHeight stage := by
  unfold height
  rw [h]

theorem Goes.height_le {job : RefreshJob} {stage stage' : Stage RefreshStage}
    (h : s.Goes i job a stage stage') : stageHeight stage ≤ stageHeight stage' := by
  cases h with
  | leaves =>
      unfold stageHeight
      split <;> decide
  | locks | passes | queues | acquires =>
      decide
  | resolves | fails =>
      exact Nat.le_succ 4
  | cycles =>
      exact Nat.le_refl 5

/-- No caller goes back. -/
theorem height_mono (h : s.step a = some s') (i : Nat) :
    s.height i ≤ s'.height i := by
  cases hcaller : s.caller i with
  | none =>
      unfold height
      rw [hcaller]
      exact Nat.zero_le _
  | some found =>
      rcases found with ⟨job, stage⟩
      rcases caller_eq_some.mp hcaller with ⟨c, hc, hjob, hstage⟩
      have hlt := (List.getElem?_eq_some_iff.mp hc).choose
      have hlength := (stepped_of_step h).length_le
      have hafter : i < s'.refreshLocks.callers.length := by omega
      have hc' := List.getElem?_eq_getElem hafter
      rw [height_of_caller hcaller]
      rw [height_of_caller (caller_eq_some.mpr ⟨_, hc', rfl, rfl⟩)]
      rcases moves_or_joins h hc' with ⟨d, hd, _, _, hmoved⟩ | ⟨hnew, _⟩
      · cases hc.symm.trans hd
        rcases hmoved with hsame | hgoes
        · rw [hsame, hstage]
        · rw [← hstage]
          exact hgoes.height_le
      · omega

theorem height_of_step_acquire (h : s.step (.acquire i) = some s') :
    s.height i = 3 ∧ s'.height i = 4 := by
  simp only [step] at h
  split at h
  · rename_i job hcaller
    split at h
    · exact ⟨height_of_caller hcaller, height_of_caller (caller_of_advance hcaller h)⟩
    · cases h
  · cases h

/-- A caller that is past the semaphore starts no other cycle. -/
theorem not_started_after {actions : List TokenManagerAction}
    (hrun : tokenManagerSystem.run s actions = some s') (hheight : 4 ≤ s.height i) :
    i ∉ tokenManagerSystem.history starts s actions := by
  refine System.not_mem_history_of_le (fun _ _ _ h => height_mono h i) ?_ hrun hheight
  intro t a t' hstep hi
  cases a with
  | acquire j =>
      rw [List.mem_singleton.mp hi] at hheight ⊢
      rw [(height_of_step_acquire hstep).left]
      decide
  | _ =>
      cases hi

theorem not_started_before {actions : List TokenManagerAction}
    (hrun : tokenManagerSystem.run s actions = some s') (hheight : s'.height i < 4) :
    i ∉ tokenManagerSystem.history starts s actions := by
  refine System.not_mem_history_of_lt (fun _ _ _ h => height_mono h i) ?_ hrun hheight
  intro t a t' hstep hi
  cases a with
  | acquire j =>
      rw [List.mem_singleton.mp hi] at hheight ⊢
      rw [(height_of_step_acquire hstep).right]
  | _ =>
      cases hi

end Heights

/-!
## The token of the account
-/

/-- The token a refresh has got is the token of the account. -/
def Yields (held : Option String) : Stage RefreshStage -> Prop
  | .inside (.cycle (.storing _ _ grant _)) => grant.token ≠ ""
  | .inside (.cycle (.publishing _ token _)) => token ≠ "" ∧ held = some token
  | .inside (.cycle (.ended (.ok token))) => token ≠ "" ∧ held = some token
  | _ => True

theorem token_of_readAnswer {now : I64} {response : AuthResponse}
    {a : AccountState} {grant : Grant}
    (h : (readAnswer now response a).2 = .ok grant) : grant.token ≠ "" := by
  unfold readAnswer at h
  split at h
  · cases h
  · split at h
    · split at h
      · cases h
      · rename_i hgrant
        cases h
        exact (RefreshRun.readGrant_cases hgrant).left.right
    · cases h

theorem yields_of_cycle {p : Nat} {m m' : Roster accounts} {c c' : Cycle}
    {e : CycleEvent} (hholds : c.Holds p)
    (hc : Yields (m.memory.cells p).accessToken (.inside (.cycle c)))
    (h : c.step m e = some (m', c')) :
    Yields (m'.memory.cells p).accessToken (.inside (.cycle c')) ∧
      (m'.memory.cells p).rejectedAccessToken =
        (m.memory.cells p).rejectedAccessToken := by
  cases c with
  | sending r =>
      rcases Cycle.step_sending h with ⟨hkeeps, hasks | ⟨error, hended⟩⟩
      · rw [hasks]
        exact ⟨trivial, (hkeeps.cells p).rejected⟩
      · rw [hended]
        exact ⟨trivial, (hkeeps.cells p).rejected⟩
  | asking r oldRefresh =>
      rcases Cycle.step_asking h with ⟨hkeeps, ⟨r', hsends, _⟩ | ⟨error, hended⟩ |
        ⟨now, jitter, response, grant, _, hgrant, hstores⟩⟩
      · rw [hsends]
        exact ⟨trivial, (hkeeps.cells p).rejected⟩
      · rw [hended]
        exact ⟨trivial, (hkeeps.cells p).rejected⟩
      · rw [hstores]
        exact ⟨token_of_readAnswer hgrant, (hkeeps.cells p).rejected⟩
  | storing r oldRefresh grant expires =>
      rcases Cycle.step_storing h with ⟨now, jitter, _, hstored, hpublishes⟩ |
        ⟨hkeeps, error, hended⟩
      · have hrecord := (Roster.stored_of_ok hstored).record
        have hpointer : r.pointer = p := hholds
        rw [hpointer] at hrecord
        rw [hpublishes, hrecord]
        exact ⟨⟨hc, rfl⟩, rfl⟩
      · rw [hended]
        exact ⟨trivial, (hkeeps.cells p).rejected⟩
  | publishing r token expires =>
      have hsame := ((Cycle.step_publishing h).left.cells p)
      refine ⟨?_, hsame.rejected⟩
      rw [hsame.accessToken]
      cases e with
      | publish =>
          cases h
          exact hc
      | timeout now jitter =>
          cases h
          trivial
      | _ =>
          cases h
  | ended result =>
      cases h

/-!
## Steps
-/

/-- Every call is for one account, which has one lock, and a refresh that has got
a token has put it there. -/
structure OneAccount (p : Nat) (id : String) (s : TokenWorld) : Prop where
  sound : s.refreshLocks.Sound
  named : (s.account p).id = id
  called : forall job, job ∈ s.called -> job.pointer = p ∧ job.accountId = id
  callers : forall c, c ∈ s.refreshLocks.callers -> c.key = id ∧ c.job.pointer = p
  holds : forall c x, c ∈ s.refreshLocks.callers ->
    c.stage = .inside (.cycle x) -> x.Holds p
  yields : forall c, c ∈ s.refreshLocks.callers ->
    Yields (s.account p).accessToken c.stage

section OneAccount

variable {s s' : TokenWorld} {a : TokenManagerAction} {p i : Nat} {id : String}

theorem oneAccount_start (m : Roster accounts) (p : Nat) :
    (start m).OneAccount p (m.memory.cells p).id where
  sound := LockCache.sound_start
  named := rfl
  called := fun _ hjob => nomatch hjob
  callers := fun _ hc => nomatch hc
  holds := fun _ _ hc => nomatch hc
  yields := fun _ hc => nomatch hc

theorem OneAccount.pointer (h : s.OneAccount p id) {job : RefreshJob}
    {stage : Stage RefreshStage} (hcaller : s.caller i = some (job, stage)) :
    job.pointer = p := by
  rcases caller_eq_some.mp hcaller with ⟨c, hc, hjob, _⟩
  rw [← hjob]
  exact (h.callers c (List.mem_of_getElem? hc)).right

/-- A caller under the lock is the only one. -/
theorem OneAccount.alone (h : s.OneAccount p id) {j : Nat}
    {c c' : LockCaller String RefreshJob RefreshStage}
    (hi : s.refreshLocks.callers[i]? = some c)
    (hj : s.refreshLocks.callers[j]? = some c')
    (hc : c.stage.isInside = true) (hc' : c'.stage.isInside = true) : i = j := by
  apply h.sound.of_key hi hj hc hc'
  rw [(h.callers c (List.mem_of_getElem? hi)).left,
    (h.callers c' (List.mem_of_getElem? hj)).left]

/-- The token of the account, and the mark on it, are those of before. -/
structure SameMark (p : Nat) (s s' : TokenWorld) : Prop where
  token : (s'.account p).accessToken = (s.account p).accessToken
  mark : (s'.account p).rejectedAccessToken = (s.account p).rejectedAccessToken

theorem sameMark_of_keeps (h : s.roster.Keeps s'.roster) : SameMark p s s' :=
  ⟨(h.cells p).accessToken, (h.cells p).rejected⟩

theorem sameMark_of_roster (h : s'.roster = s.roster) : SameMark p s s' := by
  constructor
  · rw [account, h]
    rfl
  · rw [account, h]
    rfl

theorem keeps_rotateProxy (m : Roster accounts) (p : Nat) (rotates : Bool) :
    m.Keeps (rotateProxy m p rotates) := by
  unfold rotateProxy
  split
  · exact Roster.keeps_rewrite _ fun _ => ⟨rfl, rfl, rfl, rfl⟩
  · exact Roster.Keeps.refl m

/-- Before the answer of a cycle nothing but a report touches the token or its
mark. -/
theorem sameMark_of_step (honly : a.OnlyOn p) (hstep : s.step a = some s')
    (hcycle : forall i e, a ≠ .cycle i e)
    (hreport : forall q reported now,
      a ≠ .call q (.refreshAfterUnauthorized reported) now) : SameMark p s s' := by
  cases a with
  | call q kind now =>
      cases hstep
      cases kind with
      | getToken =>
          apply sameMark_of_roster
          unfold call
          dsimp only
          split <;> rfl
      | refreshToken =>
          exact sameMark_of_roster rfl
      | refreshAfterUnauthorized reported =>
          exact absurd rfl (hreport _ _ _)
  | lookUp k =>
      simp only [step] at hstep
      split at hstep
      · cases hstep
      · cases hstep
        exact sameMark_of_roster rfl
  | lock i | leave i | dropLock id =>
      exact sameMark_of_roster (withLocks_of_map hstep).right
  | enter i now =>
      simp only [step] at hstep
      split at hstep
      · split at hstep
        · exact sameMark_of_roster (withLocks_of_map hstep).right
        · exact sameMark_of_roster (withLocks_of_map hstep).right
      · cases hstep
  | share i now raw =>
      cases honly
      simp only [step] at hstep
      split at hstep
      · split at hstep
        · rename_i taken htaken
          simp [share, sharedToken] at htaken
        · exact sameMark_of_roster (withLocks_of_map hstep).right
      · cases hstep
  | acquire i =>
      simp only [step] at hstep
      split at hstep
      · split at hstep
        · exact sameMark_of_roster (withLocks_of_map hstep).right
        · cases hstep
      · cases hstep
  | resolve i rotates now jitter client =>
      simp only [step] at hstep
      split at hstep
      · rename_i job hcaller
        have hrotated := keeps_rotateProxy s.roster job.pointer rotates
        split at hstep
        · apply sameMark_of_keeps
          rw [(withLocks_of_map hstep).right]
          exact hrotated.trans (Roster.keeps_failRefresh _ _ _ _ _)
        · apply sameMark_of_keeps
          rw [(withLocks_of_map hstep).right]
          exact hrotated
      · cases hstep
  | cycle i e =>
      exact absurd rfl (hcycle i e)
  | expire i now jitter =>
      simp only [step] at hstep
      split at hstep
      · apply sameMark_of_keeps
        rw [(withLocks_of_map hstep).right]
        exact Roster.keeps_failRefresh _ _ _ _ _
      · cases hstep
  | others m =>
      exact absurd honly id
  | wait ms =>
      cases hstep
      exact sameMark_of_roster rfl

/-- A report marks the account's token if it is the one reported. -/
theorem account_of_report {reported : String} {now : I64}
    (hstep : s.step (.call p (.refreshAfterUnauthorized reported) now) = some s') :
    s'.account p = rejectAccessToken reported (s.account p) := by
  cases hstep
  exact Function.update_self _ _ _

theorem rejectAccessToken_accessToken (reported : String) (a : AccountState) :
    (rejectAccessToken reported a).accessToken = a.accessToken := by
  unfold rejectAccessToken
  split <;> rfl

theorem mark_of_rejectAccessToken {reported token : String} {a : AccountState}
    (h : (rejectAccessToken reported a).rejectedAccessToken = some token) :
    a.rejectedAccessToken = some token ∨
      token = reported ∧ a.accessToken = some token := by
  unfold rejectAccessToken at h
  split at h
  · rename_i heq
    cases h
    exact Or.inr ⟨rfl, heq⟩
  · exact Or.inl h

/-- A report does not touch another token. -/
theorem cachedToken_rejectAccessToken {reported token : String} {time : I64}
    {a : AccountState} (hne : token ≠ reported)
    (h : cachedToken time a = some token) :
    cachedToken time (rejectAccessToken reported a) = some token := by
  have hheld := (cachedToken_eq_some.mp h).left
  have hother : a.accessToken ≠ some reported := by
    intro heq
    exact hne (Option.some.inj (hheld.symm.trans heq))
  unfold rejectAccessToken
  rw [if_neg hother]
  exact h

theorem step_cycle {e : CycleEvent} (h : s.step (.cycle i e) = some s') :
    exists c x m x', s.refreshLocks.callers[i]? = some c ∧
      c.stage = .inside (.cycle x) ∧ x.step s.roster e = some (m, x') ∧
      s'.roster = m ∧
      s'.refreshLocks = s.refreshLocks.move i c (.inside (.cycle x')) := by
  simp only [step] at h
  split at h
  · rename_i job x hcaller
    split at h
    · rename_i m x' hx
      rcases caller_eq_some.mp hcaller with ⟨c, hc, _, hstage⟩
      rcases Option.map_eq_some_iff.mp h with ⟨g, hg, heq⟩
      rcases LockCache.advance_eq_some hg with ⟨d, was, hd, _, hmove⟩
      cases hc.symm.trans hd
      refine ⟨c, x, m, x', hc, hstage, hx, ?_, ?_⟩
      · rw [← heq]
        rfl
      · rw [← heq]
        exact hmove
    · cases h
  · cases h

/-- The steps keep this; only a report marks a token, and only its own. -/
theorem OneAccount.marks (h : s.OneAccount p id) (honly : a.OnlyOn p)
    (hstep : s.step a = some s') {token : String}
    (hmark : (s'.account p).rejectedAccessToken = some token) :
    (s.account p).rejectedAccessToken = some token ∨
      (s.account p).accessToken = some token ∧
        exists now, a = .call p (.refreshAfterUnauthorized token) now := by
  by_cases hcycle : exists i e, a = .cycle i e
  · rcases hcycle with ⟨i, e, ha⟩
    rw [ha] at hstep
    rcases step_cycle hstep with ⟨c, x, m, x', hc, hstage, hx, hroster, _⟩
    have hmem := List.mem_of_getElem? hc
    have hyields := h.yields c hmem
    rw [hstage] at hyields
    have hsame := (yields_of_cycle (h.holds c x hmem hstage) hyields hx).right
    rw [account, hroster, hsame] at hmark
    exact Or.inl hmark
  · by_cases hreport : exists q reported now,
        a = .call q (.refreshAfterUnauthorized reported) now
    · rcases hreport with ⟨q, reported, now, ha⟩
      rw [ha] at honly hstep
      cases honly
      rw [account_of_report hstep] at hmark
      rcases mark_of_rejectAccessToken hmark with hold | ⟨heq, hheld⟩
      · exact Or.inl hold
      · rw [heq] at hheld ⊢
        exact Or.inr ⟨hheld, now, ha⟩
    · have hsame : SameMark p s s' := by
        apply sameMark_of_step honly hstep
        · exact fun i e ha => hcycle ⟨i, e, ha⟩
        · exact fun q reported now ha => hreport ⟨q, reported, now, ha⟩
      rw [hsame.mark] at hmark
      exact Or.inl hmark

theorem accessToken_of_step (honly : a.OnlyOn p) (hstep : s.step a = some s')
    (hcycle : forall i e, a ≠ .cycle i e) :
    (s'.account p).accessToken = (s.account p).accessToken := by
  by_cases hreport : exists q reported now,
      a = .call q (.refreshAfterUnauthorized reported) now
  · rcases hreport with ⟨q, reported, now, ha⟩
    rw [ha] at honly hstep
    cases honly
    rw [account_of_report hstep]
    exact rejectAccessToken_accessToken _ _
  · exact (sameMark_of_step honly hstep hcycle
      fun q reported now ha => hreport ⟨q, reported, now, ha⟩).token

theorem Goes.yields {job : RefreshJob} {stage stage' : Stage RefreshStage}
    {held : Option String} (h : s.Goes i job a stage stage')
    (hcycle : forall i e, a ≠ .cycle i e) : Yields held stage' := by
  cases h with
  | cycles => exact absurd rfl (hcycle _ _)
  | _ => trivial

theorem OneAccount.step (h : s.OneAccount p id) (honly : a.OnlyOn p)
    (hone : s.OneRefreshLock a) (hstep : s.step a = some s') :
    s'.OneAccount p id := by
  have hpointer : forall i job c, s.caller i = some (job, .inside (.cycle c)) ->
      c.Holds job.pointer := by
    intro i job c hcaller
    rcases caller_eq_some.mp hcaller with ⟨d, hd, hjob, hstage⟩
    rw [h.pointer hcaller]
    exact h.holds d c (List.mem_of_getElem? hd) hstage
  have hothers : forall m, a ≠ .others m := by
    intro m ha
    rw [ha] at honly
    exact honly
  have hentries := (retries_of_step hstep hothers hpointer).left
  constructor
  · exact (stepped_of_step hstep).sound h.sound hone
  · exact (hentries.ids p).trans h.named
  · intro job hjob
    rcases called_of_step hstep hjob with hold | ⟨kind, now, hcalls, hid⟩
    · exact h.called job hold
    · rw [hcalls] at honly
      have hp : job.pointer = p := honly
      rw [hp] at hid
      exact ⟨hp, hid.trans h.named⟩
  · intro c' hc'
    rcases List.mem_iff_getElem?.mp hc' with ⟨j, hj⟩
    rcases moves_of_step hstep hj with ⟨c, hc, hkey, hjob, _⟩ |
      ⟨job, lock, hcalled, hnew⟩
    · rw [hkey, hjob]
      exact h.callers c (List.mem_of_getElem? hc)
    · rw [hnew]
      exact ⟨(h.called job hcalled).right, (h.called job hcalled).left⟩
  · intro c' x hc' hx
    rcases List.mem_iff_getElem?.mp hc' with ⟨j, hj⟩
    rcases moves_of_step hstep hj with ⟨c, hc, _, _, hstage⟩ | ⟨job, lock, _, hnew⟩
    · have hmem := List.mem_of_getElem? hc
      rcases hstage with hsame | hgoes
      · exact h.holds c x hmem (hsame.symm.trans hx)
      · rw [hx] at hgoes
        have hholds := hgoes.holds fun y hy => by
          rw [(h.callers c hmem).right]
          exact h.holds c y hmem hy
        rw [(h.callers c hmem).right] at hholds
        exact hholds
    · rw [hnew] at hx
      cases hx
  · intro c' hc'
    rcases List.mem_iff_getElem?.mp hc' with ⟨j, hj⟩
    by_cases hcycle : exists i e, a = .cycle i e
    · rcases hcycle with ⟨i, e, ha⟩
      rw [ha] at hstep
      rcases step_cycle hstep with
        ⟨c, x, m, x', hc, hstage, hx, hroster, hlocks⟩
      have hmem := List.mem_of_getElem? hc
      have hyields := h.yields c hmem
      rw [hstage] at hyields
      have hnext := (yields_of_cycle (h.holds c x hmem hstage) hyields hx).left
      rw [hlocks, LockCache.getElem?_move hc] at hj
      rw [account, hroster]
      split at hj
      · cases hj
        exact hnext
      · rename_i hne
        -- Nobody else is under the lock, so nobody else has got a token.
        have houtside : c'.stage.isInside = false := by
          apply Bool.eq_false_iff.mpr
          intro hinside
          exact hne (h.alone hc hj (by rw [hstage]; rfl) hinside)
        cases hstage' : c'.stage with
        | inside x =>
            rw [hstage'] at houtside
            cases houtside
        | waiting | left =>
            trivial
    · have hnot : forall i e, a ≠ .cycle i e := fun i e ha => hcycle ⟨i, e, ha⟩
      rw [accessToken_of_step honly hstep hnot]
      rcases moves_of_step hstep hj with ⟨c, hc, _, _, hstage⟩ | ⟨job, lock, _, hnew⟩
      · rcases hstage with hsame | hgoes
        · rw [hsame]
          exact h.yields c (List.mem_of_getElem? hc)
        · exact hgoes.yields hnot
      · rw [hnew]
        trivial

theorem OneAccount.harmless (h : s.OneAccount p id) (honly : a.OnlyOn p)
    (hstep : s.step a = some s') : Harmless p s a s' where
  newer := by
    intro reported now ha token time hne hcached
    rw [ha] at hstep
    rw [account_of_report hstep]
    exact cachedToken_rejectAccessToken hne hcached
  marks := fun _ hmark => h.marks honly hstep hmark

end OneAccount

/-!
## Callers that find a new token
-/

section Granted

variable {s s' : TokenWorld} {a : TokenManagerAction} {p i : Nat}
  {reported token : String} {id : String}

/-- A caller that gets the lock while another token is current is answered with
it, and leaves. -/
theorem OneAccount.granted (h : s.OneAccount p id) (htoken : token ≠ "")
    (hne : token ≠ reported) (hi : i ∈ granted p reported token s a)
    (hstep : s.step a = some s') :
    (i, .ok token) ∈ s.answers a ∧ s.height i = 1 ∧ s'.height i = 6 := by
  cases a with
  | enter j now =>
      simp only [TokenWorld.granted] at hi
      split at hi
      · rename_i job hcaller
        split at hi
        · rename_i hcurrent
          rcases hcurrent with ⟨hforce, hprevious, hheld, hlive, hmark⟩
          have hij := List.mem_singleton.mp hi
          have hpointer := h.pointer hcaller
          have hcached : cachedToken now (s.account job.pointer) = some token := by
            rw [hpointer]
            exact cachedToken_eq_some.mpr ⟨hheld, htoken, hlive, hmark⟩
          have hanswer : enterRefresh now job.previous job.force
              (s.account job.pointer) = .answered (.ok token) := by
            simp [enterRefresh, hcached, hforce, hprevious, Option.filter_some, hne]
          simp only [TokenWorld.step, hcaller, hanswer] at hstep
          simp only [answers, hcaller, hanswer]
          rcases Option.map_eq_some_iff.mp hstep with ⟨g, hg, heq⟩
          rcases LockCache.leave_eq_some hg with ⟨c, hc, hmove⟩
          refine ⟨by rw [hij]; exact List.mem_singleton_self _, ?_, ?_⟩
          · rw [hij]
            exact height_of_caller hcaller
          · have hleft : s'.caller j = some (c.job, .left) := by
              refine caller_eq_some.mpr ⟨{ c with stage := .left }, ?_, rfl, rfl⟩
              rw [← heq, hmove]
              exact (LockCache.getElem?_move hc).trans (if_pos rfl)
            rw [hij]
            exact height_of_caller hleft
        · cases hi
      · cases hi
  | _ =>
      cases hi

theorem OneAccount.run {actions : List TokenManagerAction} (h : s.OneAccount p id)
    (halong : tokenManagerSystem.Along (Ordinary p) s actions)
    (hrun : tokenManagerSystem.run s actions = some s') : s'.OneAccount p id :=
  System.run_invariant_along (I := OneAccount p id)
    (fun _ _ _ h ha hstep => h.step ha.left ha.right hstep) h halong hrun

/-- Over a run: the caller is answered, had not started a cycle before, and does
not start one. -/
theorem OneAccount.granted_run {actions : List TokenManagerAction}
    (h : s.OneAccount p id) (halong : tokenManagerSystem.Along (Ordinary p) s actions)
    (hrun : tokenManagerSystem.run s actions = some s') (htoken : token ≠ "")
    (hne : token ≠ reported)
    (hi : i ∈ tokenManagerSystem.history (TokenWorld.granted p reported token) s
      actions) :
    (i, .ok token) ∈ tokenManagerSystem.history answers s actions ∧
      s.height i ≤ 1 ∧ i ∉ tokenManagerSystem.history starts s actions := by
  rcases System.exists_step_of_mem_history hrun hi with
    ⟨before, a, after, t, t', heq, hbefore, hout, hstep, hafter⟩
  rw [heq] at halong ⊢
  have ht := h.run ((System.along_append hbefore).mp halong).left hbefore
  rcases ht.granted htoken hne hout hstep with ⟨hanswer, hbelow, habove⟩
  have hmono := System.height_le_of_run (fun _ _ _ h => height_mono h i) hbefore
  refine ⟨System.mem_history_of_step after hbefore hstep hanswer, by omega, ?_⟩
  rw [System.history_append hbefore, List.mem_append, not_or]
  constructor
  · exact not_started_before hbefore (by omega)
  · have hnow : i ∉ starts t a := by
      intro hstarts
      cases a with
      | acquire j =>
          rw [List.mem_singleton.mp hstarts] at hbelow
          have hqueueing := (height_of_step_acquire hstep).left
          omega
      | _ =>
          cases hstarts
    have hlater := not_started_after hafter (i := i) (by omega)
    simp only [System.history, hstep, List.mem_append, not_or]
    exact ⟨hnow, hlater⟩

end Granted

end TokenWorld

open TokenWorld

/-- A late report harms no newer token, and the callers that get the lock after
the first refresh has ended return its token without a cycle of their own. -/
theorem lateReports_coalesce (m : Roster accounts) (p : Nat)
    (actions : List TokenManagerAction) (s' : TokenWorld)
    (halong : tokenManagerSystem.Along (Ordinary p) (.start m) actions)
    (hrun : tokenManagerSystem.run (.start m) actions = some s') :
    tokenManagerSystem.Along
      (fun s a => forall t, s.step a = some t -> Harmless p s a t)
      (.start m) actions ∧
    forall earlier before after s₁ mid reported token f,
      actions = earlier ++ before ++ after ->
      tokenManagerSystem.run (.start m) earlier = some s₁ ->
      Renewed s₁ before f token mid -> token ≠ reported ->
      (forall i,
        i ∈ tokenManagerSystem.history (TokenWorld.granted p reported token)
          mid after ->
        (i, .ok token) ∈ tokenManagerSystem.history answers mid after) ∧
      (tokenManagerSystem.history starts (.start m) actions).filter
        (fun i => i = f ∨
          i ∈ tokenManagerSystem.history (TokenWorld.granted p reported token)
            mid after) = [f] := by
  have hstart := oneAccount_start m p
  constructor
  · exact System.along_of_invariant
      (I := OneAccount p (m.memory.cells p).id)
      (fun _ _ _ h ha hstep => h.step ha.left ha.right hstep)
      (fun _ _ h ha _ hstep => h.harmless ha.left hstep) hstart halong
  · intro earlier before after s₁ mid reported token f hactions hearlier hrenewed hne
    rcases hrenewed with ⟨hbefore, hfirst, job, hended⟩
    rw [hactions] at halong hrun ⊢
    have hmid : tokenManagerSystem.run (.start m) (earlier ++ before) = some mid :=
      System.run_append_some.mpr ⟨s₁, hearlier, hbefore⟩
    rcases System.run_append_some.mp hrun with ⟨mid', hmid', hafter⟩
    cases hmid.symm.trans hmid'
    have hsplit := (System.along_append hmid).mp halong
    have hone := hstart.run hsplit.left hmid
    have htoken : token ≠ "" := by
      rcases caller_eq_some.mp hended with ⟨c, hc, _, hstage⟩
      have hyields := hone.yields c (List.mem_of_getElem? hc)
      rw [hstage] at hyields
      exact hyields.left
    have hgranted := fun i => hone.granted_run (i := i) hsplit.right hafter htoken hne
    refine ⟨fun i hi => (hgranted i hi).left, ?_⟩
    have hheight : mid.height f = 5 := height_of_caller hended
    have hbeforeStart : s₁.height f < 4 := by
      have hmem : f ∈ tokenManagerSystem.history starts s₁ before := by
        rw [hfirst]
        exact List.mem_singleton_self f
      by_contra hhigh
      exact not_started_after hbefore (Nat.le_of_not_lt hhigh) hmem
    rw [System.history_append hmid, System.history_append hearlier, hfirst,
      List.filter_append, List.filter_append]
    have hnone : forall {s : TokenWorld} {run : List TokenManagerAction},
        f ∉ tokenManagerSystem.history starts s run ->
        (forall i, i ∈ tokenManagerSystem.history
          (TokenWorld.granted p reported token) mid after ->
            i ∉ tokenManagerSystem.history starts s run) ->
        (tokenManagerSystem.history starts s run).filter
          (fun i => i = f ∨ i ∈ tokenManagerSystem.history
            (TokenWorld.granted p reported token) mid after) = [] := by
      intro s run hf hothers
      apply List.filter_eq_nil_iff.mpr
      intro i hi hin
      rcases of_decide_eq_true hin with heq | hin
      · rw [heq] at hi
        exact hf hi
      · exact hothers i hin hi
    have hearly : forall i, i ∈ tokenManagerSystem.history
        (TokenWorld.granted p reported token) mid after ->
          i ∉ tokenManagerSystem.history starts (.start m) earlier := by
      intro i hi
      have hlow := (hgranted i hi).right.left
      have hmono := System.height_le_of_run (fun _ _ _ h => height_mono h i) hbefore
      exact not_started_before hearlier (by omega)
    rw [hnone (not_started_before hearlier hbeforeStart) hearly,
      hnone (not_started_after hafter (by omega))
        fun i hi => (hgranted i hi).right.right]
    simp

/-- An answer of the auth server with an access token. -/
def grantOf (token : String) : AuthResponse where
  status := ⟨200, "OK"⟩
  retryAfter := none
  body := .object [("access_token", .string token), ("expires_in", .number 3600)]

/-- A caller that gets the lock, and a token. -/
def renews (i : Nat) (token : String) : List TokenManagerAction :=
  [.lock i, .enter i 0, .share i 0 none, .acquire i, .resolve i false 0 0 (.ok ()),
    .cycle i .send, .cycle i (.answer 0 0 (.ok (grantOf token))),
    .cycle i (.store 0 0), .cycle i .publish]

def firstToken : List TokenManagerAction :=
  [TokenManagerAction.call 0 .getToken 0, .lookUp 0] ++ renews 0 "old" ++
    [TokenManagerAction.leave 0]

/-- Two requests report the first token, and one of them gets the lock. -/
def reportedTwice : List TokenManagerAction :=
  [TokenManagerAction.call 0 (.refreshAfterUnauthorized "old") 0,
    .call 0 (.refreshAfterUnauthorized "old") 0, .lookUp 0, .lookUp 0] ++
    renews 1 "new"

def secondCaller : List TokenManagerAction :=
  [.leave 1, .lock 2, .enter 2 0]

theorem reportedTwice_ordinary :
    tokenManagerSystem.Along (Ordinary 0) (.start oneTokenless)
      (firstToken ++ reportedTwice ++ secondCaller) := by
  decide

theorem lateReports_coalesce_reportedTwice :
    exists s₁ mid, tokenManagerSystem.run (.start oneTokenless) firstToken = some s₁ ∧
      tokenManagerSystem.run s₁ reportedTwice = some mid ∧
      (2, .ok "new") ∈ tokenManagerSystem.history answers mid secondCaller := by
  refine ⟨_, _, rfl, rfl, ?_⟩
  have hboth := (lateReports_coalesce oneTokenless 0
    (firstToken ++ reportedTwice ++ secondCaller) _ reportedTwice_ordinary rfl).right
    firstToken reportedTwice secondCaller _ _ "old" "new" 1 rfl rfl
    ⟨rfl, rfl, _, rfl⟩ (by decide)
  exact hboth.left 2 (by decide)

end HifiApi
