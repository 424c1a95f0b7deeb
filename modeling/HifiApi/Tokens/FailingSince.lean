import HifiApi.Fleet.Restore
import HifiApi.Tokens.RefreshSteps

/-!
# Since when the auth server refuses an account

An account that the auth server refuses for too long is switched off.  The time
of the first refusal is taken from the error of a whole refresh, which is that of
its last attempt and another one when the answer has a header
{lit}`Retry-After`: a refresh that is refused and ends otherwise is not dated.
-/

namespace HifiApi

open TokenManager

/-- A request to the auth server that gets no answer. -/
inductive TransportError where
  | timeout
  | connect
  | other (text : String)

/-- What {lit}`request_token_once` makes of it. -/
def TransportError.failure : TransportError -> TokenAttemptFailure
  | timeout => ⟨.timeout, true, 0, false⟩
  | connect => ⟨.badGateway "Connection error to Tidal", true, 0, false⟩
  | other text => ⟨.internal s!"Request error: {text}", false, 0, false⟩

/-- A refresh under way. -/
structure RefreshUnderWay where
  cycle : Cycle
  startedAt : I64
  /-- It has been answered 403. -/
  refused : Bool

/-- The refreshes of one account, one after the other. -/
structure RefusedAccount where
  roster : Roster accounts
  now : I64
  underWay : Option RefreshUnderWay
  /-- Start and end of the first refresh that has been answered 403 since the last
  success, owner's switch or exchange of the credentials. -/
  firstRefused : Option (I64 × I64)

inductive RefusedAction where
  | refresh (rotates : Bool)
  | send
  | answer (jitter : Nat) (response : Except TransportError AuthResponse)
  | store (jitter : Nat)
  | publish
  | timeout (jitter : Nat)
  | setAccountActive (active : Bool)
  | updateAccount (label clientId clientSecret refreshToken userId : Option String)
  | disableAfterAuthFailures (maxSecs : Int)
  | restart
  | elapse (now : I64)

/-- The step of the refresh under way. -/
def RefusedAction.event (now : I64) : RefusedAction -> Option CycleEvent
  | .send => some .send
  | .answer jitter (.error e) => some (.answer now jitter (.error e.failure))
  | .answer jitter (.ok response) => some (.answer now jitter (.ok response))
  | .store jitter => some (.store now jitter)
  | .publish => some .publish
  | .timeout jitter => some (.timeout now jitter)
  | .refresh _ | .setAccountActive _ | .updateAccount _ _ _ _ _
  | .disableAfterAuthFailures _ | .restart | .elapse _ => none

/-- The auth server answers 403. -/
def CycleEvent.refuses : CycleEvent -> Bool
  | .answer _ _ (.ok response) => decide (response.status.code = 403)
  | _ => false

namespace RefusedAccount

/-- The refresh under way goes on or ends. -/
def advance (s : RefusedAccount) (u : RefreshUnderWay) (e : CycleEvent)
    (m : Roster accounts) : Cycle -> RefusedAccount
  | .ended (.ok _) =>
      { s with
        roster := m
        underWay := none
        firstRefused := none }
  | .ended (.error _) =>
      { s with
        roster := m
        underWay := none
        firstRefused :=
          if u.refused || e.refuses then
            s.firstRefused.or (some (u.startedAt, s.now))
          else s.firstRefused }
  | c =>
      { s with
        roster := m
        underWay := some ⟨c, u.startedAt, u.refused || e.refuses⟩ }

/-- A change of the account between two refreshes. -/
def change (s : RefusedAccount) (id : String) (p : Nat) :
    RefusedAction -> Option RefusedAccount
  | .refresh rotates =>
      let m := TokenWorld.rotateProxy s.roster p rotates
      some
        { s with
          roster := m
          underWay := some ⟨firstAttempt p (m.memory.cells p), s.now, false⟩ }
  | .setAccountActive active =>
      some
        { s with
          roster := s.roster.editListed p (.setAccountActive active) s.now
          firstRefused := none }
  | .updateAccount label clientId clientSecret refreshToken userId =>
      let a := s.roster.memory.cells p
      let updated :=
        a.updateAccount label clientId clientSecret refreshToken userId s.now
      some
        { s with
          roster :=
            (s.roster.startEdit id (.updateAccount label clientId clientSecret
              refreshToken userId) s.now).1
          firstRefused :=
            if updated.credentials = a.credentials then s.firstRefused else none }
  | .disableAfterAuthFailures maxSecs =>
      some
        { s with
          roster :=
            s.roster.editListed p (.disableAfterAuthFailures maxSecs) s.now }
  | .restart => some { s with roster := s.roster.reload }
  | _ => none

def step (id : String) (s : RefusedAccount) (a : RefusedAction) :
    Option RefusedAccount :=
  match a with
  | .elapse now => if s.now ≤ now then some { s with now := now } else none
  | a =>
      match s.underWay with
      | some u =>
          match a.event s.now with
          | some e =>
              match u.cycle.step s.roster e with
              | some (m, c) => some (s.advance u e m c)
              | none => none
          | none => none
      | none =>
          match s.roster.memory.find? id with
          | some p => s.change id p a
          | none => none

/-- One account as a step system. -/
def system (id : String) : System RefusedAccount RefusedAction := ⟨step id⟩

/-!
## What is claimed
-/

/-- The account has been refused since a moment of the first refresh that was
answered 403, and is switched off when this is long enough ago. -/
structure Dated (s : RefusedAccount) (id : String) : Prop where
  refused : forall a, s.roster.lookup id = some a ->
    (a.authFailingSince ≠ 0 <-> s.firstRefused.isSome = true)
  within : forall a starts ends, s.roster.lookup id = some a ->
    s.firstRefused = some (starts, ends) ->
    starts.val ≤ a.authFailingSince ∧ a.authFailingSince ≤ ends.val
  off : forall a maxSecs now, s.roster.lookup id = some a ->
    (a.disableAfterAuthFailures maxSecs now).isSome = true ->
    0 < maxSecs ∧ (a.isActive || a.autoDisabled) = true ∧
      exists starts ends, s.firstRefused = some (starts, ends) ∧
        maxSecs ≤ now.val - starts.val
  switches : forall a maxSecs now starts ends, s.roster.lookup id = some a ->
    s.firstRefused = some (starts, ends) -> 0 < maxSecs ->
    (a.isActive || a.autoDisabled) = true -> maxSecs ≤ now.val - ends.val ->
    (a.disableAfterAuthFailures maxSecs now).isSome = true

/-- After the step, unless a refresh is under way, the account is dated. -/
def Dates (id : String) (s : RefusedAccount) (a : RefusedAction) : Prop :=
  forall s', s.step id a = some s' -> s'.underWay = none -> s'.Dated id

/-- A refresh that fails, and is the first one with an answer 403, ends with such
an answer and without a header {lit}`Retry-After`. -/
def EndsRefused (s : RefusedAccount) (a : RefusedAction) : Prop :=
  forall u e m error, s.underWay = some u -> a.event s.now = some e ->
    u.cycle.step s.roster e = some (m, .ended (.error error)) ->
    s.firstRefused = none -> (u.refused || e.refuses) = true ->
    exists jitter response, a = .answer jitter (.ok response) ∧
      response.status.code = 403 ∧ response.retryAfter = none

/-- The account is listed, its row has the same credentials, and it has not been
refused. -/
structure Starts (s : RefusedAccount) (id : String) : Prop where
  clock : 0 < s.now.val
  idle : s.underWay = none
  unrefused : s.firstRefused = none
  tied : exists p row, s.roster.Held id p row ∧
    row.credentials = (s.roster.memory.cells p).credentials ∧
    row.authFailingSince = 0 ∧ (s.roster.memory.cells p).authFailingSince = 0

end RefusedAccount

/-- The first refusal of an account is dated. -/
def FirstRefusalDated : Prop :=
  forall s id actions, RefusedAccount.Starts s id ->
    (RefusedAccount.system id).Along (RefusedAccount.Dates id) s actions

/-!
## What a failure dates
-/

namespace TokenManager

/-- The time of the first refusal after a refresh that fails with an error. -/
def failingAfter (now : I64) (since : Int) : AppError -> Int
  | .upstreamError status _ =>
      if status.code = 403 ∧ since = 0 then now.val else since
  | _ => since

theorem failRefresh_failing (now : I64) (jitter : Nat) (error : AppError)
    (a : AccountState) :
    (failRefresh now jitter error a).authFailingSince =
      failingAfter now a.authFailingSince error := by
  cases error <;> rfl

/-- Only an answer 403 without a header {lit}`Retry-After` dates a refusal. -/
def datesRefusal : AppError -> Bool
  | .upstreamError status _ => decide (status.code = 403)
  | _ => false

theorem failingAfter_eq (now : I64) (since : Int) (error : AppError) :
    failingAfter now since error =
      if datesRefusal error = true ∧ since = 0 then now.val else since := by
  cases error with
  | upstreamError status detail =>
      by_cases hstatus : status.code = 403
      · simp [failingAfter, datesRefusal, hstatus]
      · simp [failingAfter, datesRefusal, hstatus]
  | _ => rfl

/-- The failure of an answer, when it dates a refusal. -/
theorem datesRefusal_readAnswer {now : I64} {r : AuthResponse} {a : AccountState}
    {failure : TokenAttemptFailure}
    (h : (readAnswer now r a).2 = .error failure) :
    datesRefusal failure.error = true <->
      r.status.code = 403 ∧ r.retryAfter = none := by
  unfold readAnswer at h
  split at h
  · rename_i hlimited
    cases h
    simp [datesRefusal, hlimited]
  · split at h
    · rename_i hsuccess
      have hother : r.status.code ≠ 403 := by
        intro hrefused
        unfold StatusCode.isSuccess at hsuccess
        rw [hrefused] at hsuccess
        cases hsuccess
      split at h
      · rename_i refused hgrant
        cases h
        rcases readGrant_eq_error hgrant with ⟨text, heq⟩
        simp [heq, nonRetryableAttempt, datesRefusal, hother]
      · cases h
    · cases h
      unfold readFailure
      dsimp only
      split
      · rename_i hcredentials
        have hother : r.status.code ≠ 403 := by
          rcases hcredentials.left with hcode | hcode <;> simp [hcode]
        simp [nonRetryableAttempt, datesRefusal, hother]
      · cases hheader : r.retryAfter with
        | none => simp [datesRefusal]
        | some value => simp [datesRefusal]

end TokenManager

/-!
## The time in memory and in SQLite
-/

/-- The account is listed with a row of the same credentials; the times of the
first refusal in memory and in the row. -/
structure Roster.Tied (m : Roster accounts) (id : String) (p : Nat)
    (since saved : Int) : Prop where
  row : exists row, m.Held id p row ∧
    row.credentials = (m.memory.cells p).credentials ∧
    row.authFailingSince = saved
  record : (m.memory.cells p).authFailingSince = since

theorem AccountState.setSystemDisabled_failing {disabled : Bool} {now : I64}
    {a a' : AccountState} (h : a.setSystemDisabled disabled now = some a') :
    a'.authFailingSince = a.authFailingSince := by
  unfold setSystemDisabled at h
  split at h
  · cases h
  · split at h
    · cases h
    · cases h
      rfl

theorem readAnswer_failing (now : I64) (r : AuthResponse) (a : AccountState) :
    (readAnswer now r a).1.authFailingSince = a.authFailingSince := by
  unfold readAnswer
  split
  · rfl
  · split
    · split <;> rfl
    · rfl

namespace Roster

variable {m m' : Roster accounts} {id : String} {p : Nat} {since saved : Int}

theorem Tied.lookup (h : m.Tied id p since saved) :
    m.lookup id = some (m.memory.cells p) := by
  rcases h.row with ⟨row, hheld, _⟩
  exact hheld.lookup

theorem Tied.rewrite (h : m.Tied id p since saved)
    {f : AccountState -> AccountState} (hf : forall a, (f a).id = a.id)
    (hsame : forall a, (f a).credentials = a.credentials) {since' : Int}
    (hsince : (f (m.memory.cells p)).authFailingSince = since') :
    (m.rewrite p f hf).Tied id p since' saved := by
  rcases h.row with ⟨row, hheld, hcreds, hsaved⟩
  have hcell : (m.rewrite p f hf).memory.cells p = f (m.memory.cells p) :=
    Function.update_self ..
  refine ⟨⟨row, ⟨?_, hheld.row⟩, ?_, hsaved⟩, ?_⟩
  · exact (Arena.find?_write m.memory p _ (hf _) id).trans hheld.pointer
  · rw [hcell, hsame]
    exact hcreds
  · rw [hcell]
    exact hsince

theorem Tied.saveRefreshState (h : m.Tied id p since saved) :
    (m.saveRefreshState p).Tied id p since since := by
  rcases h.row with ⟨row, hheld, hcreds, _⟩
  have hid : (m.memory.cells p).id = id := hheld.idOf
  have hrow : row.id = (m.memory.cells p).id :=
    (Table.key_of_lookup hheld.row).trans hheld.idOf.symm
  have hsaves : AccountRow.persistRefreshState (m.memory.cells p) row =
      { row with
        healFailures := countColumn (m.memory.cells p).healFailures
        healNextRetry := (m.memory.cells p).healNextRetry
        rejectedAccessToken := (m.memory.cells p).rejectedAccessToken
        lastRefreshError := (m.memory.cells p).lastRefreshError
        authFailingSince := (m.memory.cells p).authFailingSince
        countryCode := (m.memory.cells p).countryCode.or row.countryCode } :=
    if_pos ⟨hrow, hcreds⟩
  refine ⟨⟨AccountRow.persistRefreshState (m.memory.cells p) row,
    ⟨hheld.pointer, ?_⟩, ?_, ?_⟩, h.record⟩
  · unfold Roster.saveRefreshState
    dsimp only
    rw [Table.lookup_update, if_pos hid.symm, hheld.row]
    rfl
  · rw [hsaves]
    exact hcreds
  · rw [hsaves]
    exact h.record

/-- A mutation of the listed record and of its row. -/
theorem Tied.editListed (h : m.Tied id p since saved) {e : AccountEdit}
    {now : I64} {since' saved' : Int}
    (hkeeps : e.apply now (m.memory.cells p) = none ->
      since' = since ∧ saved' = saved)
    (hrecord : forall a, e.apply now (m.memory.cells p) = some a ->
      a.credentials = (m.memory.cells p).credentials ∧
        a.authFailingSince = since')
    (hrow : forall a row, e.apply now (m.memory.cells p) = some a ->
      row.authFailingSince = saved ->
      (e.save now (m.memory.cells p) a row).credentials = row.credentials ∧
        (e.save now (m.memory.cells p) a row).authFailingSince = saved') :
    (m.editListed p e now).Tied id p since' saved' := by
  rcases h.row with ⟨row, hheld, hcreds, hsaved⟩
  have hid : (m.memory.cells p).id = id := hheld.idOf
  unfold Roster.editListed
  rw [if_pos hheld.listed]
  dsimp only
  split
  · rename_i hnone
    rcases hkeeps hnone with ⟨hsince, hsave⟩
    rw [hsince, hsave]
    exact h
  · rename_i a hedit
    rcases hrecord a hedit with ⟨hacreds, hasince⟩
    rcases hrow a row hedit hsaved with ⟨hrcreds, hrsince⟩
    have hstamps := (AccountEdit.apply_stamps hedit).left
    have hcell : (m.memory.write p a hstamps).cells p = a := by
      simp [Arena.write]
    refine ⟨⟨e.save now (m.memory.cells p) a row, ⟨?_, ?_⟩, ?_, hrsince⟩, ?_⟩
    · exact (Arena.find?_write m.memory p a hstamps id).trans hheld.pointer
    · dsimp only
      rw [Table.lookup_update, if_pos hid.symm, hheld.row]
      rfl
    · rw [hrcreds, hcreds, ← hacreds]
      exact congrArg AccountState.credentials hcell.symm
    · rw [← hasince]
      exact congrArg AccountState.authFailingSince hcell

/-- The end of a refresh that failed. -/
theorem Tied.failRefresh (h : m.Tied id p since saved) (now : I64)
    (jitter : Nat) (error : AppError) :
    (m.failRefresh p now jitter error).Tied id p (failingAfter now since error)
      (failingAfter now since error) := by
  have hdisabled : Tied
      (if disablesAccount error then
        m.editListed p (.setSystemDisabled true) now else m) id p since saved := by
    split
    · apply h.editListed
      · exact fun _ => ⟨rfl, rfl⟩
      · intro a hedit
        have hsame := setSystemDisabled_sameToken hedit
        refine ⟨hsame.credentials, ?_⟩
        rw [AccountState.setSystemDisabled_failing hedit]
        exact h.record
      · intro a row _ hrow
        exact ⟨rfl, hrow⟩
    · exact h
  have hfailing := failRefresh_failing now jitter error
    ((if disablesAccount error then
      m.editListed p (.setSystemDisabled true) now else m).memory.cells p)
  rw [hdisabled.record] at hfailing
  exact (hdisabled.rewrite
    (fun a => (failRefresh_sameToken now jitter error a).id)
    (fun a => (failRefresh_sameToken now jitter error a).credentials)
    hfailing).saveRefreshState

theorem Tied.rotateProxy (h : m.Tied id p since saved) (rotates : Bool) :
    (TokenWorld.rotateProxy m p rotates).Tied id p since saved := by
  unfold TokenWorld.rotateProxy
  split
  · apply h.rewrite
    · exact fun _ => rfl
    · exact h.record
  · exact h

/-- The owner's switch forgets the refusals. -/
theorem Tied.setAccountActive (h : m.Tied id p since saved) (active : Bool)
    (now : I64) : (m.editListed p (.setAccountActive active) now).Tied id p 0 0 := by
  apply h.editListed
  · intro hnone
    cases hnone
  · intro a hedit
    cases hedit
    exact ⟨rfl, rfl⟩
  · exact fun _ _ _ _ => ⟨rfl, rfl⟩

theorem Tied.disableAfterAuthFailures (h : m.Tied id p since saved)
    (maxSecs : Int) (now : I64) :
    (m.editListed p (.disableAfterAuthFailures maxSecs) now).Tied id p since
      saved := by
  apply h.editListed
  · exact fun _ => ⟨rfl, rfl⟩
  · intro a hedit
    simp only [AccountEdit.apply, AccountState.disableAfterAuthFailures] at hedit
    split at hedit
    · cases hedit
    · cases hedit
      exact ⟨rfl, h.record⟩
  · exact fun _ _ _ hrow => ⟨rfl, hrow⟩

/-- An edit forgets the refusals when it exchanges the credentials. -/
theorem Tied.updateAccount (h : m.Tied id p since saved)
    (label clientId clientSecret refreshToken userId : Option String)
    (now : I64) {since' : Int}
    (hsince : since' =
      if ((m.memory.cells p).updateAccount label clientId clientSecret refreshToken
          userId now).credentials = (m.memory.cells p).credentials then since
      else 0) :
    (m.startEdit id (.updateAccount label clientId clientSecret refreshToken
      userId) now).1.Tied id m.memory.fresh since' since' := by
  rcases h.row with ⟨row, hheld, _⟩
  have hrebuilt := rebuilt_updateAccount hheld label clientId clientSecret
    refreshToken userId now
  have hfailing : ((m.memory.cells p).updateAccount label clientId clientSecret
      refreshToken userId now).authFailingSince = since' := by
    rw [hsince, ← h.record]
    unfold AccountState.updateAccount
    dsimp only
    rw [AccountState.carryOver_authFailingSince]
    exact if_congr (by rw [← AccountState.carryOver_credentials]; rfl) rfl rfl
  constructor
  · refine ⟨_, hrebuilt.held, ?_, hfailing⟩
    rw [hrebuilt.record]
    rfl
  · rw [hrebuilt.record]
    exact hfailing

/-- A restart loads what the row holds. -/
theorem Tied.reload (h : m.Tied id p since since) (hsince : 0 ≤ since) :
    exists p', m.reload.Tied id p' since since := by
  rcases h.row with ⟨row, hheld, _, hsaved⟩
  have hlookup : m.reload.lookup id = some row.load := by
    rw [lookup_reload, hheld.row]
    rfl
  have hrow : m.reload.table.lookup id = some row.repair := by
    rw [row_reload, hheld.row]
    rfl
  rcases Arena.lookup_eq_some.mp hlookup with ⟨p', hlisted, hid, hcell⟩
  have hload : row.load.credentials = row.repair.credentials ∧
      row.load.authFailingSince = max row.authFailingSince 0 := by
    unfold AccountRow.load AccountState.setCountry
    dsimp only
    split <;> exact ⟨rfl, rfl⟩
  refine ⟨p', ⟨row.repair, ⟨Arena.find?_eq_some.mpr ⟨hlisted, hid⟩, hrow⟩, ?_,
    hsaved⟩, ?_⟩
  · rw [hcell]
    exact hload.left.symm
  · rw [hcell, hload.right, hsaved]
    exact Int.max_eq_left hsince

end Roster

/-!
## The steps of a refresh
-/

namespace Cycle

/-- What a step of a refresh does to the time of the first refusal. -/
inductive Dated (id : String) (p : Nat) (since saved : Int) (m' : Roster accounts) :
    Cycle -> CycleEvent -> Prop
  | goesOn {c' : Cycle} {e : CycleEvent} (saved' : Int)
      (hholds : c'.Holds p) (hopen : forall result, c' ≠ .ended result)
      (htied : m'.Tied id p since saved')
      (hstored : forall r token expires, c' = .publishing r token expires ->
        saved' = 0) : Dated id p since saved m' c' e
  | fails {e : CycleEvent} (now : I64) (error : AppError) (he : e.time = some now)
      (htied : m'.Tied id p (failingAfter now since error)
        (failingAfter now since error))
      (hdates : datesRefusal error = true <-> exists jitter response,
        e = .answer now jitter (.ok response) ∧ response.status.code = 403 ∧
          response.retryAfter = none) :
      Dated id p since saved m' (.ended (.error error)) e
  | succeeds {e : CycleEvent} (token : String) (hsaved : saved = 0)
      (htied : m'.Tied id p 0 0) : Dated id p since saved m' (.ended (.ok token)) e

section Steps

variable {id : String} {p : Nat} {since saved : Int} {m m' : Roster accounts}
  {c c' : Cycle} {e : CycleEvent}

theorem dated_failAttempt (h : m.Tied id p since saved) {r : Refreshing}
    (hr : r.pointer = p) {now : I64} {jitter : Nat}
    {failure : TokenAttemptFailure} (he : e.time = some now)
    (hdates : datesRefusal failure.error = true <-> exists jitter response,
      e = .answer now jitter (.ok response) ∧ response.status.code = 403 ∧
        response.retryAfter = none)
    (hstep : failAttempt m r now jitter failure = (m', c')) :
    Dated id p since saved m' c' e := by
  have hnoted : (m.rewrite r.pointer (noteFailure failure r.useBasic)
      fun a => (noteFailure_sameToken failure r.useBasic a).id).Tied id p since
        saved := by
    subst hr
    apply h.rewrite
    · exact fun a => (noteFailure_sameToken failure r.useBasic a).credentials
    · rw [← h.record]
      unfold noteFailure
      split <;> rfl
  unfold failAttempt at hstep
  split at hstep
  · cases hstep
    refine .goesOn saved hr (fun _ hended => by cases hended) hnoted ?_
    intro r' token expires heq
    cases heq
  · cases hstep
    subst hr
    exact .fails now failure.error he (hnoted.failRefresh now jitter _) hdates

/-- A failure without an answer 403 dates no refusal. -/
theorem undated_iff {error : AppError} {now : I64}
    (herror : datesRefusal error = false)
    (he : forall jitter response, e ≠ .answer now jitter (.ok response)) :
    datesRefusal error = true <-> exists jitter response,
      e = .answer now jitter (.ok response) ∧ response.status.code = 403 ∧
        response.retryAfter = none := by
  constructor
  · intro hdates
    cases herror.symm.trans hdates
  · rintro ⟨jitter, response, heq, _⟩
    exact absurd heq (he jitter response)

/-- A refresh that runs out of time. -/
theorem dated_timeout (h : m.Tied id p since saved) {r : Refreshing}
    (hr : r.pointer = p) {now : I64} {jitter : Nat}
    (hstep : (m.failRefresh r.pointer now jitter .timeout,
      Cycle.ended (.error .timeout)) = (m', c')) :
    Dated id p since saved m' c' (.timeout now jitter) := by
  cases hstep
  subst hr
  refine .fails now .timeout rfl (h.failRefresh now jitter _) ?_
  exact undated_iff rfl fun _ _ heq => by cases heq

theorem dated_store (h : m.Tied id p since saved) {r : Refreshing}
    (hr : r.pointer = p) {oldRefresh : String} {grant : Grant} {expires : Int}
    {now : I64}
    (hstore : m.storeRefreshedCredentials r.pointer oldRefresh grant.rotated
      grant.token expires now = .ok m') : m'.Tied id p since 0 := by
  subst hr
  have hok := Roster.stored_of_ok hstore
  rcases h.row with ⟨_, hheld, _⟩
  rcases hok.row with ⟨row, _, hmatches, hrow'⟩
  have hmatch := of_decide_eq_true hmatches
  rw [hheld.idOf] at hrow'
  refine ⟨⟨_, ⟨Arena.find?_eq_some.mpr ⟨?_, ?_⟩, hrow'⟩, ?_, rfl⟩, ?_⟩
  · rw [hok.roster]
    exact hok.listed
  · rw [hok.record]
    exact hheld.idOf
  · rw [hok.record]
    simp [AccountRow.persistToken, AccountRow.credentials,
      AccountState.credentials, hmatch]
  · rw [hok.record]
    exact h.record

/-- A token that is not stored dates no refusal. -/
theorem datesRefusal_store {q : Nat} {oldRefresh : String} {grant : Grant}
    {expires : Int} {now : I64} {error : AppError}
    (hstore : m.storeRefreshedCredentials q oldRefresh grant.rotated grant.token
      expires now = .error error) : datesRefusal error = false := by
  unfold Roster.storeRefreshedCredentials at hstore
  split at hstore
  · cases hstore
    rfl
  · dsimp only at hstore
    split at hstore
    · cases hstore
      rfl
    · split at hstore
      · cases hstore
      · cases hstore
        rfl

theorem dated_of_step (h : m.Tied id p since saved) (hc : c.Holds p)
    (hstored : forall r token expires, c = .publishing r token expires ->
      saved = 0)
    (he : forall now jitter failure, e = .answer now jitter (.error failure) ->
      datesRefusal failure.error = false)
    (hstep : c.step m e = some (m', c')) : Dated id p since saved m' c' e := by
  cases c with
  | sending r =>
      cases e with
      | send =>
          cases hstep
          exact .goesOn saved hc (fun _ hended => by cases hended) h
            fun _ _ _ heq => by cases heq
      | timeout now jitter => exact dated_timeout h hc (Option.some.inj hstep)
      | _ => cases hstep
  | asking r oldRefresh =>
      cases e with
      | answer now jitter response =>
          cases response with
          | error failure =>
              exact dated_failAttempt h hc rfl
                (undated_iff (he now jitter failure rfl)
                  fun _ _ heq => by cases heq) (Option.some.inj hstep)
          | ok response =>
              have hr : r.pointer = p := hc
              have hread : (m.rewrite r.pointer
                  (fun a => (readAnswer now response a).1)
                  fun a => (readAnswer_sameToken now response a).id).Tied id p
                    since saved := by
                subst hr
                apply h.rewrite
                · exact fun a => (readAnswer_sameToken now response a).credentials
                · rw [readAnswer_failing, h.record]
              simp only [step] at hstep
              split at hstep
              · rename_i failure hfailure
                apply dated_failAttempt hread hc rfl _ (Option.some.inj hstep)
                rw [datesRefusal_readAnswer hfailure]
                constructor
                · exact fun hrefused => ⟨jitter, response, rfl, hrefused⟩
                · rintro ⟨jitter', response', heq, hrefused⟩
                  cases heq
                  exact hrefused
              · cases hstep
                exact .goesOn saved hc (fun _ hended => by cases hended) hread
                  fun _ _ _ heq => by cases heq
      | timeout now jitter => exact dated_timeout h hc (Option.some.inj hstep)
      | _ => cases hstep
  | storing r oldRefresh grant expires =>
      cases e with
      | store now jitter =>
          simp only [step] at hstep
          split at hstep
          · rename_i error hrefused
            exact dated_failAttempt h hc rfl
              (undated_iff (datesRefusal_store hrefused)
                fun _ _ heq => by cases heq) (Option.some.inj hstep)
          · rename_i stored hstores
            cases hstep
            exact .goesOn 0 hc (fun _ hended => by cases hended)
              (dated_store h hc hstores) fun _ _ _ _ => rfl
      | timeout now jitter => exact dated_timeout h hc (Option.some.inj hstep)
      | _ => cases hstep
  | publishing r token expires =>
      cases e with
      | publish =>
          cases hstep
          have hr : r.pointer = p := hc
          have hzero := hstored r token expires rfl
          subst hr hzero
          refine .succeeds token rfl ?_
          apply h.rewrite
          · exact fun a => (finishRefresh_sameToken r.useBasic a).credentials
          · rfl
      | timeout now jitter => exact dated_timeout h hc (Option.some.inj hstep)
      | _ => cases hstep
  | ended result => cases hstep

end Steps

end Cycle

/-!
## One refresh after the other
-/

theorem AccountState.disableAfterAuthFailures_isSome (a : AccountState)
    (maxSecs : Int) (now : I64) :
    (a.disableAfterAuthFailures maxSecs now).isSome = true <->
      0 < maxSecs ∧ 0 < a.authFailingSince ∧
        maxSecs ≤ now.val - a.authFailingSince ∧
        (a.isActive || a.autoDisabled) = true := by
  unfold disableAfterAuthFailures
  dsimp only
  split
  · rename_i hnot
    constructor
    · intro h
      cases h
    · rintro ⟨hmax, hsince, hlong, henabled⟩
      rw [henabled] at hnot
      rcases hnot with h | h | h | h
      · omega
      · omega
      · omega
      · cases h
  · rename_i hyes
    simp only [not_or, not_le, not_lt, Bool.not_eq_false] at hyes
    exact ⟨fun _ => hyes, fun _ => rfl⟩

namespace RefusedAccount

/-- The time of the first refusal lies within the first refresh that was
answered 403. -/
def Spans (s : RefusedAccount) (since : Int) : Prop :=
  match s.firstRefused with
  | none => since = 0
  | some (starts, ends) =>
      0 < starts.val ∧ starts.val ≤ since ∧ since ≤ ends.val

/-- What the steps keep. -/
structure Kept (s : RefusedAccount) (id : String) (p : Nat) (since saved : Int) :
    Prop where
  clock : 0 < s.now.val
  tied : s.roster.Tied id p since saved
  spans : s.Spans since
  idle : s.underWay = none -> saved = since
  holds : forall u, s.underWay = some u -> u.cycle.Holds p
  started : forall u, s.underWay = some u ->
    0 < u.startedAt.val ∧ u.startedAt.val ≤ s.now.val
  stored : forall u r token expires, s.underWay = some u ->
    u.cycle = .publishing r token expires -> saved = 0

section Kept

variable {s s' : RefusedAccount} {id : String} {p : Nat} {since saved : Int}
  {a : RefusedAction}

/-- Between two refreshes. -/
theorem kept_of_idle (hidle : s.underWay = none) (hclock : 0 < s.now.val)
    (htied : s.roster.Tied id p since since) (hspans : s.Spans since) :
    s.Kept id p since since where
  clock := hclock
  tied := htied
  spans := hspans
  idle := fun _ => rfl
  holds := by
    intro u hu
    cases hidle.symm.trans hu
  started := by
    intro u hu
    cases hidle.symm.trans hu
  stored := by
    intro u r token expires hu
    cases hidle.symm.trans hu

theorem Starts.kept (h : s.Starts id) : exists p since saved,
    s.Kept id p since saved := by
  rcases h.tied with ⟨p, row, hheld, hcreds, hrow, hrecord⟩
  refine ⟨p, 0, 0, kept_of_idle h.idle h.clock ?_ ?_⟩
  · exact ⟨⟨row, hheld, hcreds, hrow⟩, hrecord⟩
  · rw [Spans, h.unrefused]

theorem Kept.dated (h : s.Kept id p since saved) : s.Dated id := by
  have hlookup := h.tied.lookup
  have hsince := h.tied.record
  have hspans := h.spans
  have hrecord : forall a, s.roster.lookup id = some a ->
      a.authFailingSince = since := by
    intro a ha
    cases hlookup.symm.trans ha
    exact hsince
  unfold Spans at hspans
  constructor
  · intro a ha
    rw [hrecord a ha]
    split at hspans
    · rename_i hnone
      simp [hnone, hspans]
    · rename_i starts ends hsome
      simp only [hsome, Option.isSome_some, iff_true]
      omega
  · intro a starts ends ha hsome
    rw [hsome] at hspans
    rw [hrecord a ha]
    exact hspans.right
  · intro a maxSecs now ha hoff
    rcases (a.disableAfterAuthFailures_isSome maxSecs now).mp hoff with
      ⟨hmax, hpositive, hlong, henabled⟩
    rw [hrecord a ha] at hpositive hlong
    refine ⟨hmax, henabled, ?_⟩
    split at hspans
    · omega
    · rename_i starts ends hsome
      exact ⟨starts, ends, hsome, by omega⟩
  · intro a maxSecs now starts ends ha hsome hmax henabled hlong
    rw [hsome] at hspans
    apply (a.disableAfterAuthFailures_isSome maxSecs now).mpr
    rw [hrecord a ha]
    exact ⟨hmax, by omega, by omega, henabled⟩

theorem advance_of_open {u : RefreshUnderWay} {e : CycleEvent}
    {m : Roster accounts} {c : Cycle}
    (hopen : forall result, c ≠ .ended result) :
    s.advance u e m c =
      { s with
        roster := m
        underWay := some ⟨c, u.startedAt, u.refused || e.refuses⟩ } := by
  cases c with
  | ended result => exact absurd rfl (hopen result)
  | _ => rfl

theorem eq_now_of_event {e : CycleEvent} {now : I64}
    (ha : a.event s.now = some e) (he : e.time = some now) : now = s.now := by
  cases a with
  | answer jitter response =>
      cases response with
      | error failure =>
          cases ha
          exact (Option.some.inj he).symm
      | ok response =>
          cases ha
          exact (Option.some.inj he).symm
  | store jitter =>
      cases ha
      exact (Option.some.inj he).symm
  | timeout jitter =>
      cases ha
      exact (Option.some.inj he).symm
  | _ =>
      cases ha
      try cases he

/-- A request without an answer dates no refusal. -/
theorem undated_of_event {e : CycleEvent} (ha : a.event s.now = some e)
    (now : I64) (jitter : Nat) (failure : TokenAttemptFailure)
    (he : e = .answer now jitter (.error failure)) :
    datesRefusal failure.error = false := by
  subst he
  cases a with
  | answer jitter response =>
      cases response with
      | error failure =>
          cases ha
          cases failure <;> rfl
      | ok response => cases ha
  | _ => cases ha

/-- A refresh that fails without having been refused dates nothing. -/
theorem refuses_of_dates {e : CycleEvent} {now : I64}
    (h : exists jitter response, e = .answer now jitter (.ok response) ∧
      response.status.code = 403 ∧ response.retryAfter = none) :
    e.refuses = true := by
  rcases h with ⟨jitter, response, rfl, hrefused, _⟩
  exact decide_eq_true hrefused

/-- The first refusal after a refresh that fails. -/
theorem Kept.spans_fails (h : s.Kept id p since saved) {u : RefreshUnderWay}
    {e : CycleEvent} {m : Roster accounts} {error : AppError}
    (hu : s.underWay = some u) (ha : a.event s.now = some e)
    (hstep : u.cycle.step s.roster e = some (m, .ended (.error error)))
    (hends : s.EndsRefused a)
    (hdates : datesRefusal error = true <-> exists jitter response,
      e = .answer s.now jitter (.ok response) ∧ response.status.code = 403 ∧
        response.retryAfter = none) :
    (s.advance u e m (.ended (.error error))).Spans
      (failingAfter s.now since error) := by
  have hspans := h.spans
  have hstarted := h.started u hu
  rw [failingAfter_eq]
  cases hfirst : s.firstRefused with
  | some span =>
      simp only [Spans, hfirst] at hspans
      have hdated : since ≠ 0 := by omega
      simp only [Spans, advance, hfirst, Option.some_or, ite_self, hdated,
        and_false, if_false]
      exact hspans
  | none =>
      simp only [Spans, hfirst] at hspans
      simp only [Spans, advance, hfirst, Option.none_or, hspans, and_true]
      by_cases hrefused : (u.refused || e.refuses) = true
      · rcases hends u e m error hu ha hstep hfirst hrefused with
          ⟨jitter, response, rfl, hanswer⟩
        have hdate : datesRefusal error = true :=
          hdates.mpr ⟨jitter, response, (Option.some.inj ha).symm, hanswer⟩
        rw [if_pos hrefused, if_pos hdate]
        exact ⟨hstarted.left, hstarted.right, Int.le_refl _⟩
      · have hundated : ¬ datesRefusal error = true := by
          intro hdate
          apply hrefused
          rw [refuses_of_dates (hdates.mp hdate), Bool.or_true]
        rw [if_neg hrefused, if_neg hundated]

theorem Kept.advance (h : s.Kept id p since saved) {u : RefreshUnderWay}
    {e : CycleEvent} {m : Roster accounts} {c : Cycle}
    (hu : s.underWay = some u) (ha : a.event s.now = some e)
    (hstep : u.cycle.step s.roster e = some (m, c)) (hends : s.EndsRefused a) :
    exists since' saved', (s.advance u e m c).Kept id p since' saved' := by
  have hdated := Cycle.dated_of_step h.tied (h.holds u hu)
    (fun r token expires hpublishing => h.stored u r token expires hu hpublishing)
    (undated_of_event ha) hstep
  cases hdated with
  | goesOn saved' hholds hopen htied hstored =>
      rw [advance_of_open hopen]
      refine ⟨since, saved', ?_⟩
      constructor
      · exact h.clock
      · exact htied
      · exact h.spans
      · intro hidle
        cases hidle
      · intro u' hu'
        cases hu'
        exact hholds
      · intro u' hu'
        cases hu'
        exact h.started u hu
      · intro u' r token expires hu' hpublishing
        cases hu'
        exact hstored r token expires hpublishing
  | fails now error he htied hdates =>
      cases eq_now_of_event ha he
      have hspans := h.spans_fails hu ha hstep hends hdates
      exact ⟨_, _, kept_of_idle rfl h.clock htied hspans⟩
  | succeeds token hsaved htied =>
      exact ⟨0, 0, kept_of_idle rfl h.clock htied rfl⟩

theorem Spans.nonneg (h : s.Spans since) : 0 ≤ since := by
  unfold Spans at h
  split at h <;> omega

theorem Kept.change (h : s.Kept id p since saved)
    (hidle : s.underWay = none) (hchange : s.change id p a = some s') :
    exists p' since' saved', s'.Kept id p' since' saved' := by
  cases h.idle hidle
  cases a with
  | refresh rotates =>
      cases hchange
      refine ⟨p, since, since, ?_⟩
      constructor
      · exact h.clock
      · exact h.tied.rotateProxy rotates
      · exact h.spans
      · exact fun _ => rfl
      · intro u hu
        cases hu
        rfl
      · intro u hu
        cases hu
        exact ⟨h.clock, Int.le_refl _⟩
      · intro u r token expires hu hpublishing
        cases hu
        cases hpublishing
  | setAccountActive active =>
      cases hchange
      exact ⟨p, 0, 0,
        kept_of_idle hidle h.clock (h.tied.setAccountActive active s.now) rfl⟩
  | updateAccount label clientId clientSecret refreshToken userId =>
      cases hchange
      have htied := h.tied.updateAccount label clientId clientSecret refreshToken
        userId s.now rfl
      refine ⟨_, _, _, kept_of_idle hidle h.clock htied ?_⟩
      by_cases hsame : ((s.roster.memory.cells p).updateAccount label clientId
          clientSecret refreshToken userId s.now).credentials =
            (s.roster.memory.cells p).credentials
      · simp only [Spans, hsame, if_true]
        exact h.spans
      · simp only [Spans, hsame, if_false]
  | disableAfterAuthFailures maxSecs =>
      cases hchange
      have htied := h.tied.disableAfterAuthFailures maxSecs s.now
      exact ⟨p, since, since, kept_of_idle hidle h.clock htied h.spans⟩
  | restart =>
      cases hchange
      rcases h.tied.reload h.spans.nonneg with ⟨p', htied⟩
      exact ⟨p', since, since, kept_of_idle hidle h.clock htied h.spans⟩
  | _ => cases hchange

theorem Kept.elapse (h : s.Kept id p since saved) {now : I64}
    (hnow : s.now ≤ now) :
    ({ s with now := now } : RefusedAccount).Kept id p since saved := by
  have hlater : s.now.val ≤ now.val := hnow
  have hclock := h.clock
  constructor
  · show 0 < now.val
    omega
  · exact h.tied
  · exact h.spans
  · exact h.idle
  · exact h.holds
  · intro u hu
    have hstarted := h.started u hu
    exact ⟨hstarted.left, Int.le_trans hstarted.right hlater⟩
  · exact h.stored

/-- The step keeps what it finds, as long as a refused refresh ends so. -/
theorem Kept.step (h : s.Kept id p since saved) (hends : s.EndsRefused a)
    (hstep : s.step id a = some s') :
    exists p' since' saved', s'.Kept id p' since' saved' := by
  unfold RefusedAccount.step at hstep
  split at hstep
  · split at hstep
    · rename_i hnow
      cases hstep
      exact ⟨p, since, saved, h.elapse hnow⟩
    · cases hstep
  · split at hstep
    · rename_i u hu
      split at hstep
      · rename_i e he
        split at hstep
        · rename_i m c hcycle
          cases hstep
          exact ⟨p, h.advance hu he hcycle hends⟩
        · cases hstep
      · cases hstep
    · rename_i hidle
      rcases h.tied.row with ⟨row, hheld, _⟩
      rw [hheld.pointer] at hstep
      exact h.change hidle hstep

/-- An account that is dated after a refresh has been refused at its end. -/
theorem Kept.endsRefused (h : s.Kept id p since saved)
    (hdates : s.Dates id a) : s.EndsRefused a := by
  intro u e m error hu ha hcycle hfirst hrefused
  have hspans := h.spans
  simp only [Spans, hfirst] at hspans
  have hstep : s.step id a =
      some (s.advance u e m (.ended (.error error))) := by
    cases a with
    | elapse now => cases ha
    | _ =>
        simp only [RefusedAccount.step, hu, ha, hcycle]
  have hdated := hdates _ hstep rfl
  have hmoved := Cycle.dated_of_step h.tied (h.holds u hu)
    (fun r token expires hpublishing => h.stored u r token expires hu hpublishing)
    (undated_of_event ha) hcycle
  cases hmoved with
  | goesOn saved' hholds hopen => exact absurd rfl (hopen _)
  | fails now _ he htied hanswer =>
      have hsince : failingAfter now since error ≠ 0 := by
        rw [← htied.record]
        apply (hdated.refused _ htied.lookup).mpr
        simp only [RefusedAccount.advance, hfirst, hrefused, if_true,
          Option.none_or, Option.isSome_some]
      rw [failingAfter_eq, hspans] at hsince
      by_cases hdate : datesRefusal error = true
      · rcases hanswer.mp hdate with ⟨jitter, response, rfl, hcode⟩
        refine ⟨jitter, response, ?_, hcode⟩
        cases a with
        | answer jitter' response' =>
            cases response' with
            | error failure => cases ha
            | ok response' =>
                cases ha
                rfl
        | _ => cases ha
      · simp [hdate] at hsince

end Kept

end RefusedAccount

/-- The first refusal is dated exactly when every refresh that fails, as the first
one to be answered 403, ends with such an answer and without a header
{lit}`Retry-After`. -/
theorem firstRefusalDated_iff (s : RefusedAccount) (id : String)
    (actions : List RefusedAction) (hs : s.Starts id) :
    (RefusedAccount.system id).Along (RefusedAccount.Dates id) s actions <->
      (RefusedAccount.system id).Along RefusedAccount.EndsRefused s actions := by
  apply System.along_iff_of_invariant
    (I := fun s => exists p since saved, s.Kept id p since saved)
  · intro s a s' hkept hends hstep
    rcases hkept with ⟨p, since, saved, hkept⟩
    exact hkept.step hends hstep
  · intro s a hkept
    rcases hkept with ⟨p, since, saved, hkept⟩
    constructor
    · exact hkept.endsRefused
    · intro hends s' hstep _
      rcases hkept.step hends hstep with ⟨p', since', saved', hkept'⟩
      exact hkept'.dated
  · exact hs.kept

/-- The auth server refuses the account; it may name a time. -/
def forbidden (retryAfter : RetryAfter) : AuthResponse where
  status := ⟨403, "Forbidden"⟩
  retryAfter := retryAfter
  body := .null

def unrefused : RefusedAccount where
  roster := oneTokenless
  now := .ofNat 1
  underWay := none
  firstRefused := none

theorem unrefused_starts : unrefused.Starts "a" where
  clock := by decide
  idle := rfl
  unrefused := rfl
  tied := ⟨0, _, ⟨rfl, rfl⟩, rfl, rfl, rfl⟩

/-- All four attempts of a refresh are refused. -/
def refusedFourTimes : List RefusedAction :=
  [.refresh false, .send, .answer 0 (.ok (forbidden none)), .send,
    .answer 0 (.ok (forbidden none)), .send, .answer 0 (.ok (forbidden none)),
    .send, .answer 0 (.ok (forbidden none))]

theorem firstRefusalDated_iff_refusedFourTimes :
    ((RefusedAccount.system "a").run unrefused refusedFourTimes).isSome = true ∧
      (RefusedAccount.system "a").Along (RefusedAccount.Dates "a") unrefused
        refusedFourTimes := by
  constructor
  · decide
  · apply (firstRefusalDated_iff unrefused "a" _ unrefused_starts).mpr
    apply System.Along.mono (P := fun _ a => a = .refresh false ∨ a = .send ∨
      a = .answer 0 (.ok (forbidden none)))
    · intro s a ha u e m error _ he hcycle _ _
      rcases ha with rfl | rfl | rfl
      · cases he
      · cases he
        cases hc : u.cycle <;> simp [hc, Cycle.step] at hcycle
      · exact ⟨0, _, rfl, rfl, rfl⟩
    · apply System.along_of_forall_mem
      simp [refusedFourTimes]

/-- An answer 403 that names a time is not dated. -/
theorem not_firstRefusalDated : ¬ FirstRefusalDated := by
  intro h
  have hrun := h unrefused "a"
    [.refresh false, .send, .answer 0 (.ok (forbidden (some (some 600))))]
    unrefused_starts
  have hdated := ((hrun.right _ rfl).right _ rfl).left _ rfl rfl
  have hrefused := (hdated.refused _ rfl).mpr rfl
  exact hrefused rfl

end HifiApi
