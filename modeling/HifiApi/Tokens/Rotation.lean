import HifiApi.Lib.System
import HifiApi.Tokens.Refresh

/-!
# Rotated refresh tokens

The auth server may answer a refresh with a new refresh token and forget the
old one.  Label edits and merges put a new record in the place of the one the
refresh holds, and the store step then drops the answer: the new token is kept
exactly when the record has stayed in place, no deadline has passed, and the
rest of the answer is complete.
-/

namespace HifiApi

open TokenManager
open AccountState (Credentials)

/-- One instance with one refresh of an account. -/
structure RefreshRun where
  roster : Roster accounts
  cycle : Cycle

/-- What happens while the refresh runs: its own steps, edits of the label, and
merges of records with the credentials at hand. -/
inductive RefreshAction where
  | refresh (e : CycleEvent)
  | rename (label : String) (now : I64)
  | adopt (clock : String -> I64) (v : Value)

namespace RefreshRun

def step (id : String) (s : RefreshRun) : RefreshAction -> Option RefreshRun
  | .refresh e =>
      (s.cycle.step s.roster e).map fun next => ⟨next.1, next.2⟩
  | .rename label now =>
      let started :=
        s.roster.startEdit id (.updateAccount (some label) none none none none) now
      some { s with roster := started.1 }
  | .adopt clock v =>
      if (s.roster.lookup id).any fun a =>
          (RemoteAccount.shared v).credentials = a.credentials then
        some { s with roster := s.roster.mergeOne clock (id, some (some v)) }
      else none

end RefreshRun

/-- The refresh of one account as a step system. -/
def refreshSystem (id : String) : System RefreshRun RefreshAction :=
  ⟨RefreshRun.step id⟩

namespace RefreshRun

/-- A refresh starts with the record of the account; its row carries the same
credentials. -/
def Starts (s : RefreshRun) (id : String) : Prop :=
  exists r row, s.cycle = .sending r ∧ s.roster.Held id r.pointer row ∧
    row.credentials = (s.roster.memory.cells r.pointer).credentials

/-- A successful answer with another refresh token. -/
def Rotates (response : AuthResponse) (rotated : String) : Prop :=
  response.status.isSuccess = true ∧ rotated ≠ "" ∧
    (response.body.get "refresh_token").bind Value.asStr = some rotated

/-- Memory and SQLite hold the refresh token. -/
def Holds (s : RefreshRun) (id refresh : String) : Prop :=
  exists a row, s.roster.lookup id = some a ∧ a.refreshToken = refresh ∧
    s.roster.table.lookup id = some row ∧ row.refreshToken = refresh

/-- The refresh is answered with a rotated token while the account in memory
has the credentials that were sent, and goes on to its end. -/
structure Answered (s : RefreshRun) (id sent rotated : String)
    (before : List RefreshAction) (now : I64) (jitter : Nat)
    (response : AuthResponse) (after : List RefreshAction) (s' : RefreshRun) :
    Prop where
  starts : s.Starts id
  asked : exists mid r a, (refreshSystem id).run s before = some mid ∧
    mid.cycle = .asking r sent ∧ mid.roster.lookup id = some a ∧
    a.credentials =
      { (mid.roster.memory.cells r.pointer).credentials with
        refreshToken := sent }
  rotates : Rotates response rotated
  ended : exists result, s'.cycle = .ended result
  run : (refreshSystem id).run s
    (before ++ .refresh (.answer now jitter (.ok response)) :: after) = some s'

end RefreshRun

open RefreshRun

/-- A rotated refresh token is never lost. -/
def RotationKept : Prop :=
  forall (s : RefreshRun) (id sent rotated : String)
    (before : List RefreshAction) (now : I64) (jitter : Nat)
    (response : AuthResponse) (after : List RefreshAction) (s' : RefreshRun),
    s.Answered id sent rotated before now jitter response after s' ->
    s'.Holds id rotated

namespace RefreshRun

/-- The refresh has not stored its answer yet. -/
def Unstored (c : Cycle) : Prop :=
  match c with
  | .sending _ | .asking _ _ | .storing _ _ _ _ => True
  | .publishing _ _ _ | .ended _ => False

/-- Until the answer is stored no edit and no merge replaces the record, and
the deadline does not pass between answer and store. -/
def Undisturbed (id : String) (s : RefreshRun) : RefreshAction -> Prop
  | .rename _ _ => ¬ Unstored s.cycle
  | .adopt _ v => Unstored s.cycle ->
      forall a, s.roster.lookup id = some a ->
        RemoteAccount.updatedAt v ≤ a.updatedAt
  | .refresh (.timeout _ _) =>
      forall r sent grant expires, s.cycle ≠ .storing r sent grant expires
  | _ => True

/-- The answer carries an access token and a positive lifetime. -/
def Complete (response : AuthResponse) : Prop :=
  exists token expiresIn, token ≠ "" ∧ (0 : I64) < expiresIn ∧
    (response.body.get "access_token").bind Value.asStr = some token ∧
    (response.body.get "expires_in").bind Value.asI64 = some expiresIn

/-!
## What an answer grants
-/

theorem readGrant_cases {body : Value} {grant : Grant}
    (h : readGrant body = .ok grant) :
    ((body.get "access_token").bind Value.asStr = some grant.token ∧
      grant.token ≠ "") ∧
    ((body.get "expires_in").bind Value.asI64 = some grant.expiresIn ∧
      (0 : I64) < grant.expiresIn) ∧
    grant.rotated = ((body.get "refresh_token").bind Value.asStr).filter
      fun t => t ≠ "" := by
  unfold readGrant at h
  cases htoken : ((body.get "access_token").bind Value.asStr).filter
      fun t => t ≠ "" with
  | none =>
      rw [htoken] at h
      cases h
  | some token =>
      cases hexpires : ((body.get "expires_in").bind Value.asI64).filter
          fun n => decide (0 < n) with
      | none =>
          rw [htoken, hexpires] at h
          cases h
      | some expiresIn =>
          rw [htoken, hexpires] at h
          cases h
          rw [Option.filter_eq_some_iff] at htoken hexpires
          exact ⟨⟨htoken.left, of_decide_eq_true htoken.right⟩,
            ⟨hexpires.left, of_decide_eq_true hexpires.right⟩, rfl⟩

theorem readGrant_not_retryable {body : Value} {failure : TokenAttemptFailure}
    (h : readGrant body = .error failure) : failure.retryable = false := by
  rcases readGrant_eq_error h with ⟨text, heq⟩
  rw [heq]
  rfl

theorem readGrant_of_complete {response : AuthResponse}
    (h : Complete response) : exists grant, readGrant response.body = .ok grant := by
  rcases h with ⟨token, expiresIn, htoken, hexpires, haccess, hlife⟩
  unfold readGrant
  rw [haccess, hlife, Option.filter_some, if_pos (decide_eq_true htoken),
    Option.filter_some, if_pos (decide_eq_true hexpires)]
  exact ⟨_, rfl⟩

theorem isSuccess_ne_429 {status : StatusCode} (h : status.isSuccess = true) :
    status.code ≠ 429 := by
  intro heq
  rw [StatusCode.isSuccess, heq] at h
  exact absurd h (by decide)

/-- A successful answer is granted exactly when it is complete. -/
theorem readAnswer_of_rotates {response : AuthResponse} {rotated : String}
    (h : Rotates response rotated) (now : I64) (a : AccountState) :
    (Complete response ∧ exists grant,
      (readAnswer now response a).2 = .ok grant ∧ grant.rotated = some rotated) ∨
    (¬ Complete response ∧ exists failure,
      (readAnswer now response a).2 = .error failure ∧
        failure.retryable = false) := by
  rcases h with ⟨hsuccess, hne, hrotated⟩
  unfold readAnswer
  rw [if_neg (isSuccess_ne_429 hsuccess), if_pos hsuccess]
  cases hgrant : readGrant response.body with
  | error failure =>
      refine Or.inr ⟨?_, failure, rfl, readGrant_not_retryable hgrant⟩
      intro hcomplete
      rcases readGrant_of_complete hcomplete with ⟨grant, hok⟩
      cases hgrant.symm.trans hok
  | ok grant =>
      rcases readGrant_cases hgrant with ⟨htoken, hlife, hrefresh⟩
      refine Or.inl ⟨⟨grant.token, grant.expiresIn, htoken.right, hlife.right,
        htoken.left, hlife.left⟩, grant, rfl, ?_⟩
      rw [hrefresh, hrotated, Option.filter_some, if_pos (decide_eq_true hne)]

/-!
## Before the store
-/

/-- The refresh holds a pointer; it is about to send a refresh token, or has
sent it. -/
def Sends (p : Nat) (sent : String) : Cycle -> Prop
  | .sending r => r.pointer = p
  | .asking r oldRefresh | .storing r oldRefresh _ _ =>
      r.pointer = p ∧ oldRefresh = sent
  | .publishing _ _ _ | .ended _ => False

theorem Sends.unstored {p : Nat} {sent : String} {c : Cycle}
    (h : Sends p sent c) : Unstored c := by
  cases c with
  | sending _ | asking _ _ | storing _ _ _ _ =>
      trivial
  | publishing _ _ _ | ended _ =>
      cases h

/-- The refresh has not stored an answer; its record and the account's record
carry the refresh token it sends. -/
structure Underway (s : RefreshRun) (id : String) (p : Nat) (sent : String) :
    Prop where
  cycle : Sends p sent s.cycle
  lt : p < s.roster.memory.fresh
  idOf : (s.roster.memory.cells p).id = id
  own : (s.roster.memory.cells p).refreshToken = sent
  agrees : s.roster.Agrees id sent

/-- The roster lists the record that the refresh has started with. -/
def InPlace (s : RefreshRun) (id : String) (p : Nat) : Prop :=
  s.roster.memory.find? id = some p

section Steps

variable {s s' : RefreshRun} {id sent : String} {p : Nat}
  {m' : Roster accounts} {c' : Cycle}

theorem Underway.keeps (h : s.Underway id p sent)
    (hkeeps : s.roster.Keeps m') (hcycle : Sends p sent c') :
    (RefreshRun.mk m' c').Underway id p sent where
  cycle := hcycle
  lt := by
    rw [hkeeps.fresh]
    exact h.lt
  idOf := (hkeeps.cells p).id.trans h.idOf
  own :=
    (congrArg Credentials.refreshToken (hkeeps.cells p).credentials).trans h.own
  agrees := h.agrees.keeps hkeeps

/-- An edit or a merge has put a new record in the place of the account's. -/
structure Replaced (s s' : RefreshRun) (id refresh : String) : Prop where
  rebuilt : exists a row, s.roster.Rebuilt s'.roster id a row ∧
    row.credentials = a.credentials ∧ a.refreshToken = refresh
  cycle : s'.cycle = s.cycle

theorem Replaced.agrees {refresh : String} (h : s.Replaced s' id refresh) :
    s'.roster.Agrees id refresh := by
  rcases h.rebuilt with ⟨a, row, hrebuilt, hrow, hrefresh⟩
  rw [← hrefresh]
  exact hrebuilt.agrees hrow

theorem Underway.replaced (h : s.Underway id p sent)
    (hreplaced : s.Replaced s' id sent) :
    s'.Underway id p sent ∧ ¬ s'.InPlace id p := by
  have hagrees := hreplaced.agrees
  rcases hreplaced.rebuilt with ⟨a, row, hrebuilt, _, _⟩
  have hcell := hrebuilt.others p h.lt
  refine ⟨⟨?_, ?_, ?_, ?_, hagrees⟩, ?_⟩
  · rw [hreplaced.cycle]
    exact h.cycle
  · rw [hrebuilt.fresh]
    exact Nat.lt_succ_of_lt h.lt
  · rw [hcell]
    exact h.idOf
  · rw [hcell]
    exact h.own
  · intro hplace
    have hfresh := hrebuilt.held.pointer.symm.trans hplace
    exact absurd (Option.some.inj hfresh) (Nat.ne_of_gt h.lt)

theorem step_rename {refresh label : String} {now : I64}
    (h : s.roster.Agrees id refresh)
    (hstep : (refreshSystem id).step s (.rename label now) = some s') :
    s.Replaced s' id refresh := by
  rcases h with ⟨q, row, hheld, _, hrefresh⟩
  cases hstep
  refine ⟨⟨_, _, Roster.rebuilt_updateAccount hheld (some label) none none none
    none now, rfl, ?_⟩, rfl⟩
  rw [← hrefresh]
  exact congrArg (fun shared => shared.credentials.refreshToken)
    (AccountState.carryOver_shared _ _)

/-- A merge replaces the record by one with the same credentials, when that is
newer. -/
theorem step_adopt {refresh : String} {clock : String -> I64} {v : Value}
    (h : s.roster.Agrees id refresh)
    (hstep : (refreshSystem id).step s (.adopt clock v) = some s') :
    (s' = s ∧ forall a, s.roster.lookup id = some a ->
      RemoteAccount.updatedAt v ≤ a.updatedAt) ∨
    (s.Replaced s' id refresh ∧ exists a, s.roster.lookup id = some a ∧
      a.updatedAt < RemoteAccount.updatedAt v) := by
  rcases h with ⟨q, row, hheld, _, hrefresh⟩
  have hlookup := hheld.lookup
  simp only [refreshSystem, step] at hstep
  split at hstep
  · rename_i hsame
    cases hstep
    have hcreds : (RemoteAccount.shared v).credentials =
        (s.roster.memory.cells q).credentials := by
      rw [hlookup] at hsame
      simpa using hsame
    cases hadopt : RemoteAccount.adopt (s.roster.memory.cells q) v with
    | none =>
        refine Or.inl ⟨?_, ?_⟩
        · rw [Roster.mergeOne_of_adopt_eq_none hheld clock hadopt]
        · intro a ha
          rw [hlookup] at ha
          cases ha
          exact RemoteAccount.adopt_eq_none.mp hadopt
    | some r =>
        rcases RemoteAccount.adopt_spec hadopt with ⟨hnewer, _, hshared⟩
        refine Or.inr ⟨⟨⟨_, _, Roster.rebuilt_mergeOne hheld clock hadopt, rfl,
          ?_⟩, rfl⟩, _, hlookup, hnewer⟩
        rw [← hrefresh]
        have hread := (congrArg AccountState.Shared.credentials hshared).trans hcreds
        exact congrArg Credentials.refreshToken hread
  · cases hstep

theorem step_refresh {e : CycleEvent}
    (hstep : (refreshSystem id).step s (.refresh e) = some s') :
    s.cycle.step s.roster e = some (s'.roster, s'.cycle) := by
  rcases Option.map_eq_some_iff.mp hstep with ⟨next, hnext, heq⟩
  rw [← heq]
  exact hnext

theorem undisturbed_refresh
    (h : forall r sent grant expires, s.cycle ≠ .storing r sent grant expires)
    (e : CycleEvent) : Undisturbed id s (.refresh e) := by
  cases e with
  | timeout now jitter =>
      exact h
  | _ =>
      trivial

/-- As long as no answer is stored, the record stays in place exactly when the
step does not disturb the refresh. -/
theorem underway_step {a : RefreshAction} (h : s.Underway id p sent)
    (hstep : (refreshSystem id).step s a = some s')
    (hunstored : Unstored s'.cycle) :
    s'.Underway id p sent ∧
      (s'.InPlace id p <-> s.InPlace id p ∧ Undisturbed id s a) := by
  cases a with
  | rename label now =>
      rcases h.replaced (step_rename h.agrees hstep) with ⟨hnext, hplace⟩
      refine ⟨hnext, iff_of_false hplace ?_⟩
      exact fun hkept => hkept.right h.cycle.unstored
  | adopt clock v =>
      rcases step_adopt h.agrees hstep with
        ⟨heq, holder⟩ | ⟨hreplaced, a, ha, hnewer⟩
      · subst heq
        exact ⟨h, (and_iff_left fun _ => holder).symm⟩
      · rcases h.replaced hreplaced with ⟨hnext, hplace⟩
        refine ⟨hnext, iff_of_false hplace ?_⟩
        intro hkept
        exact absurd (hkept.right h.cycle.unstored a ha) (not_le_of_gt hnewer)
  | refresh e =>
      have hcycle := step_refresh hstep
      have hsends := h.cycle
      -- Only the steps up to the store leave a refresh without an answer.
      have hkept : s.roster.Keeps s'.roster ∧ Sends p sent s'.cycle ∧
          forall r sent grant expires, s.cycle ≠ .storing r sent grant expires := by
        cases hc : s.cycle with
        | sending r =>
            rw [hc] at hcycle hsends
            rcases Cycle.step_sending hcycle with ⟨hkeeps, hask | ⟨error, hend⟩⟩
            · refine ⟨hkeeps, ?_, fun _ _ _ _ heq => by cases heq⟩
              rw [hask]
              exact ⟨hsends, hsends ▸ h.own⟩
            · rw [hend] at hunstored
              cases hunstored
        | asking r oldRefresh =>
            rw [hc] at hcycle hsends
            rcases Cycle.step_asking hcycle with
              ⟨hkeeps, ⟨r', hsend, hr'⟩ | ⟨error, hend⟩ |
                ⟨_, _, _, _, _, _, hstoring⟩⟩
            · refine ⟨hkeeps, ?_, fun _ _ _ _ heq => by cases heq⟩
              rw [hsend]
              exact hr'.trans hsends.left
            · rw [hend] at hunstored
              cases hunstored
            · refine ⟨hkeeps, ?_, fun _ _ _ _ heq => by cases heq⟩
              rw [hstoring]
              exact hsends
        | storing r oldRefresh grant expires =>
            rw [hc] at hcycle
            rcases Cycle.step_storing hcycle with
              ⟨_, _, _, _, hnext⟩ | ⟨_, error, hnext⟩ <;>
            · rw [hnext] at hunstored
              cases hunstored
        | publishing r token expires =>
            rw [hc] at hsends
            cases hsends
        | ended result =>
            rw [hc] at hsends
            cases hsends
      rcases hkept with ⟨hkeeps, hnext, hnot⟩
      refine ⟨h.keeps hkeeps hnext, ?_⟩
      rw [and_iff_left (undisturbed_refresh hnot e)]
      unfold InPlace
      rw [hkeeps.find?]

theorem unstored_of_step {a : RefreshAction}
    (hstep : (refreshSystem id).step s a = some s')
    (h : Unstored s'.cycle) : Unstored s.cycle := by
  cases a with
  | rename label now =>
      cases hstep
      exact h
  | adopt clock v =>
      simp only [refreshSystem, step] at hstep
      split at hstep
      · cases hstep
        exact h
      · cases hstep
  | refresh e =>
      have hcycle := step_refresh hstep
      cases hc : s.cycle with
      | publishing r token expires =>
          rw [hc] at hcycle
          rcases Cycle.step_publishing hcycle with ⟨_, result, hend⟩
          rw [hend] at h
          exact h
      | ended result =>
          rw [hc] at hcycle
          cases e <;> cases hcycle
      | _ =>
          trivial

/-- Once an answer is stored, or the refresh has ended without one, the refresh
token of the account stays. -/
theorem agrees_step {a : RefreshAction} {refresh : String}
    (h : ¬ Unstored s.cycle) (hagrees : s.roster.Agrees id refresh)
    (hstep : (refreshSystem id).step s a = some s') :
    s'.roster.Agrees id refresh := by
  cases a with
  | rename label now =>
      exact (step_rename hagrees hstep).agrees
  | adopt clock v =>
      rcases step_adopt hagrees hstep with ⟨heq, _⟩ | ⟨hreplaced, _⟩
      · rw [heq]
        exact hagrees
      · exact hreplaced.agrees
  | refresh e =>
      have hcycle := step_refresh hstep
      cases hc : s.cycle with
      | publishing r token expires =>
          rw [hc] at hcycle
          exact hagrees.keeps (Cycle.step_publishing hcycle).left
      | ended result =>
          rw [hc] at hcycle
          cases e <;> cases hcycle
      | _ =>
          rw [hc] at h
          exact absurd trivial h

theorem undisturbed_of_stored (h : ¬ Unstored s.cycle) (a : RefreshAction) :
    Undisturbed id s a := by
  cases a with
  | rename label now =>
      exact h
  | adopt clock v =>
      exact fun hunstored => absurd hunstored h
  | refresh e =>
      refine undisturbed_refresh ?_ e
      intro r sent grant expires hc
      rw [hc] at h
      exact h trivial

/-- The store step: it keeps the rotated token exactly when the record is in
place; a deadline that passes loses it. -/
theorem storing_step {a : RefreshAction} {r : Refreshing} {grant : Grant}
    {expires : Int} {rotated : String} (h : s.Underway id p sent)
    (hcycle : s.cycle = .storing r sent grant expires)
    (hrotated : grant.rotated = some rotated)
    (hstep : (refreshSystem id).step s a = some s') :
    (Unstored s'.cycle ∧ s'.cycle = s.cycle) ∨
    (¬ Unstored s'.cycle ∧ exists refresh, s'.roster.Agrees id refresh ∧
      (refresh = rotated <->
        rotated = sent ∨ s.InPlace id p ∧ Undisturbed id s a)) := by
  cases a with
  | rename label now =>
      have hsame := (step_rename h.agrees hstep).cycle
      exact Or.inl ⟨hsame ▸ h.cycle.unstored, hsame⟩
  | adopt clock v =>
      have hsame : s'.cycle = s.cycle := by
        rcases step_adopt h.agrees hstep with ⟨heq, _⟩ | ⟨hreplaced, _⟩
        · rw [heq]
        · exact hreplaced.cycle
      exact Or.inl ⟨hsame ▸ h.cycle.unstored, hsame⟩
  | refresh e =>
      have hnext := step_refresh hstep
      have hpointer : r.pointer = p := by
        have hsends := h.cycle
        rw [hcycle] at hsends
        exact hsends.left
      rw [hcycle] at hnext
      rcases Cycle.step_storing hnext with
        ⟨now, jitter, he, hok, hpublishing⟩ | ⟨hkeeps, error, hend⟩
      · have hstored := Roster.stored_of_ok hok
        have hagrees := hstored.agrees
        rw [hpointer, h.idOf, hrotated, Option.getD_some] at hagrees
        have hlisted := hstored.listed
        rw [hpointer] at hlisted
        refine Or.inr ⟨?_, rotated, hagrees, iff_of_true rfl (Or.inr ⟨?_, ?_⟩)⟩
        · rw [hpublishing]
          exact fun hunstored => hunstored
        · exact Arena.find?_eq_some.mpr ⟨hlisted, h.idOf⟩
        · rw [he]
          trivial
      · refine Or.inr ⟨?_, sent, h.agrees.keeps hkeeps, ?_⟩
        · rw [hend]
          exact fun hunstored => hunstored
        · have hlost : ¬ (s.InPlace id p ∧ Undisturbed id s (.refresh e)) := by
            rintro ⟨hplace, hundisturbed⟩
            cases e with
            | store now jitter =>
                rcases h.agrees with ⟨q, row, hheld, hrow, hsent⟩
                have hq : q = p :=
                  Option.some.inj (hheld.pointer.symm.trans hplace)
                rw [hq] at hheld hrow hsent
                rcases hheld.store_ok hrow hsent with ⟨m', hok⟩
                rw [← hpointer] at hok
                rw [Cycle.step, hok] at hnext
                have hpublishing : .publishing r grant.token expires = s'.cycle :=
                  congrArg Prod.snd (Option.some.inj hnext)
                cases hpublishing.trans hend
            | timeout now jitter =>
                exact hundisturbed _ _ _ _ hcycle
            | _ =>
                cases hnext
          rw [or_iff_left hlost, eq_comm]

end Steps

/-!
## Runs
-/

section Runs

variable {s s' : RefreshRun} {id sent : String} {p : Nat}
  {actions : List RefreshAction}

theorem unstored_of_run (hrun : (refreshSystem id).run s actions = some s')
    (h : Unstored s'.cycle) : Unstored s.cycle := by
  by_contra hstored
  exact System.run_invariant (I := fun t => ¬ Unstored t.cycle)
    (fun _ _ _ hI hstep hnext => hI (unstored_of_step hstep hnext)) hstored hrun h

theorem underway_run (h : s.Underway id p sent)
    (hrun : (refreshSystem id).run s actions = some s')
    (hunstored : Unstored s'.cycle) :
    s'.Underway id p sent ∧
      (s'.InPlace id p <->
        s.InPlace id p ∧ (refreshSystem id).Along (Undisturbed id) s actions) := by
  induction actions generalizing s with
  | nil =>
      cases hrun
      exact ⟨h, (and_iff_left trivial).symm⟩
  | cons a rest ih =>
      rcases System.run_cons_some.mp hrun with ⟨mid, hstep, hrest⟩
      rcases underway_step h hstep (unstored_of_run hrest hunstored) with
        ⟨hmid, hplace⟩
      rcases ih hmid hrest with ⟨hlast, hplaces⟩
      refine ⟨hlast, ?_⟩
      rw [hplaces, hplace, System.along_cons_of_step hstep, and_assoc]

/-- After the store step the refresh token stays to the end of the run. -/
theorem agrees_run {refresh : String} (h : ¬ Unstored s.cycle)
    (hagrees : s.roster.Agrees id refresh)
    (hrun : (refreshSystem id).run s actions = some s') :
    s'.roster.Agrees id refresh :=
  (System.run_invariant
    (I := fun t => ¬ Unstored t.cycle ∧ t.roster.Agrees id refresh)
    (fun _ _ _ hI hstep =>
      ⟨fun hnext => hI.left (unstored_of_step hstep hnext),
        agrees_step hI.left hI.right hstep⟩)
    ⟨h, hagrees⟩ hrun).right

theorem undisturbed_run (h : ¬ Unstored s.cycle) :
    (refreshSystem id).Along (Undisturbed id) s actions :=
  System.along_of_invariant (P := fun _ _ => True)
    (I := fun t => ¬ Unstored t.cycle)
    (fun _ _ _ hI _ hstep hnext => hI (unstored_of_step hstep hnext))
    (fun _ a hI _ => undisturbed_of_stored hI a) h
    (System.along_of_forall_mem fun _ _ => trivial)

/-- From the answer to the end of the refresh. -/
theorem storing_run {r : Refreshing} {grant : Grant} {expires : Int}
    {rotated : String} (h : s.Underway id p sent)
    (hcycle : s.cycle = .storing r sent grant expires)
    (hrotated : grant.rotated = some rotated)
    (hrun : (refreshSystem id).run s actions = some s')
    (hended : ¬ Unstored s'.cycle) :
    exists refresh, s'.roster.Agrees id refresh ∧
      (refresh = rotated <->
        rotated = sent ∨ s.InPlace id p ∧
          (refreshSystem id).Along (Undisturbed id) s actions) := by
  induction actions generalizing s with
  | nil =>
      cases hrun
      exact absurd h.cycle.unstored hended
  | cons a rest ih =>
      rcases System.run_cons_some.mp hrun with ⟨mid, hstep, hrest⟩
      rw [System.along_cons_of_step hstep, ← and_assoc]
      rcases storing_step h hcycle hrotated hstep with
        ⟨hunstored, hsame⟩ | ⟨hstored, refresh, hagrees, hiff⟩
      · rcases underway_step h hstep hunstored with ⟨hmid, hplace⟩
        rw [← hplace]
        exact ih hmid (hsame.trans hcycle) hrest
      · refine ⟨refresh, agrees_run hstored hagrees hrest, ?_⟩
        rw [and_iff_left (undisturbed_run hstored)]
        exact hiff

theorem holds_iff {refresh : String} (h : s.roster.Agrees id refresh)
    (rotated : String) : s.Holds id rotated <-> refresh = rotated := by
  rcases h with ⟨q, row, hheld, hrow, hrefresh⟩
  have hsame : row.refreshToken = (s.roster.memory.cells q).refreshToken :=
    congrArg Credentials.refreshToken hrow
  constructor
  · rintro ⟨a, _, ha, hrotated, _, _⟩
    rw [hheld.lookup] at ha
    cases ha
    exact hrefresh.symm.trans hrotated
  · intro heq
    exact ⟨_, row, hheld.lookup, hrefresh.trans heq, hheld.row,
      hsame.trans (hrefresh.trans heq)⟩

end Runs

/-!
## A whole refresh
-/

section Whole

variable {s s' : RefreshRun} {id sent rotated : String}
  {before after : List RefreshAction} {now : I64} {jitter : Nat}
  {response : AuthResponse}

theorem Starts.underway (h : s.Starts id) :
    exists p, s.InPlace id p ∧
      s.Underway id p (s.roster.memory.cells p).refreshToken := by
  rcases h with ⟨r, row, hcycle, hheld, hrow⟩
  refine ⟨r.pointer, hheld.pointer, ?_, hheld.lt, hheld.idOf, rfl,
    ⟨_, row, hheld, hrow, rfl⟩⟩
  rw [hcycle]
  rfl

/-- The answer is stored next, or it ends the refresh. -/
theorem step_answer {mid next : RefreshRun} {r : Refreshing} {p : Nat}
    (h : mid.Underway id p sent) (hcycle : mid.cycle = .asking r sent)
    (hrotates : Rotates response rotated)
    (hstep : (refreshSystem id).step mid
      (.refresh (.answer now jitter (.ok response))) = some next) :
    (Complete response ∧ exists grant expires,
      next.cycle = .storing r sent grant expires ∧ grant.rotated = some rotated) ∨
    (¬ Complete response ∧ ¬ Unstored next.cycle ∧
      next.roster.Agrees id sent) := by
  have hnext := step_refresh hstep
  rw [hcycle] at hnext
  have hkeeps := (Cycle.step_asking hnext).left
  simp only [Cycle.step] at hnext
  rcases readAnswer_of_rotates hrotates now (mid.roster.memory.cells r.pointer) with
    ⟨hcomplete, grant, hgrant, hrotated⟩ | ⟨hnot, failure, hfailure, hretry⟩
  · rw [hgrant] at hnext
    refine Or.inl ⟨hcomplete, grant, expiresAt now grant.expiresIn, ?_, hrotated⟩
    exact (congrArg Prod.snd (Option.some.inj hnext)).symm
  · rw [hfailure] at hnext
    have hended : _ = next.cycle := congrArg Prod.snd (Option.some.inj hnext)
    rw [Cycle.failAttempt, retries, hretry] at hended
    refine Or.inr ⟨hnot, ?_, h.agrees.keeps hkeeps⟩
    rw [← hended]
    exact fun hunstored => hunstored

/-- The rotated token is kept exactly when it is the token that was sent, or
when the answer is complete and nothing disturbs the refresh. -/
theorem rotation_kept_iff
    (h : s.Answered id sent rotated before now jitter response after s') :
    s'.Holds id rotated <->
      rotated = sent ∨ (Complete response ∧
        (refreshSystem id).Along (Undisturbed id) s
          (before ++ .refresh (.answer now jitter (.ok response)) :: after)) := by
  rcases h.starts.underway with ⟨p, hplace, hunderway⟩
  rcases h.asked with ⟨mid, r, _, hbefore, hasking, _, _⟩
  rcases h.ended with ⟨result, hend⟩
  rcases System.run_append_some.mp h.run with ⟨mid', hbefore', hrest⟩
  cases Option.some.inj (hbefore.symm.trans hbefore')
  rcases System.run_cons_some.mp hrest with ⟨next, hanswer, hafter⟩
  have hunstored : Unstored mid.cycle := by
    rw [hasking]
    trivial
  rcases underway_run hunderway hbefore hunstored with ⟨hmid, hmidPlace⟩
  have hsent : sent = (s.roster.memory.cells p).refreshToken := by
    have hsends := hmid.cycle
    rw [hasking] at hsends
    exact hsends.right
  rw [← hsent] at hmid
  have hended : ¬ Unstored s'.cycle := by
    rw [hend]
    exact fun hunstored => hunstored
  rw [System.along_append hbefore, System.along_cons_of_step hanswer]
  rcases step_answer hmid hasking h.rotates hanswer with
    ⟨hcomplete, grant, expires, hstoring, hrotated⟩ | ⟨hnot, hstored, hagrees⟩
  · have hnextUnstored : Unstored next.cycle := by
      rw [hstoring]
      trivial
    rcases underway_step hmid hanswer hnextUnstored with ⟨hnext, hnextPlace⟩
    rcases storing_run hnext hstoring hrotated hafter hended with
      ⟨refresh, hagrees, hiff⟩
    rw [holds_iff hagrees, hiff, hnextPlace, hmidPlace, and_iff_right hplace,
      and_iff_right hcomplete, and_assoc]
  · rw [holds_iff (agrees_run hstored hagrees hafter), eq_comm, or_iff_left]
    exact fun hkept => hnot hkept.left

end Whole

/-!
## Two runs
-/

/-- One account whose refresh is about to send its first request. -/
def refreshing : RefreshRun where
  roster := Roster.reload ⟨Arena.empty, oneRow⟩
  cycle := .sending ⟨0, 0, 4, false⟩

/-- A successful answer with an access token and another refresh token. -/
def rotation : AuthResponse where
  status := ⟨200, "OK"⟩
  retryAfter := none
  body :=
    .object
      [("access_token", .string "t"), ("expires_in", .number 3600),
        ("refresh_token", .string "r2")]

theorem refreshing_starts : refreshing.Starts "a" :=
  ⟨⟨0, 0, 4, false⟩, _, rfl, ⟨rfl, rfl⟩, rfl⟩

theorem rotation_rotates : Rotates rotation "r2" :=
  ⟨rfl, by decide, rfl⟩

theorem rotation_kept_iff_undisturbed :
    exists s', refreshing.Answered "a" "r" "r2" [.refresh .send] 0 0 rotation
        [.refresh (.store 0 0), .refresh .publish] s' ∧ s'.Holds "a" "r2" := by
  have hanswered : refreshing.Answered "a" "r" "r2" [.refresh .send] 0 0 rotation
      [.refresh (.store 0 0), .refresh .publish] _ :=
    ⟨refreshing_starts, ⟨_, _, _, rfl, rfl, rfl, rfl⟩, rotation_rotates,
      ⟨_, rfl⟩, rfl⟩
  refine ⟨_, hanswered, (rotation_kept_iff hanswered).mpr (Or.inr ⟨?_, ?_⟩)⟩
  · exact ⟨"t", ⟨3600, by decide, by decide⟩, by decide, by decide, rfl, rfl⟩
  · exact System.along_of_forall_mem (P := fun a => forall s, Undisturbed "a" s a)
      (by simp [Undisturbed]) |>.mono fun s a h => h s

/-- A label edit between the request and the store step replaces the record,
and the rotated token is dropped. -/
theorem not_rotationKept : ¬ RotationKept := by
  intro h
  have hkept := h refreshing "a" "r" "r2" [.refresh .send, .rename "second" 0] 0 0
    rotation [.refresh (.store 0 0)] _
    ⟨refreshing_starts, ⟨_, _, _, rfl, rfl, rfl, rfl⟩, rotation_rotates,
      ⟨_, rfl⟩, rfl⟩
  rcases hkept with ⟨a, row, ha, hrotated, _, _⟩
  cases ha
  exact absurd hrotated (by decide)

end RefreshRun

end HifiApi
