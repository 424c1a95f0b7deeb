import HifiApi.Failover.Requests

/-!
# Rules for a request to the pool

What a statement about all runs of {lit}`make_request_with_limit` has to say of its
journal: what holds between two accounts and on one, and what the calls that matter
do to it.  The rules follow from there, over every exit of both loops.
-/

namespace HifiApi

open Prog TidalCall

namespace TidalCall

/-- Calls that are of no concern to any of the statements. -/
def Quiet : TidalCall -> Prop
  | healthyCount | alertAllDown _ | alert403 _ _ _ | workingClientFor _
  | rejectRefreshedToken _ _ | jitter | noteSuccessFor _ | noteFailureFor _
  | markAccountError _ _ _ | pauseAccount _ _ => True
  | _ => False

/-- Calls that may find that an account is paused. -/
def FindsPause : TidalCall -> Prop
  | rateLimitRemaining _ | getToken _ | refreshAfterUnauthorized _ _ => True
  | _ => False

end TidalCall

/-- Another account may be tried. -/
def PoolTry.MayTry (n : Nat) (s : PoolTry) : Prop :=
  ¬ ((s.preferredCooldownConsumed = true ∧ 0 < n) ∨ s.rateLimits.exhausted n = true)

/-- With the preferred account paused, its alternative is the only one. -/
def PoolTry.divert (f : Failover) (s : PoolTry) : PoolTry :=
  { s with
    toFailover := f
    preferredCooldownConsumed := true }

/-- An account that has answered PREVIEW is left. -/
def PoolTry.preview (a : AccountRef) (s : PoolTry) : PoolTry :=
  { s.fail a.id (.previewOnly
      s!"Preview only for track: account {a.id} cannot provide FULL (subscription required)")
    with previewed := s.previewed ++ [a] }

/-- What is said of the journal of a request, for a number of accounts. -/
structure PoolRules {G : Type} (W : Watch Answer G) (q : PoolRequest) (count : Nat) where
  /-- Between two accounts, before a try. -/
  Ready : Nat -> PoolTry -> G -> Prop
  /-- On the account of a try, before an attempt. -/
  Holding : Nat -> Nat -> AccountRef -> PoolTry -> G -> Prop
  /-- On the account of a try, after the request of an attempt. -/
  Asked : Nat -> Nat -> AccountRef -> PoolTry -> G -> Prop
  /-- The request has ended. -/
  Done : G -> Prop
  /-- A 429 or a pause. -/
  met : G -> G
  sent : AccountRef -> G -> G
  quiet : forall g {c : TidalCall}, c.Quiet ->
    W.may g c ∧ forall answer, W.note g c answer = g
  pauses : forall g {c : TidalCall}, c.FindsPause ->
    W.may g c ∧ forall answer, W.note g c answer = if c.isPause answer then met g else g
  ended : forall {n : Nat} {s : PoolTry} {g : G}, Ready n s g -> Done g ∧ Done (met g)
  left : forall {n i : Nat} {a : AccountRef} {s : PoolTry} {g : G},
    Holding n i a s g -> Done g ∧ Done (met g)
  later : forall {n i : Nat} {a : AccountRef} {s : PoolTry} {g : G},
    Holding n i a s g -> Holding n (i + 1) a s g
  asked : forall {n i : Nat} {a : AccountRef} {s : PoolTry} {g : G},
    Asked n i a s g -> Holding n (i + 1) a s g
  failed : forall {n i : Nat} {a : AccountRef} {s : PoolTry} {g : G},
    Holding n i a s g -> forall e, Ready (n + 1) (s.fail a.id e) g
  scheduled : forall {n i : Nat} {a : AccountRef} {s : PoolTry} {f : Failover} {g : G}
    {e : AppError}, Holding n i a s g -> s.schedule n a.id e = .ok f ->
    Ready (n + 1) { s with toFailover := f } (met g)
  /-- A lease from the pool. -/
  lease : forall {n : Nat} {s : PoolTry} {g : G}, Ready n s g ->
    n < q.accountAttempts count -> s.MayTry n ->
    W.may g (leasePoolAccount s.failedIds q.kind) ∧
      forall answer, W.hears g (leasePoolAccount s.failedIds q.kind) answer ->
        match answer with
        | .ok a => Holding n 0 a s (W.note g (leasePoolAccount s.failedIds q.kind) answer)
        | .error _ => Done (W.note g (leasePoolAccount s.failedIds q.kind) answer)
  /-- A lease on the preferred account. -/
  preferred : forall {s : PoolTry} {g : G} (a : AccountRef), Ready 0 s g ->
    0 < q.accountAttempts count -> s.MayTry 0 -> s.failedIds = [] ->
    W.may g (TidalCall.lease a) ∧
      Holding 0 0 a s (W.note g (TidalCall.lease a) ())
  /-- A lease from the pool when the preferred account is paused. -/
  diverted : forall {s : PoolTry} {f : Failover} {g : G} {e : AppError} (a : AccountRef),
    Ready 0 s g -> 0 < q.accountAttempts count -> s.MayTry 0 -> s.failedIds = [] ->
    s.schedule 0 a.id e = .ok f ->
    W.may (met g) (leasePoolAccount f.failedIds q.kind) ∧
      forall answer, W.hears (met g) (leasePoolAccount f.failedIds q.kind) answer ->
        match answer with
        | .ok b =>
            Holding 0 0 b (s.divert f)
              (W.note (met g) (leasePoolAccount f.failedIds q.kind) answer)
        | .error _ => Done (W.note (met g) (leasePoolAccount f.failedIds q.kind) answer)
  send : forall {n i : Nat} {a : AccountRef} {s : PoolTry} {g : G}, Holding n i a s g ->
    i < q.attempts -> forall url params token,
    W.may g (TidalCall.send (some a) url params token) ∧ Asked n i a s (sent a g) ∧
      forall answer, W.note g (TidalCall.send (some a) url params token) answer =
        if isTooMany answer then met (sent a g) else sent a g
  /-- A body, and what it settles. -/
  read : forall {n i : Nat} {a : AccountRef} {s : PoolTry} {g : G}, Asked n i a s g ->
    W.may g readText ∧ forall answer, W.hears g readText answer ->
      (dataOf answer = none -> Done (W.note g readText answer)) ∧
        forall data, dataOf answer = some data ->
          W.Keeps (W.note g readText answer) (settleFull q a s data) fun g' _ =>
            Done g' ∧ (isPreview data = true -> Ready (n + 1) (s.preview a) g')

namespace PoolRules

section Rules

variable {G : Type} {W : Watch Answer G} {q : PoolRequest} {count : Nat}
  (R : PoolRules W q count) {n i j : Nat} {a : AccountRef} {s : PoolTry} {g : G}

/-!
## One attempt
-/

/-- What an attempt leads to: another one while there is one, another account, or the
end. -/
def AfterAttempt (n i : Nat) (a : AccountRef) (g : G) : Attempted -> Prop
  | .inl (_, s) => i + 1 < q.attempts ∧ R.Holding n (i + 1) a s g
  | .inr (.failover s) => R.Ready (n + 1) s g
  | .inr (.answered _) => R.Done g

/-- A quiet call. -/
theorem keeps_quiet (R : PoolRules W q count) {α : Type} {c : TidalCall}
    {next : Answer c -> TidalProg α} {post : G -> α -> Prop} (hc : c.Quiet)
    (h : forall answer, W.Keeps g (next answer) post) :
    W.Keeps g (.call c next) post := by
  constructor
  · exact (R.quiet g hc).left
  · intro answer _
    rw [(R.quiet g hc).right answer]
    exact h answer

/-- A call that may find a pause. -/
theorem keeps_pauses {α : Type} {c : TidalCall} {next : Answer c -> TidalProg α}
    {post : G -> α -> Prop} (hc : c.FindsPause)
    (h : forall answer,
      W.Keeps (if c.isPause answer then R.met g else g) (next answer) post) :
    W.Keeps g (.call c next) post := by
  constructor
  · exact (R.pauses g hc).left
  · intro answer _
    rw [(R.pauses g hc).right answer]
    exact h answer

theorem leaveLimited_keeps (h : R.Holding n j a s g) (seconds : Nat) :
    W.Keeps (R.met g) (leaveLimited n a seconds s) (R.AfterAttempt n i a) := by
  unfold leaveLimited
  split
  · exact (R.left h).right
  · rename_i f hschedule
    exact R.scheduled h hschedule

theorem leaveUnauthorized_keeps (h : R.Holding n (i + 1) a s g) (e : AppError) :
    W.Keeps g (leaveUnauthorized a e s) (R.AfterAttempt n i a) :=
  R.keeps_quiet trivial fun _ => R.failed h e

theorem onUnauthorized_keeps (h : R.Holding n (i + 1) a s g) (token : String)
    (refreshed : Bool) :
    W.Keeps g (onUnauthorized q n a i token refreshed s) (R.AfterAttempt n i a) := by
  unfold onUnauthorized
  split
  · exact R.keeps_quiet trivial fun _ => R.leaveUnauthorized_keeps h _
  · split
    · rename_i hroom
      apply R.keeps_pauses
      · trivial
      · intro answer
        cases answer with
        | ok fresh =>
            exact ⟨hroom, h⟩
        | error e =>
            cases e with
            | rateLimited seconds => exact R.leaveLimited_keeps h seconds
            | _ => exact R.leaveUnauthorized_keeps h _
    · exact R.leaveUnauthorized_keeps h _

theorem onForbidden_keeps (h : R.Holding n (i + 1) a s g) (status : StatusCode)
    (refreshed : Bool) :
    W.Keeps g (onForbidden q a i status refreshed s) (R.AfterAttempt n i a) := by
  unfold onForbidden
  split
  · rename_i hroom
    exact ⟨hroom, h⟩
  · exact R.keeps_quiet trivial fun _ => R.keeps_quiet trivial fun _ =>
      R.keeps_quiet trivial fun _ => R.failed h _

theorem onFailure_keeps (h : R.Holding n (i + 1) a s g) (status : StatusCode)
    (refreshed : Bool) :
    W.Keeps g (onFailure q a i status refreshed s) (R.AfterAttempt n i a) := by
  unfold onFailure
  split
  · rename_i hroom
    exact ⟨hroom.left, h⟩
  · exact R.keeps_quiet trivial fun _ => R.failed h _

theorem readBody_keeps (h : R.Asked n i a s g) (status : StatusCode) :
    W.Keeps g (readBody q a s status) (R.AfterAttempt n i a) := by
  constructor
  · exact (R.read h).left
  · intro answer hanswer
    rcases (R.read h).right answer hanswer with ⟨hdone, hsettled⟩
    cases answer with
    | error e => exact hdone rfl
    | ok body =>
        dsimp only [Prog.bind]
        split
        · rename_i hjson
          exact hdone (congrArg Except.toOption hjson)
        · rename_i data hjson
          unfold present
          rw [Watch.keeps_bind']
          apply (hsettled data (congrArg Except.toOption hjson)).mono
          intro g' _ hafter
          split
          · rename_i hpreview
            exact hafter.right hpreview
          · exact hafter.left

theorem onResponse_keeps (h : R.Asked n i a s g) (token : String) (r : TidalResponse)
    (refreshed : Bool) :
    W.Keeps (if decide (r.status.code = 429) then R.met g else g)
      (onResponse q n a i token r refreshed s) (R.AfterAttempt n i a) := by
  have hheld := R.asked h
  unfold onResponse
  by_cases hlimited : r.status.code = 429
  · rw [if_pos (decide_eq_true hlimited), if_neg (by omega), if_neg (by omega),
      if_pos hlimited]
    exact R.keeps_quiet trivial fun seconds => R.keeps_quiet trivial fun _ =>
      R.leaveLimited_keeps hheld seconds
  · rw [if_neg (by rw [decide_eq_false hlimited]; exact Bool.false_ne_true)]
    split
    · exact R.onUnauthorized_keeps hheld token refreshed
    · split
      · exact (R.left hheld).left
      · split
        · exact R.onForbidden_keeps hheld r.status refreshed
        · split
          · exact R.readBody_keeps h r.status
          · exact R.onFailure_keeps hheld r.status refreshed

theorem sendOnce_keeps (hroom : i < q.attempts) (h : R.Holding n i a s g)
    (token : String) (refreshed : Bool) :
    W.Keeps g (sendOnce q n a i token refreshed s) (R.AfterAttempt n i a) := by
  rcases R.send h hroom q.url (q.params.getD []) token with ⟨hmay, hasked, hnote⟩
  constructor
  · exact hmay
  · intro answer _
    rw [hnote answer]
    cases answer with
    | error e =>
        show W.Keeps (R.sent a g) ((noteTransport a.id e).bind _) _
        have hdone := (R.left (R.asked hasked)).left
        unfold noteTransport
        split
        · exact R.keeps_quiet trivial fun _ => hdone
        · exact hdone
    | ok r => exact R.keeps_quiet trivial fun _ => R.onResponse_keeps hasked token r refreshed

/-- An attempt from the second look at the pause on. -/
theorem lookAgain_keeps (hroom : i < q.attempts) (h : R.Holding n i a s g)
    (token : String) (refreshed : Bool) :
    W.Keeps g (do
      match ← ask (rateLimitRemaining a) with
      | some seconds => leaveLimited n a seconds s
      | none =>
          match ← ask (workingClientFor a.id) with
          | .error e => answerWith (.error e)
          | .ok _ => sendOnce q n a i token refreshed s)
      (R.AfterAttempt n i a) := by
  apply R.keeps_pauses
  · trivial
  · intro remaining
    cases remaining with
    | some seconds => exact R.leaveLimited_keeps h seconds
    | none =>
        apply R.keeps_quiet
        · trivial
        · intro client
          cases client with
          | error e => exact (R.left h).left
          | ok _ => exact R.sendOnce_keeps hroom h token refreshed

theorem attemptOnce_keeps (hroom : i < q.attempts) (h : R.Holding n i a s g)
    (refreshed : Bool) :
    W.Keeps g (attemptOnce q n a i (refreshed, s)) (R.AfterAttempt n i a) := by
  apply R.keeps_pauses
  · trivial
  · intro answer
    cases answer with
    | error e =>
        cases e with
        | rateLimited seconds => exact R.leaveLimited_keeps h seconds
        | _ => exact R.keeps_quiet trivial fun _ => R.failed h _
    | ok token =>
        show W.Keeps g (do
          if 0 < i then
            ask jitter
          _) _
        split
        · exact R.keeps_quiet trivial fun _ => R.lookAgain_keeps hroom h token refreshed
        · exact R.lookAgain_keeps hroom h token refreshed

/-!
## The loops
-/

/-- All attempts on an account, once it has been leased. -/
theorem onAccount_keeps (h : R.Holding n 0 a s g) :
    W.Keeps g (onAccount q n a s) fun g' out =>
      match out with
      | .inl s' => R.Ready (n + 1) s' g'
      | .inr _ => R.Done g' := by
  apply R.keeps_quiet
  · trivial
  · intro client
    cases client with
    | error e => exact (R.left h).left
    | ok _ =>
        show W.Keeps g ((times (attemptOnce q n a) q.attempts 0 (false, s)).bind _) _
        apply Watch.keeps_times_bind
          (fun i g carried => i < q.attempts ∧ R.Holding n i a carried.2 g)
          fun g out =>
            match out with
            | .failover s' => R.Ready (n + 1) s' g
            | .answered _ => R.Done g
        · exact ⟨Nat.lt_of_lt_of_le Nat.one_pos (Nat.le_max_right _ _), h⟩
        · intro i g carried hi hinv
          apply (R.attemptOnce_keeps hi hinv.right carried.1).mono
          intro g' out hout
          rcases out with ⟨refreshed, s'⟩ | s' | result
          · exact hout
          · exact hout
          · exact hout
        · intro g carried hinv
          exact absurd hinv.left (lt_irrefl _)
        · intro g out hout
          cases out with
          | failover s' => exact hout
          | answered result => exact hout

/-- What the choice of an account leads to. -/
def AfterLease (n : Nat) (g : G) : Except AppError (AccountRef × PoolTry) -> Prop
  | .ok (a, s) => R.Holding n 0 a s g
  | .error _ => R.Done g

theorem alertIfAllDown_keeps (h : R.Done g) (e : AppError) :
    W.Keeps g (alertIfAllDown e) fun g' _ => R.Done g' := by
  cases e with
  | serviceUnavailable message =>
      show W.Keeps g (if _ then _ else _) _
      split
      · exact R.keeps_quiet trivial fun _ => R.keeps_quiet trivial fun _ => h
      · exact h
  | _ => exact h

theorem leaseNext_keeps (h : R.Ready n s g) (hn : n < q.accountAttempts count)
    (htry : s.MayTry n) : W.Keeps g (leaseNext q.kind s) (R.AfterLease n) := by
  rcases R.lease h hn htry with ⟨hmay, hleased⟩
  constructor
  · exact hmay
  · intro answer hanswer
    cases answer with
    | ok a => exact hleased (.ok a) hanswer
    | error e =>
        show W.Keeps _ ((alertIfAllDown e).bind _) _
        rw [Watch.keeps_bind]
        exact R.alertIfAllDown_keeps (hleased (.error e) hanswer) e

theorem leasePreferred_keeps (h : R.Ready 0 s g) (hroom : 0 < q.accountAttempts count)
    (htry : s.MayTry 0) (hnone : s.failedIds = []) (preferred : AccountRef) :
    W.Keeps g (leasePreferred q.kind preferred 0 s) (R.AfterLease 0) := by
  apply R.keeps_pauses
  · trivial
  · intro remaining
    cases remaining with
    | some seconds =>
        have hpause : (rateLimitRemaining preferred).isPause (some seconds) = true := rfl
        dsimp only [Prog.bind]
        rw [if_pos hpause]
        split
        · exact (R.ended h).right
        · rename_i f hschedule
          rcases R.diverted preferred h hroom htry hnone hschedule with ⟨hmay, hleased⟩
          constructor
          · exact hmay
          · intro answer hanswer
            cases answer with
            | ok alternative => exact hleased (.ok alternative) hanswer
            | error e => exact hleased (.error e) hanswer
    | none =>
        rcases R.preferred preferred h hroom htry hnone with ⟨hmay, hheld⟩
        constructor
        · exact hmay
        · intro _ _
          exact hheld

theorem leaseFor_keeps (h : R.Ready n s g) (hn : n < q.accountAttempts count)
    (htry : s.MayTry n) : W.Keeps g (leaseFor q n s) (R.AfterLease n) := by
  unfold leaseFor
  split
  · rename_i hfirst
    rcases hfirst with ⟨rfl, hnone⟩
    cases q.preferredAccount with
    | none => exact R.leaseNext_keeps h hn htry
    | some preferred => exact R.leasePreferred_keeps h hn htry hnone preferred
  · exact R.leaseNext_keeps h hn htry

theorem tryAccount_keeps (h : R.Ready n s g) (hn : n < q.accountAttempts count) :
    W.Keeps g (tryAccount q n s) fun g' out =>
      match out with
      | .inl s' => R.Ready (n + 1) s' g'
      | .inr _ => R.Done g' := by
  unfold tryAccount
  split
  · exact (R.ended h).left
  · rename_i htry
    rw [Watch.keeps_bind']
    apply (R.leaseFor_keeps h hn htry).mono
    intro g' out hout
    cases out with
    | error e => exact hout
    | ok leased => exact R.onAccount_keeps hout

/-- A request keeps to the watch, when the rules hold for every number of accounts. -/
theorem makeRequestWithLimit_keeps (R : forall count, PoolRules W q count)
    (hmay : W.may g playbackCount)
    (hstart : forall count, W.hears g playbackCount count ->
      (R count).Ready 0 .start (W.note g playbackCount count)) :
    W.Keeps g (makeRequestWithLimit q) fun g' _ => exists count, (R count).Done g' := by
  constructor
  · exact hmay
  · intro count hcount
    show W.Keeps _ ((times (tryAccount q) (q.accountAttempts count) 0 .start).bind _) _
    apply Watch.keeps_times_bind (fun n g s => (R count).Ready n s g)
      fun g _ => (R count).Done g
    · exact hstart count hcount
    · intro n g s hn hready
      apply ((R count).tryAccount_keeps hready hn).mono
      intro g' out hout
      cases out with
      | inl s' => exact hout
      | inr result => exact hout
    · intro g s hready
      exact ⟨count, ((R count).ended hready).left⟩
    · intro g result hdone
      exact ⟨count, hdone⟩

end Rules

end PoolRules

end HifiApi
