import HifiApi.Failover.Bounded
import HifiApi.Failover.Routes

/-!
# The bounds of videos and licenses

Both routes keep to the watch of a failover with two requests on an account.
-/

namespace HifiApi

open Prog TidalCall FailoverJournal Failover

/-- The watch of a route that sends at most two requests on an account. -/
def routeWatch : Watch Answer FailoverJournal := watch 2 none

/-- What a round leads to. -/
def AfterRound {ρ : Type} (count n : Nat) (g : FailoverJournal) :
    FailoverRound Failover ρ -> Prop
  | .inl f => f.Ready count (n + 1) g
  | .inr _ => True

section Rounds

variable {ρ : Type} {count n i : Nat} {a : AccountRef} {s : Failover}
  {g : FailoverJournal} {e : AppError}

theorem continueLimited_keeps (h : s.Holding count n i false a.id g) (limited : Bool) :
    routeWatch.Keeps (g.metIf limited)
      (continueLimited n a e s : TidalProg (FailoverRound Failover ρ)) (AfterRound count n) := by
  unfold continueLimited
  split
  · trivial
  · rename_i f hschedule
    exact h.schedule hschedule limited

theorem continueFailed_keeps (h : s.Holding count n i false a.id g) (message : String) :
    routeWatch.Keeps g (continueFailed a message e s : TidalProg (FailoverRound Failover ρ))
      (AfterRound count n) := by
  constructor
  · trivial
  · intro _ _
    exact h.fail e

theorem continueAfter_keeps (h : s.Holding count n i false a.id g) (message : String)
    {limited : Bool} (hlimited : limited = true -> e.isRateLimited = true) :
    routeWatch.Keeps (g.metIf limited)
      (continueAfter n a message e s : TidalProg (FailoverRound Failover ρ))
      (AfterRound count n) := by
  unfold continueAfter
  split
  · exact continueLimited_keeps h limited
  · rename_i hother
    cases limited with
    | false => exact continueFailed_keeps h message
    | true => exact absurd (hlimited rfl) hother

/-- What a request on an account leads to: when a 429 has been met, it is the
result. -/
def AfterRequest {α : Type} (count n i : Nat) (id : String) (s : Failover)
    (g : FailoverJournal) (result : Except AppError α) : Prop :=
  exists g' limited, g = g'.metIf limited ∧ s.Holding count n (i + 1) false id g' ∧
    (limited = true -> exists seconds, result = .error (.rateLimited seconds))

/-- A result of a request that has met no 429. -/
theorem afterRequest_unmet {α : Type} {result : Except AppError α}
    (h : s.Holding count n (i + 1) false a.id g) :
    AfterRequest count n i a.id s g result :=
  ⟨g, false, rfl, h, fun hlimited => nomatch hlimited⟩

theorem afterRequest_limited {α : Type} {seconds : Nat}
    (h : s.Holding count n (i + 1) false a.id g) (limited : Bool) :
    AfterRequest count n i a.id s (g.metIf limited)
      (.error (.rateLimited seconds) : Except AppError α) :=
  ⟨g, limited, rfl, h, fun _ => ⟨seconds, rfl⟩⟩

theorem readJson_keeps (h : s.Holding count n (i + 1) false a.id g)
    (status : StatusCode) :
    routeWatch.Keeps g (readJson status) (AfterRequest count n i a.id s) := by
  constructor
  · trivial
  · intro answer _
    cases answer with
    | error e => exact afterRequest_unmet h
    | ok body =>
        dsimp only [Prog.bind]
        split
        · exact afterRequest_unmet h
        · exact afterRequest_unmet h

theorem readAuthed_keeps (h : s.Holding count n (i + 1) false a.id g)
    (account : Option AccountRef) (accountId : String) (r : TidalResponse) :
    routeWatch.Keeps (g.metIf (decide (r.status.code = 429)))
      (readAuthed account accountId r) (AfterRequest count n i a.id s) := by
  unfold readAuthed
  by_cases hlimited : r.status.code = 429
  · rw [if_pos hlimited, decide_eq_true hlimited]
    cases account with
    | none =>
        constructor
        · trivial
        · intro seconds _
          constructor
          · trivial
          · intro _ _
            exact afterRequest_limited h true
    | some other =>
        constructor
        · trivial
        · intro seconds _
          constructor
          · trivial
          · intro _ _
            exact afterRequest_limited h true
  · rw [if_neg hlimited, decide_eq_false hlimited]
    split
    · exact readJson_keeps h r.status
    · exact afterRequest_unmet h

theorem sendAuthed_keeps (hroom : i < 2) (h : s.Holding count n i false a.id g)
    (account : Option AccountRef) (url : String) (params : List (String × String))
    (token accountId : String) :
    routeWatch.Keeps g (sendAuthed account url params token accountId)
      (AfterRequest count n i a.id s) := by
  constructor
  · exact h.maySend hroom
  · intro answer _
    cases answer with
    | error e =>
        show routeWatch.Keeps g.sent ((noteTransport accountId e).bind _) _
        rw [Watch.keeps_bind]
        apply (noteTransport_keeps accountId e).mono
        intro g' _ hsame
        rw [hsame]
        exact afterRequest_unmet h.sent
    | ok r =>
        constructor
        · trivial
        · intro _ _
          exact readAuthed_keeps h.sent account accountId r

theorem workingClient_keeps (hroom : i < 2) (h : s.Holding count n i false a.id g)
    (account : Option AccountRef) (url : String) (params : List (String × String))
    (token accountId : String) :
    routeWatch.Keeps g (do
      match ← ask (workingClientFor accountId) with
      | .error e => return .error e
      | .ok _ => sendAuthed account url params token accountId)
      (AfterRequest count n i a.id s) := by
  constructor
  · trivial
  · intro client _
    cases client with
    | error e => exact afterRequest_unmet h.later
    | ok _ => exact sendAuthed_keeps hroom h account url params token accountId

theorem makeAuthedRequest_keeps (hroom : i < 2) (h : s.Holding count n i false a.id g)
    (url : String) (params : List (String × String)) (token accountId : String) :
    routeWatch.Keeps g (makeAuthedRequest url params token accountId)
      (AfterRequest count n i a.id s) := by
  constructor
  · trivial
  · intro account _
    cases account with
    | none => exact workingClient_keeps hroom h none url params token accountId
    | some other =>
        constructor
        · trivial
        · intro remaining _
          cases remaining with
          | none => exact workingClient_keeps hroom h (some other) url params token accountId
          | some seconds => exact afterRequest_limited h.later true

/-- A refresh after a refused token: when it meets a 429, that is its error. -/
theorem refresh_keeps (h : s.Holding count n i false a.id g) (token message : String)
    {next : String -> TidalProg (FailoverRound Failover ρ)}
    (hnext : forall fresh, routeWatch.Keeps g (next fresh) (AfterRound count n)) :
    routeWatch.Keeps g (do
      match ← ask (refreshAfterUnauthorized a token) with
      | .ok fresh => next fresh
      | .error e => continueAfter n a message e s) (AfterRound count n) := by
  constructor
  · trivial
  · intro answer _
    cases answer with
    | ok fresh => exact hnext fresh
    | error e => exact continueAfter_keeps h message fun hlimited => hlimited

/-!
## Videos
-/

variable {v : VideoRequest}

theorem retryVideo_keeps (h : s.Holding count n 1 false a.id g) (fresh : String) :
    routeWatch.Keeps g (retryVideo v n a fresh s) (AfterRound count n) := by
  unfold retryVideo
  rw [Watch.keeps_bind']
  apply (makeAuthedRequest_keeps (Nat.lt_succ_self 1) h v.url v.params fresh a.id).mono
  intro g' result hresult
  rcases hresult with ⟨g0, limited, rfl, hheld, hlimited⟩
  cases result with
  | ok data => trivial
  | error e =>
      have hrest : routeWatch.Keeps (g0.metIf limited)
          (continueAfter n a "video retry failed: " e s : TidalProg (FailoverRound Failover Value))
          (AfterRound count n) := by
        apply continueAfter_keeps hheld
        intro hmet
        rcases hlimited hmet with ⟨seconds, heq⟩
        cases heq
        rfl
      show routeWatch.Keeps _ (if isUnauthorized e = true then _ else _) _
      split
      · constructor
        · trivial
        · intro _ _
          exact hrest
      · exact hrest

theorem onVideo_keeps {result : Except AppError Value}
    (h : AfterRequest count n 0 a.id s g result) (token : String) :
    routeWatch.Keeps g (onVideo v n a token s result) (AfterRound count n) := by
  rcases h with ⟨g0, limited, rfl, hheld, hlimited⟩
  cases result with
  | ok data => trivial
  | error e =>
      cases e with
      | rateLimited seconds => exact continueLimited_keeps hheld limited
      | upstreamError status detail =>
          have hunmet : limited = false := by
            cases limited with
            | false => rfl
            | true =>
                rcases hlimited rfl with ⟨seconds, heq⟩
                cases heq
          rw [hunmet]
          show routeWatch.Keeps g0 (if status.code = 401 then _ else _) _
          split
          · exact refresh_keeps hheld token _ fun fresh => retryVideo_keeps hheld fresh
          · split
            · constructor
              · trivial
              · intro _ _
                exact hheld.fail _
            · trivial
      | _ => trivial

theorem room_none (h : g.count = count) (hcount : n < max count 1) :
    n < g.room none := by
  show n < max 1 g.count
  rw [h]
  omega

theorem tryVideo_keeps (h : s.Ready count n g) (hcount : n < max count 1) :
    routeWatch.Keeps g (tryVideo v n s) (AfterRound count n) := by
  unfold tryVideo
  split
  · trivial
  · rename_i hgoes
    constructor
    · exact h.mayLease (Bool.eq_false_of_not_eq_true hgoes) (room_none h.count hcount)
    · intro answer _
      cases answer with
      | error e => trivial
      | ok a =>
          have hheld : Holding count n 0 false a.id _ _ := h.leased a.id
          constructor
          · trivial
          · intro client _
            cases client with
            | error e => trivial
            | ok _ =>
                constructor
                · trivial
                · intro token _
                  cases token with
                  | error e => exact continueAfter_keeps hheld _ fun hlimited => hlimited
                  | ok token =>
                      show routeWatch.Keeps _
                        ((makeAuthedRequest v.url v.params token a.id).bind _) _
                      rw [Watch.keeps_bind]
                      apply (makeAuthedRequest_keeps (Nat.succ_pos 1) hheld v.url v.params
                        token a.id).mono
                      intro g' result hresult
                      exact onVideo_keeps hresult token

end Rounds

/-- A failover loop keeps to the watch when its rounds do. -/
theorem overAccounts_keeps {σ ρ : Type} (tryOne : Nat -> σ -> TidalProg (FailoverRound σ ρ))
    (finish : σ -> Except AppError ρ) (start : σ) (toFailover : σ -> Failover)
    (hstart : toFailover start = .start)
    (htry : forall count n s g, (toFailover s).Ready count n g -> n < max count 1 ->
      routeWatch.Keeps g (tryOne n s) fun g' out =>
        match out with
        | .inl s' => (toFailover s').Ready count (n + 1) g'
        | .inr _ => True)
    {g : FailoverJournal} (hfresh : g.leases = []) :
    routeWatch.Keeps g (overAccounts tryOne finish start) fun _ _ => True := by
  constructor
  · exact hfresh
  · intro count _
    show routeWatch.Keeps _ ((times tryOne (max count 1) 0 start).bind _) _
    apply Watch.keeps_times_bind (fun n g s => (toFailover s).Ready count n g)
      fun _ _ => True
    · rw [hstart]
      exact ready_start count
    · intro n g s hn hready
      apply (htry count n s g hready hn).mono
      intro g' out hout
      cases out with
      | inl s' => exact hout
      | inr result => trivial
    · intro _ _ _
      trivial
    · intro _ _ _
      trivial

theorem fetchVideoPlayback_keeps (v : VideoRequest) :
    routeWatch.Keeps start (fetchVideoPlayback v) fun _ _ => True := by
  apply overAccounts_keeps (tryVideo v) finishVideo .start id rfl _ rfl
  intro count n s g h hcount
  apply (tryVideo_keeps h hcount).mono
  intro g' out hout
  cases out with
  | inl f => exact hout
  | inr result => trivial

/-!
## Licenses
-/

section Licenses

variable {count n i : Nat} {a : AccountRef} {s : LicenseTry} {g : FailoverJournal}
  {l : LicenseRequest}

/-- What a round leads to. -/
def AfterLicense (count n : Nat) (g : FailoverJournal) :
    FailoverRound LicenseTry License -> Prop
  | .inl s => s.toFailover.Ready count (n + 1) g
  | .inr _ => True

theorem lift_keeps {p : TidalProg (FailoverRound Failover License)}
    (h : routeWatch.Keeps g p (AfterRound count n)) :
    routeWatch.Keeps g (s.lift p) (AfterLicense count n) := by
  unfold LicenseTry.lift
  rw [Watch.keeps_bind']
  apply h.mono
  intro g' out hout
  cases out with
  | inl f => exact hout
  | inr result => trivial

theorem sendLicenseOnce_keeps (hroom : i < 2)
    (h : s.toFailover.Holding count n i false a.id g) (token : String) :
    routeWatch.Keeps g (sendLicenseOnce l a token) fun g' result =>
      match result with
      | .ok r => g' = g.sent.metIf (decide (r.status.code = 429))
      | .error _ => True := by
  constructor
  · exact h.maySend hroom
  · intro answer _
    cases answer with
    | error e =>
        show routeWatch.Keeps g.sent ((noteTransport a.id e).bind _) _
        rw [Watch.keeps_bind]
        exact (noteTransport_keeps a.id e).mono fun _ _ _ => trivial
    | ok r =>
        constructor
        · trivial
        · intro _ _
          rfl

theorem readLicense_keeps (h : s.toFailover.Holding count n i false a.id g)
    (r : TidalResponse) :
    routeWatch.Keeps g (readLicense a r s) (AfterLicense count n) := by
  constructor
  · trivial
  · intro content _
    show routeWatch.Keeps g (if _ then _ else _) _
    split
    · constructor
      · trivial
      · intro _ _
        exact h.fail _
    · trivial

theorem onLicense_keeps (h : s.toFailover.Holding count n i false a.id g)
    (token : String) (r : TidalResponse) :
    routeWatch.Keeps (g.metIf (decide (r.status.code = 429)))
      (onLicense n a token r s) (AfterLicense count n) := by
  unfold onLicense
  by_cases hlimited : r.status.code = 429
  · rw [decide_eq_true hlimited, if_neg (by omega), if_pos hlimited]
    constructor
    · trivial
    · intro seconds _
      constructor
      · trivial
      · intro _ _
        exact lift_keeps (continueLimited_keeps h true)
  · rw [decide_eq_false hlimited]
    split
    · constructor
      · trivial
      · intro _ _
        exact readLicense_keeps h r
    · exact readLicense_keeps h r

theorem retryLicense_keeps (h : s.toFailover.Holding count n 1 false a.id g)
    (fresh : String) :
    routeWatch.Keeps g (retryLicense l n a fresh s) (AfterLicense count n) := by
  constructor
  · trivial
  · intro client _
    cases client with
    | error e => trivial
    | ok _ =>
        show routeWatch.Keeps g ((sendLicenseOnce l a fresh).bind _) _
        rw [Watch.keeps_bind]
        apply (sendLicenseOnce_keeps (Nat.lt_succ_self 1) h fresh).mono
        intro g' result hresult
        cases result with
        | error e => trivial
        | ok r =>
            change g' = _ at hresult
            rw [hresult]
            exact onLicense_keeps h.sent fresh r

theorem refreshLicense_keeps (h : s.toFailover.Holding count n 1 false a.id g)
    (token : String) :
    routeWatch.Keeps g (refreshLicense l n a token s) (AfterLicense count n) := by
  constructor
  · trivial
  · intro answer _
    cases answer with
    | ok fresh => exact retryLicense_keeps h fresh
    | error e => exact lift_keeps (continueAfter_keeps h _ fun hlimited => hlimited)

theorem requestLicense_keeps (h : s.toFailover.Holding count n 0 false a.id g)
    (token : String) :
    routeWatch.Keeps g (requestLicense l n a token s) (AfterLicense count n) := by
  constructor
  · trivial
  · intro remaining _
    cases remaining with
    | some seconds => exact lift_keeps (continueLimited_keeps h true)
    | none =>
        constructor
        · trivial
        · intro client _
          cases client with
          | error e => trivial
          | ok _ =>
              show routeWatch.Keeps g ((sendLicenseOnce l a token).bind _) _
              rw [Watch.keeps_bind]
              apply (sendLicenseOnce_keeps (Nat.succ_pos 1) h token).mono
              intro g' result hresult
              cases result with
              | error e => trivial
              | ok r =>
                  change g' = _ at hresult
                  rw [hresult]
                  show routeWatch.Keeps _ (if r.status.code = 401 then _ else _) _
                  split
                  · rename_i hrefused
                    have hother : ¬ r.status.code = 429 := by omega
                    rw [decide_eq_false hother]
                    exact refreshLicense_keeps h.sent token
                  · exact onLicense_keeps h.sent token r

theorem tryLicense_keeps (h : s.toFailover.Ready count n g) (hcount : n < max count 1) :
    routeWatch.Keeps g (tryLicense l n s) (AfterLicense count n) := by
  unfold tryLicense
  split
  · trivial
  · rename_i hgoes
    constructor
    · exact h.mayLease (Bool.eq_false_of_not_eq_true hgoes) (room_none h.count hcount)
    · intro answer _
      cases answer with
      | error e => trivial
      | ok a =>
          have hheld : Holding count n 0 false a.id _ _ := h.leased a.id
          constructor
          · trivial
          · intro client _
            cases client with
            | error e => trivial
            | ok _ =>
                constructor
                · trivial
                · intro token _
                  cases token with
                  | error e =>
                      exact lift_keeps
                        (continueAfter_keeps hheld _ fun hlimited => hlimited)
                  | ok token => exact requestLicense_keeps hheld token

end Licenses

theorem fetchWidevineLicense_keeps (l : LicenseRequest) :
    routeWatch.Keeps start (fetchWidevineLicense l) fun _ _ => True := by
  apply overAccounts_keeps (tryLicense l) LicenseTry.finish .start LicenseTry.toFailover rfl
    _ rfl
  intro count n s g h hcount
  apply (tryLicense_keeps h hcount).mono
  intro g' out hout
  cases out with
  | inl s' => exact hout
  | inr result => trivial

/-- Every failover is bounded, at every point of every run: an account is leased once
at most, with so many requests and no more, no more accounts are leased than there
are, two at most after the first 429, and none while an earlier one is not
excluded. -/
theorem failover_bounded (trace : List TidalEvent) (hadmitted : Admitted trace) :
    (forall q left, (makeRequestWithLimit q).Runs trace left ->
      (after trace).Bounded (max 1 q.requestsPerAccount)) ∧
    (forall v left, (fetchVideoPlayback v).Runs trace left ->
      (after trace).Bounded 2) ∧
    (forall l left, (fetchWidevineLicense l).Runs trace left ->
      (after trace).Bounded 2) := by
  constructor
  · intro q left hruns
    rw [Nat.max_comm]
    exact bounded_of_keeps (makeRequestWithLimit_keeps q rfl) hruns hadmitted
  · constructor
    · intro v left hruns
      exact bounded_of_keeps (fetchVideoPlayback_keeps v) hruns hadmitted
    · intro l left hruns
      exact bounded_of_keeps (fetchWidevineLicense_keeps l) hruns hadmitted

/-- The preferred account has been sent its only request, and is paused. -/
theorem failover_bounded_preferred :
    (after
      [⟨playbackCount, 2⟩,
        ⟨rateLimitRemaining ⟨0, "a"⟩, none⟩,
        ⟨lease ⟨0, "a"⟩, ()⟩,
        ⟨workingClientFor "a", .ok ()⟩,
        ⟨getToken ⟨0, "a"⟩, .ok "token"⟩,
        ⟨rateLimitRemaining ⟨0, "a"⟩, none⟩,
        ⟨workingClientFor "a", .ok ()⟩,
        ⟨send (some ⟨0, "a"⟩) "url" [] "token",
          .ok ⟨⟨429, "Too Many Requests"⟩, none, none⟩⟩]).Bounded 1 :=
  (failover_bounded _ (by simp [Admitted, TidalCall.Admits])).left
    ⟨"url", none, some ⟨0, "a"⟩, none, 1, .playback, "1"⟩ _
    (.heard (.heard (.heard (.heard (.heard (.heard (.heard (.heard (.here _)))))))))

end HifiApi
