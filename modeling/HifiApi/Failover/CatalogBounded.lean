import HifiApi.Failover.CatalogJournal

/-!
# The bounds of a metadata request

After a 429 of a catalog call one more credential is tried, and what comes of it is
the result.  A catalog call tries the credential it has got and no other one, and a
request to the pool after a 429 leases one account.
-/

namespace HifiApi

open Prog TidalCall

/-!
## The catalog calls
-/

/-- The calls of a request that tries one credential it has got. -/
def TidalCall.Asks : TidalCall -> Prop
  | catalogTokenPause | workingClient | send _ _ _ _ | noteSuccess | noteFailure
  | retryAfterSecs _ | pauseCatalogToken _ | readText | rateLimitRemaining _
  | workingClientFor _ | getToken _ | catalogRequestsPerAccount | noteSuccessFor _
  | noteFailureFor _ | pauseAccount _ _ | markAccountError _ _ _
  | refreshAfterUnauthorized _ _ | rejectRefreshedToken _ _ => True
  | _ => False

theorem readCatalog_only (status : StatusCode) : (readCatalog status).Only Asks := by
  apply only_bind (only_ask trivial)
  intro answer
  cases answer with
  | error e => trivial
  | ok body =>
      dsimp only
      split <;> trivial

theorem onStaticAnswer_only (r : TidalResponse) : (onStaticAnswer r).Only Asks := by
  unfold onStaticAnswer
  split
  · exact only_bind (only_ask trivial) fun _ => only_bind (only_ask trivial) fun _ => trivial
  · split
    · exact readCatalog_only r.status
    · trivial

theorem sendStatic_only (q : CatalogRequest) : (sendStatic q).Only Asks := by
  apply only_bind (only_ask trivial)
  intro answer
  cases answer with
  | error e =>
      show Only Asks (if e.isConnect || e.isTimeout then _ else _)
      split
      · exact only_bind (only_ask trivial) fun _ => trivial
      · trivial
  | ok r => exact only_bind (only_ask trivial) fun _ => onStaticAnswer_only r

theorem catalogStaticGet_only (q : CatalogRequest) :
    (catalogStaticGet q).Only Asks := by
  apply only_bind (only_ask trivial)
  intro remaining
  cases remaining with
  | some seconds => trivial
  | none =>
      apply only_bind (only_ask trivial)
      intro client
      cases client with
      | error e => trivial
      | ok _ => exact sendStatic_only q

theorem noteTransport_only (id : String) (e : ReqwestError) :
    (noteTransport id e).Only Asks := by
  unfold noteTransport
  split
  · exact only_ask trivial
  · trivial

section Account

variable {q : CatalogRequest} {attempts attempt : Nat} {a : AccountRef}

theorem onCatalogStatus_only (token : String) (r : TidalResponse) :
    (onCatalogStatus attempts attempt token r).Only Asks := by
  unfold onCatalogStatus
  split
  · exact only_bind (readCatalog_only r.status) fun _ => trivial
  · split <;> trivial

theorem onCatalogAnswer_only (token : String) (r : TidalResponse) :
    (onCatalogAnswer attempts a attempt token r).Only Asks := by
  unfold onCatalogAnswer
  split
  · exact only_bind (only_ask trivial) fun _ => only_bind (only_ask trivial) fun _ => trivial
  · split
    · apply only_bind (only_ask trivial)
      intro answer
      cases answer <;> trivial
    · split
      · exact only_bind (only_ask trivial) fun _ => onCatalogStatus_only token r
      · exact onCatalogStatus_only token r

theorem sendCatalog_only (token : String) :
    (sendCatalog q attempts a attempt token).Only Asks := by
  apply only_bind (only_ask trivial)
  intro answer
  cases answer with
  | error e => exact only_bind (noteTransport_only a.id e) fun _ => trivial
  | ok r => exact only_bind (only_ask trivial) fun _ => onCatalogAnswer_only token r

theorem catalogAttempt_only (token : String) :
    (catalogAttempt q attempts a attempt token).Only Asks := by
  apply only_bind (only_ask trivial)
  intro remaining
  cases remaining with
  | some seconds => trivial
  | none =>
      apply only_bind (only_ask trivial)
      intro client
      cases client with
      | error e => trivial
      | ok _ => exact sendCatalog_only token

theorem catalogAttempts_only (token : String) :
    (catalogAttempts q a token).Only Asks := by
  apply only_bind (only_ask trivial)
  intro perAccount
  apply only_bind
  · exact only_times (fun _ token => catalogAttempt_only token) _ _ _
  · intro out
    cases out <;> trivial

theorem catalogAccountGet_only : (catalogAccountGet q a).Only Asks := by
  apply only_bind (only_ask trivial)
  intro remaining
  cases remaining with
  | some seconds => trivial
  | none =>
      apply only_bind (only_ask trivial)
      intro client
      cases client with
      | error e => trivial
      | ok _ =>
          apply only_bind (only_ask trivial)
          intro token
          cases token with
          | error e => trivial
          | ok token => exact catalogAttempts_only token

end Account

/-!
## The request keeps to its watch
-/

open CatalogJournal

/-- The journal of the pool apart, and nothing leased yet. -/
def SamePhase (g g' : CatalogJournal) : Prop :=
  exists pool, pool.leases = [] ∧ g' = { g with pool := pool }

section Asking

variable {g : CatalogJournal} {c : TidalCall}

theorem asks_allows (h : Asks c) : g.Allows c := by
  cases c with
  | claimCatalogSlot | lease | leasePoolAccount => exact h.elim
  | _ => trivial

theorem asks_note (h : Asks c) (answer : Answer c) :
    g.note c answer = g.onPool c answer := by
  cases c with
  | claimCatalogSlot | lease | leasePoolAccount | catalogReturned | poolReturned =>
      exact h.elim
  | _ => rfl

theorem asks_leases (h : Asks c) {pool : FailoverJournal} (hnone : pool.leases = [])
    (answer : Answer c) : (pool.note c answer).leases = [] := by
  cases c with
  | send a url params token =>
      show (pool.sent.metIf _).leases = []
      rw [(Failover.metIf_leases _ _).right, FailoverJournal.sent, hnone]
  | rateLimitRemaining a => exact (Failover.metIf_leases pool _).right.trans hnone
  | getToken a => exact (Failover.metIf_leases pool _).right.trans hnone
  | refreshAfterUnauthorized a token =>
      exact (Failover.metIf_leases pool _).right.trans hnone
  | playbackCount | lease | leasePoolAccount | sendLicense => exact h.elim
  | _ => exact hnone

/-- Asking with a credential leaves the journal of the request alone. -/
theorem asks_keeps {α : Type} {p : TidalProg α} (h : p.Only Asks)
    (hopen : g.settled = none) (hnone : g.pool.leases = []) :
    CatalogJournal.watch.Keeps g p fun g' _ => SamePhase g g' := by
  induction p generalizing g with
  | done result =>
      exact ⟨g.pool, hnone, rfl⟩
  | call c next ih =>
      constructor
      · exact ⟨hopen, asks_allows h.left⟩
      · intro answer _
        have hnone' := asks_leases h.left hnone answer
        have hrest := ih answer (h.right answer) (g := g.onPool c answer) hopen hnone'
        rw [← asks_note h.left answer] at hrest
        apply hrest.mono
        intro g' _ hsame
        rw [asks_note h.left answer] at hsame
        rcases hsame with ⟨pool, hpool, rfl⟩
        exact ⟨pool, hpool, rfl⟩

end Asking

/-!
## The loop over the catalog accounts
-/

/-- Between two rounds. -/
structure CatalogTry.Ready (n : Nat) (s : CatalogTry) (g : CatalogJournal) : Prop where
  limited : s.rateLimitError = g.limited
  untried : s.fallbackTried = false
  settled : g.settled = none
  since : g.since = 0
  claims : g.claims ≤ n
  leases : g.pool.leases = []

/-- The request has a result, and after a 429 of a catalog call it is what the attempt
after it has come to. -/
def EndsWith (g : CatalogJournal) (result : Option (Except AppError Value)) : Prop :=
  exists r, result = some r ∧
    (g.settled = some r ∨ g.limited = none ∧ g.settled = none)

/-- What a round leads to. -/
def AfterCatalogRound (n : Nat) (g : CatalogJournal) : CatalogRound -> Prop
  | .inl s => s.Ready (n + 1) g
  | .inr (.failover s) => s.Ready 2 g
  | .inr (.answered result) => EndsWith g result

section Rounds

variable {q : CatalogRequest} {n : Nat} {s : CatalogTry} {g g' : CatalogJournal}

theorem endsWith_open (hnone : g.limited = none) (hopen : g.settled = none)
    (r : Except AppError Value) : EndsWith g (some r) :=
  ⟨r, rfl, Or.inr ⟨hnone, hopen⟩⟩

theorem marked_keeps {p : TidalProg (Except AppError Value)} (h : p.Only Asks)
    (hopen : g.settled = none) (hnone : g.pool.leases = []) :
    CatalogJournal.watch.Keeps g (marked p) fun g' result =>
      exists called, SamePhase g called ∧ g' = called.returned result := by
  unfold marked
  rw [Watch.keeps_bind']
  apply (asks_keeps h hopen hnone).mono
  intro called result hsame
  constructor
  · constructor
    · rcases hsame with ⟨pool, _, rfl⟩
      exact hopen
    · trivial
  · intro _ _
    exact ⟨called, hsame, rfl⟩

/-- A catalog account has been asked, and no 429 has been met before. -/
theorem onCatalogResult_first (h : s.Ready (n + 1) g) (hn : n < 2)
    (hnone : g.limited = none) (result : Except AppError Value) :
    CatalogJournal.watch.Keeps (g.returned result) (onCatalogResult s result)
      (AfterCatalogRound n) := by
  cases result with
  | ok data =>
      rw [returned_ok hnone]
      exact endsWith_open hnone h.settled (.ok data)
  | error e =>
      rw [returned_error hnone]
      unfold onCatalogResult
      dsimp only
      rw [h.untried, if_neg Bool.false_ne_true]
      split
      · exact ⟨rfl, rfl, h.settled, h.since, h.claims, h.leases⟩
      · exact ⟨h.limited, h.untried, h.settled, h.since, h.claims.trans hn, h.leases⟩

/-- A catalog account has been asked after a 429. -/
theorem onCatalogResult_last {e : AppError} (hlimited : g.limited = some e)
    (htried : s.fallbackTried = true) (result : Except AppError Value) :
    CatalogJournal.watch.Keeps (g.returned result) (onCatalogResult s result)
      (AfterCatalogRound n) := by
  rw [returned_again hlimited]
  have hends : EndsWith { g with settled := some result } (some result) :=
    ⟨result, rfl, Or.inl rfl⟩
  cases result with
  | ok data => exact hends
  | error e =>
      unfold onCatalogResult
      dsimp only
      rw [htried, if_pos rfl]
      exact hends

theorem tryCatalog_keeps (h : s.Ready n g) (hn : n < 2) (concurrency : Nat) :
    CatalogJournal.watch.Keeps g (tryCatalog q concurrency n s)
      (AfterCatalogRound n) := by
  have hgoes : ¬ (s.rateLimitError.isSome = true ∧ s.fallbackTried = true) := by
    rw [h.untried]
    exact fun hboth => Bool.false_ne_true hboth.right
  have hleft : s.Ready 2 g :=
    ⟨h.limited, h.untried, h.settled, h.since, h.claims.trans hn.le, h.leases⟩
  unfold tryCatalog
  rw [if_neg hgoes]
  constructor
  · exact ⟨h.settled, fun _ => h.since, h.claims.trans_lt hn⟩
  · intro claim _
    cases claim with
    | busy =>
        exact ⟨hleft.limited, hleft.untried, hleft.settled, hleft.since, hleft.claims,
          hleft.leases⟩
    | unavailable => exact hleft
    | slot a =>
        show CatalogJournal.watch.Keeps g.claimed
          ((marked (catalogAccountGet q a)).bind _) _
        rw [Watch.keeps_bind]
        have hopen : g.claimed.settled = none := h.settled
        have hleases : g.claimed.pool.leases = [] := h.leases
        apply (marked_keeps catalogAccountGet_only hopen hleases).mono
        rintro g' result ⟨called, ⟨pool, hpool, hcalled⟩, rfl⟩
        have hsame : called.limited = g.limited := by
          rw [hcalled]
          rfl
        cases hlimited : g.limited with
        | none =>
            have hclaimed : s.claimed = s := by
              unfold CatalogTry.claimed
              rw [h.limited, hlimited]
              exact if_neg Bool.false_ne_true
            have hsince : g.claimed.since = 0 := by
              show (if g.limited.isSome then g.since + 1 else g.since) = 0
              rw [hlimited]
              exact h.since
            have hready : s.Ready (n + 1) called := by
              rw [hcalled]
              exact ⟨h.limited, h.untried, h.settled, hsince,
                Nat.succ_le_succ h.claims, hpool⟩
            rw [hclaimed]
            exact onCatalogResult_first hready hn (hsame.trans hlimited) result
        | some e =>
            have htried : s.claimed.fallbackTried = true := by
              unfold CatalogTry.claimed
              rw [h.limited, hlimited]
              rfl
            exact onCatalogResult_last (hsame.trans hlimited) htried result

/-!
## The pool and the request
-/

theorem askPool_keeps (h : s.Ready 2 g) {limit : Option Nat}
    (hlimit : g.limited.isSome = true -> limit = some 1) :
    CatalogJournal.watch.Keeps g (askPool q limit) fun g' result =>
      exists called : CatalogJournal, called.limited = g.limited ∧
        called.settled = none ∧ g' = called.poolAnswered result := by
  constructor
  · exact ⟨h.settled, trivial⟩
  · intro perAccount _
    have hstart : OnPool g g.pool g :=
      ⟨rfl, rfl, h.settled, fun _ => by rw [h.since, h.leases]; rfl⟩
    have hpool : CatalogJournal.watch.Keeps g
        (makeRequestWithLimit (q.pool limit perAccount)) fun g' _ =>
          exists pool, OnPool g pool g' ∧ True := by
      apply (makeRequestWithLimit_keeps (q.pool limit perAccount) h.leases).simulate
        (OnPool g)
      · exact fun _ _ _ hon hmay => hon.may hlimit hmay
      · exact fun _ _ _ _ _ _ => trivial
      · exact fun _ _ _ _ hon hmay _ => hon.note hmay
      · exact hstart
    show CatalogJournal.watch.Keeps g ((makeRequestWithLimit _).bind _) _
    rw [Watch.keeps_bind]
    apply hpool.mono
    rintro called result ⟨pool, hon, _⟩
    constructor
    · exact ⟨hon.settled, trivial⟩
    · intro _ _
      exact ⟨called, hon.limited, hon.settled, rfl⟩

theorem normalRequest_keeps (h : s.Ready 2 g) (hnone : g.limited = none) :
    CatalogJournal.watch.Keeps g (normalRequest q) EndsWith := by
  have hlimit : g.limited.isSome = true -> (none : Option Nat) = some 1 := by
    rw [hnone]
    exact Bool.noConfusion
  unfold normalRequest
  rw [Watch.keeps_bind']
  apply (askPool_keeps h hlimit).mono
  rintro g' result ⟨called, hcalled, hopen, rfl⟩
  rw [CatalogJournal.poolAnswered, hcalled, hnone]
  exact endsWith_open (hcalled.trans hnone) hopen _

theorem overflow_keeps (h : s.Ready 2 g) (hnone : g.limited = none) :
    CatalogJournal.watch.Keeps g (overflow q s) EndsWith := by
  unfold overflow
  split
  · constructor
    · exact ⟨h.settled, trivial⟩
    · intro count _
      have hready : s.Ready 2 (g.onPool playbackCount count) :=
        ⟨h.limited, h.untried, h.settled, h.since, h.claims, rfl⟩
      show CatalogJournal.watch.Keeps (g.onPool playbackCount count)
        (if count = 0 then _ else _) _
      split
      · exact endsWith_open hnone hready.settled _
      · exact normalRequest_keeps hready hnone
  · exact normalRequest_keeps h hnone

/-- The last credential is one account of the pool. -/
theorem lastResort_keeps (h : s.Ready 2 g) {previous : AppError}
    (hprevious : forall e, g.limited = some e -> e = previous) :
    CatalogJournal.watch.Keeps g (do
      let result ← askPool q (some 1)
      return some (afterLimited previous result)) EndsWith := by
  rw [Watch.keeps_bind']
  apply (askPool_keeps h fun _ => rfl).mono
  rintro g' result ⟨called, hcalled, hopen, rfl⟩
  unfold CatalogJournal.poolAnswered
  rw [hcalled]
  cases hlimited : g.limited with
  | none => exact endsWith_open (hcalled.trans hlimited) hopen _
  | some e =>
      rw [hprevious e hlimited]
      exact ⟨_, rfl, Or.inl rfl⟩

theorem afterCatalog_keeps (h : s.Ready 2 g) :
    CatalogJournal.watch.Keeps g (afterCatalog q s) EndsWith := by
  unfold afterCatalog
  rw [h.untried, if_neg Bool.false_ne_true]
  unfold limitedBy
  cases hlimited : s.rateLimitError with
  | some e =>
      apply lastResort_keeps h
      intro e' he'
      rw [← h.limited, hlimited] at he'
      exact (Option.some.inj he').symm
  | none =>
      have hnone : g.limited = none := h.limited.symm.trans hlimited
      constructor
      · exact ⟨h.settled, trivial⟩
      · intro remaining _
        cases remaining with
        | none => exact overflow_keeps h hnone
        | some seconds =>
            apply lastResort_keeps h
            intro e he
            rw [hnone] at he
            cases he

theorem overCatalog_keeps (h : s.Ready 0 g) (concurrency : Nat) :
    CatalogJournal.watch.Keeps g (overCatalog q concurrency s) EndsWith := by
  show CatalogJournal.watch.Keeps g ((times (tryCatalog q concurrency) 2 0 s).bind _) _
  apply Watch.keeps_times_bind (fun n g s => s.Ready n g) fun g out =>
    match out with
    | .failover s => s.Ready 2 g
    | .answered result => EndsWith g result
  · exact h
  · intro n g s hn hready
    apply (tryCatalog_keeps hready hn concurrency).mono
    intro g' out hout
    rcases out with s' | s' | result
    · exact hout
    · exact hout
    · exact hout
  · intro g s' hready
    exact afterCatalog_keeps hready
  · intro g out hout
    cases out with
    | failover s' => exact afterCatalog_keeps hout
    | answered result => exact hout

theorem catalogGet_keeps (q : CatalogRequest) :
    CatalogJournal.watch.Keeps .start (catalogGet q) EndsWith := by
  have hstart : CatalogTry.start.Ready 0 CatalogJournal.start :=
    ⟨rfl, rfl, rfl, rfl, Nat.le_refl 0, rfl⟩
  constructor
  · exact ⟨rfl, trivial⟩
  · intro concurrency _
    show CatalogJournal.watch.Keeps .start (if q.catalogToken = "" then _ else _) _
    split
    · exact overCatalog_keeps hstart concurrency
    · rw [Watch.keeps_bind']
      apply (marked_keeps (catalogStaticGet_only q) rfl rfl).mono
      rintro g' result ⟨called, ⟨pool, hpool, rfl⟩, rfl⟩
      cases result with
      | ok data => exact endsWith_open rfl rfl (.ok data)
      | error e =>
          rw [returned_error rfl]
          show CatalogJournal.watch.Keeps _ (if e.isRateLimited then _ else _) _
          split
          · apply overCatalog_keeps
            exact ⟨rfl, rfl, rfl, rfl, Nat.le_refl 0, hpool⟩
          · apply overCatalog_keeps
            exact ⟨rfl, rfl, rfl, rfl, Nat.le_refl 0, hpool⟩

end Rounds

end HifiApi
