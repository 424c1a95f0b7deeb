import HifiApi.Accounts.Imports
import HifiApi.Cache.Responses
import HifiApi.Lib.System

/-!
# Signing in by code

The administrator starts a sign-in, names the account while it waits, and asks how it
stands.  For each sign-in a task of its own polls for the token, refreshes it with the
client the account is kept under, and adds the account.  The task reads the label and
writes the status under the lock of the sessions, so that requests come in between.
-/

namespace HifiApi

namespace SignIns

inductive SetupStatus where
  | pending
  | complete (accountId label userId : String)
  | error (message : String)
  deriving DecidableEq

structure SetupSession where
  deviceCode : String
  status : SetupStatus
  label : Option String
  deriving DecidableEq

structure StartSetupRequest where
  label : Option String
  catalog : Bool

structure DeviceAuthorization where
  deviceCode : String
  verificationUriComplete : String

structure UserInfo where
  userId : String
  countryCode : String

structure TokenResponse where
  refreshToken : String
  user : Option UserInfo

/-- The answer to a refresh; the lifetime only matters to the token that is kept. -/
structure Refreshed where
  accessToken : String
  refreshToken : Option String
  expiresIn : Int

/-- What {lit}`serde_json` makes of the texts of the two answers. -/
structure Serde where
  token : String -> Except String TokenResponse
  refreshed : String -> Except String Refreshed

/-- What becomes of a request to the token endpoint: a failure with its chain of
causes, or an answer whose body may be unreadable. -/
inductive Reply where
  | failed (chain : String)
  | answered (status : StatusCode) (body : Except String String)

def requestClientId : String := "lw3vR6GE1vtNBsjv"

def requestClientSecret : String := "Y8tIpqKJxs9BEIwYr0I9bSbMWDsogXJx9LaN3mCHwD4="

/-- {lit}`setup_client_secret` -/
def setupClientSecret (roster : List AccountState) : String :=
  match roster.find? fun a => a.clientId == requestClientId && a.clientSecret != "" with
  | some a => a.clientSecret
  | none => requestClientSecret

def cleanLabel (label : Option String) : Option String :=
  (label.map fun s => String.ofList (AccountState.trim s.toList)).filter (· ≠ "")

def verificationUrl (raw : String) : String :=
  if ResponseCache.startsWith raw "http" then raw else "https://" ++ raw

/-- The first 200 characters of a body, {lit}`unwrap_or_default`. -/
def excerpt (body : Except String String) : String :=
  match body with
  | .ok text => String.ofList (text.toList.take 200)
  | .error _ => ""

def TokenResponse.userId (t : TokenResponse) : String :=
  (t.user.map UserInfo.userId).getD "unknown"

def labelFor (live custom : Option String) (userId : String) : String :=
  (live.or custom).getD s!"Tidal Account ({userId})"

/-!
## The task of a sign-in
-/

/-- What a task waits for. -/
inductive Stage where
  /-- nothing: it looks at the deadline -/
  | looping
  /-- the pause, and the answer to a poll -/
  | polling (since : Nat)
  /-- the lock, to read the label -/
  | labelling (token : TokenResponse)
  | refreshing (token : TokenResponse) (label : String)
  | adding (label refreshToken : String) (token : TokenResponse)
  /-- the flag of a catalog account, and its access token -/
  | marking (id label userId : String)
  /-- the lock, to write the status -/
  | ending (status : SetupStatus)

structure Task where
  deadline : Nat
  customLabel : Option String
  catalog : Bool
  clientSecret : String
  stage : Stage

/-- A session and its task, until the task has ended. -/
structure Slot where
  session : SetupSession
  task : Option Task

/-- A sign-in that waits for the answer of the device authorization. -/
structure Opening where
  customLabel : Option String
  catalog : Bool
  clientSecret : String

structure World where
  /-- the clock, in milliseconds -/
  now : Nat
  openings : List Opening
  slots : List Slot
  roster : List AccountState

/-- What happens to a task. -/
inductive Event where
  | proceed
  | reply (r : Reply)
  | attempt (a : Attempt)

/-- What a step leaves in the record of the run. -/
inductive Entry where
  /-- A session gets a label, or loses it. -/
  | named (sid : Nat) (label : Option String)
  | polled (sid : Nat)
  /-- A refresh token is exchanged under the client the account is kept under. -/
  | proven (sid : Nat) (clientSecret sent kept : String)
  | added (sid : Nat) (account : NewAccount)

inductive Action where
  | wait (ms : Nat)
  /-- Accounts come and go elsewhere. -/
  | roster (accounts : List AccountState)
  /-- {lit}`start_setup`, up to the answer of the device authorization -/
  | start (body : Option StartSetupRequest)
  | authorized (i : Nat) (answer : Except AppError DeviceAuthorization)
  | update (sid : Nat) (label : Option String)
  | advance (sid : Nat) (event : Event)

def pollPause : Nat := 5000

def signInTime : Nat := 600000

/-- {lit}`refresh_with_client` -/
def refreshWithClient (serde : Serde) : Reply -> Except String Refreshed
  | .failed chain => .error chain
  | .answered status body =>
      if status.isSuccess then serde.refreshed (body.toOption.getD "")
      else .error s!"HTTP {status.toString} {excerpt body}"

/-- What an answer to a poll leads to. -/
def afterPoll (serde : Serde) : Reply -> Stage
  | .failed chain => .ending (.error s!"Poll failed: {chain}")
  | .answered status body =>
      if status.isSuccess then
        match body with
        | .error e => .ending (.error s!"Parse failed: {e}")
        | .ok text =>
            match serde.token text with
            | .error e => .ending (.error s!"Parse failed: {e}")
            | .ok token => .labelling token
      else if status.code = 400 ∨ status.code = 429 then .looping
      else .ending
        (.error s!"Tidal refused the token: HTTP {status.toString} {excerpt body}")

/-- The account that a sign-in adds. -/
def newAccount (id label clientSecret refreshToken userId : String) : NewAccount where
  id := id
  label := label
  clientId := requestClientId
  clientSecret := clientSecret
  refreshToken := refreshToken
  userId := some userId

namespace World

def setSlot (w : World) (sid : Nat) (slot : Slot) : World :=
  { w with slots := w.slots.set sid slot }

/-- The task of a session goes on to another stage. -/
def goOn (w : World) (sid : Nat) (slot : Slot) (task : Task) (stage : Stage) : World :=
  w.setSlot sid { slot with task := some { task with stage := stage } }

/-- The status is written, and the task has ended. -/
def finish (w : World) (sid : Nat) (slot : Slot) (status : SetupStatus) : World :=
  w.setSlot sid { session := { slot.session with status := status }, task := none }

/-- {lit}`add_account`, and the country of the new account -/
def added (w : World) (sid : Nat) (slot : Slot) (task : Task)
    (label refreshToken : String) (token : TokenResponse) (a : Attempt) :
    World × List Entry :=
  let account := newAccount a.id label task.clientSecret refreshToken token.userId
  match Imports.addAccount account a w.roster with
  | .error e => (w.goOn sid slot task (.ending (.error s!"Add failed: {e.toString}")), [])
  | .ok roster =>
      let named := roster.modify w.roster.length fun s =>
        s.setCountry (token.user.map UserInfo.countryCode)
      ({ w with roster := named }.goOn sid slot task (.marking a.id label token.userId),
        [.added sid account])

/-- One step of a task. -/
def advance (serde : Serde) (w : World) (sid : Nat) (slot : Slot) (task : Task) :
    Stage -> Event -> Option (World × List Entry)
  | .looping, .proceed =>
      if task.deadline < w.now then
        some (w.goOn sid slot task
          (.ending (.error "Timed out waiting for authorization")), [])
      else some (w.goOn sid slot task (.polling w.now), [])
  | .polling since, .reply r =>
      if since + pollPause ≤ w.now then
        some (w.goOn sid slot task (afterPoll serde r), [.polled sid])
      else none
  | .labelling token, .proceed =>
      let label := labelFor slot.session.label task.customLabel token.userId
      some (w.goOn sid slot task (.refreshing token label), [])
  | .refreshing token label, .reply r =>
      match refreshWithClient serde r with
      | .error e =>
          some (w.goOn sid slot task (.ending (.error
            s!"Signed in, but client {requestClientId} could not refresh the token: {e}")), [])
      | .ok refreshed =>
          let kept := refreshed.refreshToken.getD token.refreshToken
          some (w.goOn sid slot task (.adding label kept token),
            [.proven sid task.clientSecret token.refreshToken kept])
  | .adding label refreshToken token, .attempt a =>
      some (w.added sid slot task label refreshToken token a)
  | .marking id label userId, .attempt a =>
      -- the flag may fail to be saved; that is logged, and nothing else
      let roster := if task.catalog then Imports.flagCatalog id a.now w.roster else w.roster
      some ({ w with roster := roster }.goOn sid slot task
        (.ending (.complete id label userId)), [])
  | .ending status, .proceed => some (w.finish sid slot status, [])
  | _, _ => none

/-- The session of a sign-in that Tidal authorized, with its task. -/
def opened (w : World) (i : Nat) (o : Opening) (d : DeviceAuthorization) : World where
  now := w.now
  openings := w.openings.eraseIdx i
  slots := w.slots ++
    [{ session := ⟨d.deviceCode, .pending, o.customLabel⟩
       task := some ⟨w.now + signInTime, o.customLabel, o.catalog, o.clientSecret, .looping⟩ }]
  roster := w.roster

/-- {lit}`update_setup` -/
def updateSetup (w : World) (sid : Nat) (label : Option String) :
    World × List Entry × Except AppError Value :=
  match w.slots[sid]? with
  | none => (w, [], .error (.notFound "Session not found"))
  | some slot =>
      if slot.session.status = .pending then
        let session := { slot.session with label := cleanLabel label }
        (w.setSlot sid { slot with session := session }, [.named sid (cleanLabel label)],
          .ok (.object [("status", .string "pending")]))
      else (w, [], .error (.badRequest "Session is no longer pending"))

/-- {lit}`check_setup` -/
def checkSetup (w : World) (sid : Nat) : Except AppError Value :=
  match w.slots[sid]? with
  | none => .error (.notFound "Session not found")
  | some slot =>
      match slot.session.status with
      | .pending => .ok (.object [("status", .string "pending")])
      | .complete accountId label userId =>
          .ok (.object [("status", .string "complete"), ("account_id", .string accountId),
            ("label", .string label), ("user_id", .string userId)])
      | .error message =>
          .ok (.object [("status", .string "error"), ("error", .string message)])

def turn (serde : Serde) (w : World) : Action -> Option (World × List Entry)
  | .wait ms => some ({ w with now := w.now + ms }, [])
  | .roster accounts => some ({ w with roster := accounts }, [])
  | .start body =>
      let opening : Opening :=
        { customLabel := cleanLabel (body.bind StartSetupRequest.label)
          catalog := (body.map StartSetupRequest.catalog).getD false
          clientSecret := setupClientSecret w.roster }
      some ({ w with openings := w.openings ++ [opening] }, [])
  | .authorized i answer =>
      w.openings[i]?.map fun o =>
        match answer with
        | .error _ => ({ w with openings := w.openings.eraseIdx i }, [])
        | .ok d => (w.opened i o d, [.named w.slots.length o.customLabel])
  | .update sid label =>
      let next := w.updateSetup sid label
      some (next.1, next.2.1)
  | .advance sid event =>
      w.slots[sid]?.bind fun slot =>
        slot.task.bind fun task => w.advance serde sid slot task task.stage event

def system (serde : Serde) : System World Action :=
  ⟨fun w a => (w.turn serde a).map Prod.fst⟩

/-- What a step leaves in the record. -/
def entries (serde : Serde) (w : World) (a : Action) : List Entry :=
  ((w.turn serde a).map Prod.snd).getD []

/-- No sign-in has begun. -/
def begin (now : Nat) (roster : List AccountState) : World := ⟨now, [], [], roster⟩

end World

/-!
## The record of one session
-/

namespace Entry

def sid : Entry -> Nat
  | named sid _ | polled sid | proven sid _ _ _ | added sid _ => sid

def label? : Entry -> Option (Option String)
  | named _ label => some label
  | _ => none

def account? : Entry -> Option NewAccount
  | added _ account => some account
  | _ => none

def isPoll : Entry -> Bool
  | polled _ => true
  | _ => false

end Entry

/-- The entries of one session. -/
def about (sid : Nat) (log : List Entry) : List Entry := log.filter fun e => e.sid == sid

/-- The labels a session has had, the first of them from its start. -/
def labels (own : List Entry) : List (Option String) := own.filterMap Entry.label?

def accountsOf (own : List Entry) : List NewAccount := own.filterMap Entry.account?

def polls (own : List Entry) : Nat := own.countP Entry.isPoll

/-- The label is made from one that the session had, or the one it was started with. -/
def Labelled (own : List Entry) (label userId : String) : Prop :=
  exists custom rest live, labels own = custom :: rest ∧ live ∈ custom :: rest ∧
    label = labelFor live custom userId

/-- The refresh token was issued to the client, with this secret. -/
def Proven (own : List Entry) (clientSecret refreshToken : String) : Prop :=
  exists sid sent, Entry.proven sid clientSecret sent refreshToken ∈ own

/-- The one account of the session. -/
def Added (own : List Entry) (id label userId : String) : Prop :=
  exists d, accountsOf own = [d] ∧ d.id = id ∧ d.label = label ∧ d.userId = some userId

/-- What a final status says about the accounts of its session. -/
def Foretold (own : List Entry) : SetupStatus -> Prop
  | .pending => False
  | .complete id label userId => Added own id label userId
  | .error _ => accountsOf own = []

structure Grounded (own : List Entry) (d : NewAccount) : Prop where
  client : d.clientId = requestClientId
  labelled : exists userId, d.userId = some userId ∧ Labelled own d.label userId
  proven : Proven own d.clientSecret d.refreshToken

/-!
## What holds of every session
-/

def Stage.Sound (now : Nat) (own : List Entry) (task : Task) : Stage -> Prop
  | .looping =>
      accountsOf own = [] ∧ polls own * pollPause + task.deadline ≤ now + signInTime
  | .polling since =>
      accountsOf own = [] ∧ polls own * pollPause + task.deadline ≤ since + signInTime ∧
        since ≤ task.deadline
  | .labelling _ => accountsOf own = []
  | .refreshing token label => accountsOf own = [] ∧ Labelled own label token.userId
  | .adding label refreshToken token =>
      accountsOf own = [] ∧ Labelled own label token.userId ∧
        Proven own task.clientSecret refreshToken
  | .marking id label userId => Added own id label userId
  | .ending status => Foretold own status

/-- The status is pending as long as there is a task. -/
def Slot.Told (now : Nat) (own : List Entry) (slot : Slot) : Prop :=
  match slot.task with
  | none => Foretold own slot.session.status
  | some task => slot.session.status = .pending ∧ task.stage.Sound now own task

structure Slot.Sound (now : Nat) (own : List Entry) (slot : Slot) : Prop where
  polled : polls own ≤ 121
  labelled : exists custom rest, labels own = custom :: rest ∧
    slot.session.label ∈ custom :: rest ∧
    forall task, task ∈ slot.task -> task.customLabel = custom
  grounded : forall d, d ∈ accountsOf own -> Grounded own d
  told : slot.Told now own

structure World.Sound (w : World) (log : List Entry) : Prop where
  slots : forall (sid : Nat) (slot : Slot), w.slots[sid]? = some slot ->
    slot.Sound w.now (about sid log)
  fresh : forall sid : Nat, w.slots.length ≤ sid -> about sid log = []

/-!
## Entries are added
-/

section Append

variable {own more : List Entry} {now now' : Nat} {slot : Slot}

theorem about_append (sid : Nat) (log more : List Entry) :
    about sid (log ++ more) = about sid log ++ about sid more :=
  List.filter_append ..

theorem about_self {sid : Nat} (h : forall e, e ∈ more -> e.sid = sid) :
    about sid more = more :=
  List.filter_eq_self.mpr fun e he => beq_iff_eq.mpr (h e he)

theorem about_other {sid other : Nat} (h : forall e, e ∈ more -> e.sid = sid)
    (hne : other ≠ sid) : about other more = [] := by
  apply List.filter_eq_nil_iff.mpr
  intro e he heq
  rw [beq_iff_eq, h e he] at heq
  exact hne heq.symm

theorem labels_append (own more : List Entry) :
    labels (own ++ more) = labels own ++ labels more :=
  List.filterMap_append

theorem accountsOf_append (own more : List Entry) :
    accountsOf (own ++ more) = accountsOf own ++ accountsOf more :=
  List.filterMap_append

theorem polls_append (own more : List Entry) :
    polls (own ++ more) = polls own + polls more :=
  List.countP_append

theorem Labelled.append {label userId : String} (h : Labelled own label userId)
    (more : List Entry) : Labelled (own ++ more) label userId := by
  rcases h with ⟨custom, rest, live, hlabels, hlive, heq⟩
  refine ⟨custom, rest ++ labels more, live, ?_, ?_, heq⟩
  · rw [labels_append, hlabels]
    rfl
  · exact List.mem_append_left _ hlive

theorem Proven.append {clientSecret refreshToken : String}
    (h : Proven own clientSecret refreshToken) (more : List Entry) :
    Proven (own ++ more) clientSecret refreshToken := by
  rcases h with ⟨sid, sent, hin⟩
  exact ⟨sid, sent, List.mem_append_left _ hin⟩

theorem Grounded.append {d : NewAccount} (h : Grounded own d) (more : List Entry) :
    Grounded (own ++ more) d where
  client := h.client
  labelled := by
    rcases h.labelled with ⟨userId, hid, hlabel⟩
    exact ⟨userId, hid, hlabel.append more⟩
  proven := h.proven.append more

theorem Added.append {id label userId : String} (h : Added own id label userId)
    (hmore : accountsOf more = []) : Added (own ++ more) id label userId := by
  unfold Added
  rw [accountsOf_append, hmore, List.append_nil]
  exact h

theorem Foretold.append {status : SetupStatus} (h : Foretold own status)
    (hmore : accountsOf more = []) : Foretold (own ++ more) status := by
  cases status with
  | pending => exact h
  | complete id label userId => exact Added.append h hmore
  | error message =>
      show accountsOf (own ++ more) = []
      rw [accountsOf_append, hmore, List.append_nil]
      exact h

/-- Time passes. -/
theorem Stage.Sound.later {task : Task} {stage : Stage} (h : stage.Sound now own task)
    (hnow : now ≤ now') : stage.Sound now' own task := by
  cases stage with
  | looping => exact ⟨h.left, Nat.le_trans h.right (Nat.add_le_add_right hnow _)⟩
  | polling _ | labelling _ | refreshing _ _ | adding _ _ _ | marking _ _ _ | ending _ =>
      exact h

theorem Slot.Sound.later (h : slot.Sound now own) (hnow : now ≤ now') :
    slot.Sound now' own where
  polled := h.polled
  labelled := h.labelled
  grounded := h.grounded
  told := by
    have htold := h.told
    unfold Slot.Told at htold ⊢
    split
    · rename_i hnone
      rwa [hnone] at htold
    · rename_i task hsome
      rw [hsome] at htold
      exact ⟨htold.left, Stage.Sound.later htold.right hnow⟩

/-- A label that is given changes nothing but the labels. -/
theorem Stage.Sound.named {task : Task} {stage : Stage} (h : stage.Sound now own task)
    (sid : Nat) (label : Option String) :
    stage.Sound now (own ++ [Entry.named sid label]) task := by
  have haccounts : accountsOf (own ++ [Entry.named sid label]) = accountsOf own := by
    rw [accountsOf_append]
    exact List.append_nil _
  have hpolls : polls (own ++ [Entry.named sid label]) = polls own := polls_append own _
  cases stage with
  | looping =>
      refine ⟨haccounts.trans h.left, ?_⟩
      rw [hpolls]
      exact h.right
  | polling since =>
      refine ⟨haccounts.trans h.left, ?_⟩
      rw [hpolls]
      exact h.right
  | labelling token => exact haccounts.trans h
  | refreshing token text => exact ⟨haccounts.trans h.left, h.right.append _⟩
  | adding text refreshToken token =>
      exact ⟨haccounts.trans h.left, h.right.left.append _, h.right.right.append _⟩
  | marking id text userId => exact Added.append h rfl
  | ending status => exact Foretold.append h rfl

end Append

/-!
## One step of a task
-/

section Advance

variable {serde : Serde} {own : List Entry} {slot : Slot} {task : Task}

theorem Stage.Sound.withStage {now : Nat} {stage : Stage} (h : stage.Sound now own task)
    (other : Stage) : stage.Sound now own { task with stage := other } := by
  cases stage <;> exact h

theorem Slot.Sound.goOn {now : Nat} (h : slot.Sound now own) (htask : slot.task = some task)
    {more : List Entry} {stage : Stage} (hpolls : polls (own ++ more) ≤ 121)
    (hlabels : labels more = [])
    (hgrounded : forall d, d ∈ accountsOf more -> Grounded (own ++ more) d)
    (hstage : stage.Sound now (own ++ more) task) :
    Slot.Sound now (own ++ more) { slot with task := some { task with stage := stage } } where
  polled := hpolls
  labelled := by
    rcases h.labelled with ⟨custom, rest, hown, hlive, hcustom⟩
    refine ⟨custom, rest, ?_, hlive, ?_⟩
    · rw [labels_append, hlabels, List.append_nil]
      exact hown
    · intro next hnext
      cases hnext
      exact hcustom task htask
  grounded := by
    intro d hd
    rw [accountsOf_append] at hd
    rcases List.mem_append.mp hd with hold | hnew
    · exact (h.grounded d hold).append more
    · exact hgrounded d hnew
  told := by
    have htold := h.told
    unfold Slot.Told at htold
    rw [htask] at htold
    exact ⟨htold.left, hstage.withStage stage⟩

/-- A step that leaves nothing in the record. -/
theorem Slot.Sound.goOnQuietly {now : Nat} (h : slot.Sound now own)
    (htask : slot.task = some task) {stage : Stage} (hstage : stage.Sound now own task) :
    Slot.Sound now (own ++ []) { slot with task := some { task with stage := stage } } := by
  have hown : own ++ [] = own := List.append_nil own
  refine h.goOn htask ?_ rfl ?_ ?_
  · rw [hown]
    exact h.polled
  · intro d hd
    cases hd
  · rw [hown]
    exact hstage

theorem Slot.Sound.stage {now : Nat} (h : slot.Sound now own) (htask : slot.task = some task) :
    task.stage.Sound now own task := by
  have htold := h.told
  unfold Slot.Told at htold
  rw [htask] at htold
  exact htold.right

/-- Whatever a session says, it has one account at most. -/
theorem Slot.Sound.length_accountsOf {now : Nat} (h : slot.Sound now own) :
    (accountsOf own).length ≤ 1 := by
  have hnone : accountsOf own = [] -> (accountsOf own).length ≤ 1 := by
    intro hnil
    rw [hnil]
    exact Nat.zero_le 1
  have hadded : forall id label userId, Added own id label userId ->
      (accountsOf own).length ≤ 1 := by
    intro id label userId hone
    rcases hone with ⟨d, hd, _⟩
    rw [hd]
    exact Nat.le_refl 1
  have hforetold : forall status, Foretold own status -> (accountsOf own).length ≤ 1 := by
    intro status hstatus
    cases status with
    | pending => cases hstatus
    | complete id label userId => exact hadded id label userId hstatus
    | error message => exact hnone hstatus
  have htold := h.told
  unfold Slot.Told at htold
  split at htold
  · exact hforetold _ htold
  · rename_i task _
    have hstage := htold.right
    cases hcase : task.stage with
    | looping | polling _ | refreshing _ _ | adding _ _ _ =>
        rw [hcase] at hstage
        exact hnone hstage.left
    | labelling token =>
        rw [hcase] at hstage
        exact hnone hstage
    | marking id label userId =>
        rw [hcase] at hstage
        exact hadded id label userId hstage
    | ending status =>
        rw [hcase] at hstage
        exact hforetold status hstage

theorem Slot.Sound.finish {now : Nat} (h : slot.Sound now own) {status : SetupStatus}
    (hstatus : Foretold own status) :
    Slot.Sound now (own ++ [])
      { session := { slot.session with status := status }, task := none } := by
  rw [List.append_nil]
  refine ⟨h.polled, ?_, h.grounded, hstatus⟩
  rcases h.labelled with ⟨custom, rest, hlabels, hlive, _⟩
  refine ⟨custom, rest, hlabels, hlive, ?_⟩
  intro next hnext
  cases hnext

/-- A poll is either the last request of its task, or the task looks at the deadline
again. -/
theorem afterPoll_sound {now : Nat} (r : Reply) (haccounts : accountsOf own = [])
    (hpace : polls own * pollPause + task.deadline ≤ now + signInTime) :
    (afterPoll serde r).Sound now own task := by
  unfold afterPoll
  split
  · exact haccounts
  · split
    · split
      · exact haccounts
      · split
        · exact haccounts
        · exact haccounts
    · split
      · exact ⟨haccounts, hpace⟩
      · exact haccounts

theorem polls_le {n deadline since : Nat}
    (hpace : n * pollPause + deadline ≤ since + signInTime) (hsince : since ≤ deadline) :
    n + 1 ≤ 121 := by
  unfold pollPause signInTime at hpace
  omega

theorem polls_pace {n deadline since now : Nat}
    (hpace : n * pollPause + deadline ≤ since + signInTime)
    (hpause : since + pollPause ≤ now) :
    (n + 1) * pollPause + deadline ≤ now + signInTime := by
  rw [Nat.add_mul, Nat.one_mul]
  omega

theorem Slot.Sound.labelFor {now : Nat} (h : slot.Sound now own)
    (htask : slot.task = some task) (userId : String) :
    Labelled own (SignIns.labelFor slot.session.label task.customLabel userId) userId := by
  rcases h.labelled with ⟨custom, rest, hlabels, hlive, hcustom⟩
  refine ⟨custom, rest, slot.session.label, hlabels, hlive, ?_⟩
  rw [hcustom task htask]

variable {w w' : World} {sid : Nat} {es : List Entry}

/-- What a step of a task does to its session. -/
structure Moved (w w' : World) (sid : Nat) (slot : Slot) (es : List Entry) : Prop where
  now : w'.now = w.now
  slots : w'.slots = w.slots.set sid slot
  entries : forall e, e ∈ es -> e.sid = sid

theorem added_sound {label refreshToken : String} {token : TokenResponse} {a : Attempt}
    (h : slot.Sound w.now own) (htask : slot.task = some task)
    (hstage : Stage.Sound w.now own task (.adding label refreshToken token)) :
    exists next, Moved w (w.added sid slot task label refreshToken token a).1 sid next
        (w.added sid slot task label refreshToken token a).2 ∧
      next.Sound w.now (own ++ (w.added sid slot task label refreshToken token a).2) := by
  rcases hstage with ⟨haccounts, hlabelled, hproven⟩
  unfold World.added
  dsimp only
  split
  · refine ⟨_, ⟨rfl, rfl, ?_⟩, h.goOnQuietly htask haccounts⟩
    intro e he
    cases he
  · refine ⟨_, ⟨rfl, rfl, ?_⟩, h.goOn htask ?_ rfl ?_ ?_⟩
    · intro e he
      rw [List.mem_singleton.mp he]
      rfl
    · rw [polls_append]
      exact h.polled
    · intro d hd
      have heq : d = newAccount a.id label task.clientSecret refreshToken token.userId :=
        List.mem_singleton.mp hd
      rw [heq]
      exact ⟨rfl, ⟨_, rfl, hlabelled.append _⟩, hproven.append _⟩
    · refine ⟨newAccount a.id label task.clientSecret refreshToken token.userId, ?_,
        rfl, rfl, rfl⟩
      rw [accountsOf_append, haccounts]
      rfl

theorem advance_sound {event : Event} (h : slot.Sound w.now own)
    (htask : slot.task = some task)
    (hadvance : w.advance serde sid slot task task.stage event = some (w', es)) :
    exists next, Moved w w' sid next es ∧ next.Sound w.now (own ++ es) := by
  have hstage := h.stage htask
  have hnone : forall e : Entry, e ∈ [] -> e.sid = sid := by
    intro e he
    cases he
  cases hcase : task.stage with
  | looping =>
      rw [hcase] at hadvance hstage
      cases event with
      | proceed =>
          simp only [World.advance] at hadvance
          split at hadvance
          · cases hadvance
            exact ⟨_, ⟨rfl, rfl, hnone⟩, h.goOnQuietly htask hstage.left⟩
          · rename_i hdeadline
            cases hadvance
            refine ⟨_, ⟨rfl, rfl, hnone⟩, h.goOnQuietly htask ?_⟩
            exact ⟨hstage.left, hstage.right, Nat.not_lt.mp hdeadline⟩
      | reply r => cases hadvance
      | attempt a => cases hadvance
  | polling since =>
      rw [hcase] at hadvance hstage
      cases event with
      | reply r =>
          simp only [World.advance] at hadvance
          split at hadvance
          · rename_i hpause
            cases hadvance
            rcases hstage with ⟨haccounts, hpace, hsince⟩
            have hpolls : polls (own ++ [Entry.polled sid]) = polls own + 1 :=
              polls_append own _
            refine ⟨_, ⟨rfl, rfl, ?_⟩, h.goOn htask ?_ rfl ?_ ?_⟩
            · intro e he
              rw [List.mem_singleton.mp he]
              rfl
            · rw [hpolls]
              exact polls_le hpace hsince
            · intro d hd
              cases hd
            · apply afterPoll_sound
              · rw [accountsOf_append, haccounts]
                rfl
              · rw [hpolls]
                exact polls_pace hpace hpause
          · cases hadvance
      | proceed => cases hadvance
      | attempt a => cases hadvance
  | labelling token =>
      rw [hcase] at hadvance hstage
      cases event with
      | proceed =>
          cases hadvance
          refine ⟨_, ⟨rfl, rfl, hnone⟩, h.goOnQuietly htask ?_⟩
          exact ⟨hstage, h.labelFor htask token.userId⟩
      | reply r => cases hadvance
      | attempt a => cases hadvance
  | refreshing token label =>
      rw [hcase] at hadvance hstage
      cases event with
      | reply r =>
          simp only [World.advance] at hadvance
          split at hadvance
          · cases hadvance
            exact ⟨_, ⟨rfl, rfl, hnone⟩, h.goOnQuietly htask hstage.left⟩
          · cases hadvance
            refine ⟨_, ⟨rfl, rfl, ?_⟩, h.goOn htask ?_ rfl ?_ ?_⟩
            · intro e he
              rw [List.mem_singleton.mp he]
              rfl
            · rw [polls_append]
              exact h.polled
            · intro d hd
              cases hd
            · refine ⟨?_, hstage.right.append _, sid, token.refreshToken, ?_⟩
              · rw [accountsOf_append, hstage.left]
                rfl
              · exact List.mem_append_right _ List.mem_cons_self
      | proceed => cases hadvance
      | attempt a => cases hadvance
  | adding label refreshToken token =>
      rw [hcase] at hadvance hstage
      cases event with
      | attempt a =>
          have hadded := @added_sound own slot task w sid label refreshToken token a
            h htask hstage
          have heq : w.added sid slot task label refreshToken token a = (w', es) :=
            Option.some.inj hadvance
          rw [heq] at hadded
          exact hadded
      | proceed => cases hadvance
      | reply r => cases hadvance
  | marking id label userId =>
      rw [hcase] at hadvance hstage
      cases event with
      | attempt a =>
          cases hadvance
          exact ⟨_, ⟨rfl, rfl, hnone⟩, h.goOnQuietly htask hstage⟩
      | proceed => cases hadvance
      | reply r => cases hadvance
  | ending status =>
      rw [hcase] at hadvance hstage
      cases event with
      | proceed =>
          cases hadvance
          exact ⟨_, ⟨rfl, rfl, hnone⟩, h.finish hstage⟩
      | reply r => cases hadvance
      | attempt a => cases hadvance

end Advance

/-!
## One step of all
-/

section Turn

variable {serde : Serde} {w w' : World} {log es : List Entry} {sid : Nat} {slot next : Slot}

theorem World.Sound.move (hw : w.Sound log) (hslot : w.slots[sid]? = some slot)
    (hmoved : Moved w w' sid next es) (hnext : next.Sound w.now (about sid log ++ es)) :
    w'.Sound (log ++ es) where
  slots := by
    intro k other hother
    rw [hmoved.now]
    rw [hmoved.slots] at hother
    by_cases hk : sid = k
    · rw [← hk] at hother ⊢
      rw [List.getElem?_set_self (List.getElem?_eq_some_iff.mp hslot).choose] at hother
      cases hother
      rw [about_append, about_self hmoved.entries]
      exact hnext
    · rw [List.getElem?_set_ne hk] at hother
      rw [about_append, about_other hmoved.entries (Ne.symm hk), List.append_nil]
      exact hw.slots k other hother
  fresh := by
    intro k hk
    rw [hmoved.slots, List.length_set] at hk
    have hlt := (List.getElem?_eq_some_iff.mp hslot).choose
    have hne : k ≠ sid := by omega
    rw [about_append, hw.fresh k hk, about_other hmoved.entries hne]
    rfl

/-- A step that touches no session. -/
theorem World.Sound.aside (hw : w.Sound log) (hslots : w'.slots = w.slots)
    (hnow : w.now ≤ w'.now) : w'.Sound (log ++ []) := by
  rw [List.append_nil]
  refine ⟨?_, ?_⟩
  · intro k other hother
    rw [hslots] at hother
    exact (hw.slots k other hother).later hnow
  · intro k hk
    rw [hslots] at hk
    exact hw.fresh k hk

theorem World.Sound.opened (hw : w.Sound log) (i : Nat) (o : Opening)
    (d : DeviceAuthorization) :
    (w.opened i o d).Sound (log ++ [Entry.named w.slots.length o.customLabel]) where
  slots := by
    intro k other hother
    have hentries : forall e, e ∈ [Entry.named w.slots.length o.customLabel] ->
        e.sid = w.slots.length := by
      intro e he
      rw [List.mem_singleton.mp he]
      rfl
    by_cases hk : k < w.slots.length
    · have hold : w.slots[k]? = some other := by
        rw [← hother]
        exact (List.getElem?_append_left hk).symm
      rw [about_append, about_other hentries (Nat.ne_of_lt hk), List.append_nil]
      exact hw.slots k other hold
    · have hlast : k = w.slots.length := by
        have hlt := (List.getElem?_eq_some_iff.mp hother).choose
        have hlength : (w.opened i o d).slots.length = w.slots.length + 1 :=
          List.length_append
        omega
      rw [hlast] at hother ⊢
      have hnew : (w.opened i o d).slots[w.slots.length]? = some _ :=
        List.getElem?_concat_length
      rw [hnew] at hother
      cases hother
      rw [about_append, hw.fresh _ (Nat.le_refl _), about_self hentries]
      refine ⟨Nat.zero_le _, ⟨_, _, rfl, List.mem_cons_self, ?_⟩, ?_, rfl, rfl, ?_⟩
      · intro task htask
        cases htask
        rfl
      · intro account haccount
        cases haccount
      · show 0 * pollPause + (w.now + signInTime) ≤ w.now + signInTime
        rw [Nat.zero_mul, Nat.zero_add]
  fresh := by
    intro k hk
    have hlength : (w.opened i o d).slots.length = w.slots.length + 1 := List.length_append
    have hne : k ≠ w.slots.length := by omega
    rw [about_append, hw.fresh k (by omega), about_other _ hne]
    · rfl
    · intro e he
      rw [List.mem_singleton.mp he]
      rfl

theorem Slot.Sound.named {own : List Entry} (h : slot.Sound w.now own)
    (label : Option String) :
    Slot.Sound w.now (own ++ [Entry.named sid label])
      { slot with session := { slot.session with label := label } } where
  polled := by
    rw [polls_append]
    exact h.polled
  labelled := by
    rcases h.labelled with ⟨custom, rest, hlabels, _, hcustom⟩
    refine ⟨custom, rest ++ [label], ?_, ?_, hcustom⟩
    · rw [labels_append, hlabels]
      rfl
    · exact List.mem_cons_of_mem _ (List.mem_append_right _ List.mem_cons_self)
  grounded := by
    intro d hd
    rw [accountsOf_append] at hd
    rcases List.mem_append.mp hd with hold | hnew
    · exact (h.grounded d hold).append _
    · cases hnew
  told := by
    have htold := h.told
    unfold Slot.Told at htold ⊢
    split
    · rename_i hnone
      have heq : slot.task = none := hnone
      rw [heq] at htold
      exact Foretold.append htold rfl
    · rename_i task hsome
      have heq : slot.task = some task := hsome
      rw [heq] at htold
      exact ⟨htold.left, Stage.Sound.named htold.right sid label⟩

/-- A label is given to a session that is pending, or nothing happens. -/
theorem updateSetup_cases (w : World) (sid : Nat) (label : Option String) :
    (exists slot, w.slots[sid]? = some slot ∧ slot.session.status = .pending ∧
      Moved w (w.updateSetup sid label).1 sid
        { slot with session := { slot.session with label := cleanLabel label } }
        (w.updateSetup sid label).2.1 ∧
      (w.updateSetup sid label).2.1 = [.named sid (cleanLabel label)]) ∨
    (w.updateSetup sid label).1 = w ∧ (w.updateSetup sid label).2.1 = [] := by
  unfold World.updateSetup
  split
  · exact Or.inr ⟨rfl, rfl⟩
  · rename_i slot hslot
    split
    · rename_i hpending
      refine Or.inl ⟨slot, hslot, hpending, ⟨rfl, rfl, ?_⟩, rfl⟩
      intro e he
      rw [List.mem_singleton.mp he]
      rfl
    · exact Or.inr ⟨rfl, rfl⟩

theorem World.Sound.turn (hw : w.Sound log) {a : Action}
    (hturn : w.turn serde a = some (w', es)) : w'.Sound (log ++ es) := by
  cases a with
  | wait ms =>
      cases hturn
      exact hw.aside rfl (Nat.le_add_right _ _)
  | roster accounts =>
      cases hturn
      exact hw.aside rfl (Nat.le_refl _)
  | start body =>
      cases hturn
      exact hw.aside rfl (Nat.le_refl _)
  | authorized i answer =>
      rcases Option.map_eq_some_iff.mp hturn with ⟨o, _, heq⟩
      cases answer with
      | error e =>
          cases heq
          exact hw.aside rfl (Nat.le_refl _)
      | ok d =>
          cases heq
          exact hw.opened i o d
  | update sid label =>
      cases hturn
      rcases updateSetup_cases w sid label with ⟨slot, hslot, _, hmoved, hes⟩ | ⟨hsame, hes⟩
      · refine hw.move hslot hmoved ?_
        rw [hes]
        exact (hw.slots sid slot hslot).named _
      · rw [hsame, hes]
        exact hw.aside rfl (Nat.le_refl _)
  | advance sid event =>
      rcases Option.bind_eq_some_iff.mp hturn with ⟨slot, hslot, hbind⟩
      rcases Option.bind_eq_some_iff.mp hbind with ⟨task, htask, hadvance⟩
      rcases advance_sound (hw.slots sid slot hslot) htask hadvance with
        ⟨next, hmoved, hnext⟩
      exact hw.move hslot hmoved hnext

/-- A session whose task has ended is left as it is. -/
theorem settled_turn (hw : w.Sound log) (hslot : w.slots[sid]? = some slot)
    (hended : slot.task = none) {a : Action} (hturn : w.turn serde a = some (w', es)) :
    w'.slots[sid]? = some slot := by
  have hother : forall k other more, Moved w w' k other more -> k ≠ sid ->
      w'.slots[sid]? = some slot := by
    intro k other more hmoved hne
    rw [hmoved.slots, List.getElem?_set_ne hne]
    exact hslot
  have hstatus := (hw.slots sid slot hslot).told
  unfold Slot.Told at hstatus
  rw [hended] at hstatus
  cases a with
  | wait ms =>
      cases hturn
      exact hslot
  | roster accounts =>
      cases hturn
      exact hslot
  | start body =>
      cases hturn
      exact hslot
  | authorized i answer =>
      rcases Option.map_eq_some_iff.mp hturn with ⟨o, _, heq⟩
      cases answer with
      | error e =>
          cases heq
          exact hslot
      | ok d =>
          cases heq
          rw [← hslot]
          exact List.getElem?_append_left (List.getElem?_eq_some_iff.mp hslot).choose
  | update k label =>
      cases hturn
      rcases updateSetup_cases w k label with ⟨other, hk, hpending, hmoved, _⟩ | ⟨hsame, _⟩
      · refine hother k _ _ hmoved ?_
        intro heq
        rw [heq, hslot] at hk
        cases hk
        rw [hpending] at hstatus
        exact hstatus
      · rw [hsame]
        exact hslot
  | advance k event =>
      rcases Option.bind_eq_some_iff.mp hturn with ⟨other, hk, hbind⟩
      rcases Option.bind_eq_some_iff.mp hbind with ⟨task, htask, hadvance⟩
      rcases advance_sound (hw.slots k other hk) htask hadvance with ⟨next, hmoved, _⟩
      refine hother k next es hmoved ?_
      intro heq
      rw [heq, hslot] at hk
      cases hk
      rw [hended] at htask
      cases htask

theorem turn_of_step {a : Action} (hstep : (World.system serde).step w a = some w') :
    w.turn serde a = some (w', World.entries serde w a) := by
  rcases Option.map_eq_some_iff.mp hstep with ⟨⟨t, out⟩, hturn, heq⟩
  have hentries : World.entries serde w a = out := by
    rw [World.entries, hturn]
    rfl
  rw [hentries, hturn]
  exact congrArg (fun v => some (v, out)) heq

end Turn

/-!
## Every run
-/

theorem sound_begin (now : Nat) (roster : List AccountState) :
    (World.begin now roster).Sound [] where
  slots := by
    intro sid slot hslot
    cases hslot
  fresh := fun _ _ => rfl

/-- Every text is an answer. -/
def anyText : Serde where
  token text := .ok ⟨text, some ⟨"7", "de"⟩⟩
  refreshed text := .ok ⟨"access", some text, 3600⟩

/-- The second poll brings the token; the owner names the account before that. -/
def namedWhileWaiting : List Action :=
  [.start (some ⟨some " first ", true⟩), .authorized 0 (.ok ⟨"code", "link.tidal.com/X"⟩),
    .advance 0 .proceed, .wait 5000,
    .advance 0 (.reply (.answered ⟨400, "Bad Request"⟩ (.ok "{}"))),
    .update 0 (some " study"), .advance 0 .proceed, .wait 5200,
    .advance 0 (.reply (.answered ⟨200, "OK"⟩ (.ok "one"))), .advance 0 .proceed,
    .advance 0 (.reply (.answered ⟨200, "OK"⟩ (.ok "two"))),
    .advance 0 (.attempt ⟨"a", 0, none⟩), .advance 0 (.attempt ⟨"a", 0, none⟩),
    .advance 0 .proceed]

end SignIns

end HifiApi
