import HifiApi.Access.Sessions
import HifiApi.ApiKeys.Usage
import HifiApi.Guards.PerAddress

/-!
# The way into the server

Three entries share one guard against wrong admin keys: the login, the admin routes and
the API routes, which also take the keys of the roster.  A request takes a step for each
lock it holds, and the steps of other requests come between: it arrives, asks the guard,
has its credential judged, and uses up an API key.
-/

namespace HifiApi

namespace Access

/-- The route that a request asks for. -/
inductive Entry where
  | login (key : String)
  | admin
  | api (path : String)

/-- A request with the address it comes from and the clock it reads. -/
structure Request (Ip : Type) where
  ip : Ip
  headers : List Header
  now : Instant
  entry : Entry

/-- What a request waits for. -/
inductive Stage where
  | check
  | judge
  | consume
  deriving DecidableEq

structure Ticket (Ip : Type) where
  request : Request Ip
  stage : Stage

inductive Outcome where
  /-- The request goes on to its handler. -/
  | served
  | loggedIn (setCookie : Option (List Char))
  | locked (retryAfter : Nat)
  | unauthorized (detail : String)

structure Answer (Ip : Type) where
  request : Request Ip
  outcome : Outcome

/-- The state the entries share, and the requests under way. -/
structure Gate (Ip : Type) where
  guard : GuardState Ip
  keys : List ApiKeyState
  tickets : List (Ticket Ip)

/-- What a judged credential is. -/
inductive Credential where
  | right
  | wrong
  /-- No key to be judged. -/
  | absent
  deriving DecidableEq

/-- {lit}`config.admin_key` and the hash function. -/
structure Secrets where
  adminKey : String
  sha256 : List UInt8 -> AdminSession.Digest

def hexDigits (b : UInt8) : List Char :=
  [(b.toNat / 16).digitChar, (b.toNat % 16).digitChar]

def hexEncode (bytes : List UInt8) : String := String.ofList (bytes.flatMap hexDigits)

def Secrets.hashKey (c : Secrets) (raw : String) : String :=
  hexEncode (c.sha256 (utf8Bytes raw)).val

namespace Request

variable {Ip : Type}

def adminKey (r : Request Ip) : String := (headerText r.headers "x-admin-key").getD ""

def apiKey (r : Request Ip) : Option String := headerText r.headers "x-api-key"

def secure (r : Request Ip) : Bool := headerText r.headers "x-forwarded-proto" == some "https"

/-- A path that needs no API key. -/
def exempt (path : String) : Bool :=
  path == "/" || path == "/health" || ResponseCache.startsWith path "/admin"

def credential (c : Secrets) (clock : UtcSecond) (r : Request Ip) : Credential :=
  match r.entry with
  | .login key => if c.adminKey ≠ "" ∧ key ≠ c.adminKey then .wrong else .right
  | .admin =>
      if c.adminKey = "" ∨ r.adminKey = c.adminKey ∨
          AdminSession.validSession c.sha256 r.headers c.adminKey clock = true then .right
      else if r.adminKey ≠ "" then .wrong
      else .absent
  | .api _ => if r.adminKey = c.adminKey then .right else .wrong

/-- The answer to a right credential. -/
def welcome (c : Secrets) (clock : UtcSecond) (r : Request Ip) : Outcome :=
  match r.entry with
  | .login _ =>
      .loggedIn (if c.adminKey = "" then none
        else some (AdminSession.loginCookie c.sha256 c.adminKey clock r.secure))
  | .admin | .api _ => .served

/-- What follows a wrong credential that starts no lock. -/
def refusal (r : Request Ip) : Except Stage Outcome :=
  match r.entry with
  | .login _ => .ok (.unauthorized "Invalid admin key")
  | .admin => .ok (.unauthorized "Invalid or missing admin session")
  | .api _ => .error .consume

end Request

/-- The roster after a call of {lit}`check_and_consume`, up to its first await. -/
def consumeKey (hash : String) : List ApiKeyState -> List ApiKeyState × Verdict
  | [] => ([], .refused ApiKeyState.invalidKey)
  | k :: rest =>
      if k.admits hash then
        let next := k.consume hash
        (next.1 :: rest, next.2)
      else
        let next := consumeKey hash rest
        (k :: next.1, next.2)

/-- The answer to a request that presents an API key or none. -/
def keyOutcome : Option Verdict -> Outcome
  | none => .unauthorized "Missing X-API-Key header"
  | some (.refused _) => .unauthorized "Invalid API key, inactive, or quota exhausted"
  | some (.unmetered _) | some (.counted _) => .served

inductive Action (Ip : Type) where
  | arrive (request : Request Ip)
  /-- A request under way takes its next step. -/
  | advance (i : Nat) (clock : UtcSecond) (order : Table.Iteration (Ip × IpActivity))
  /-- The roster changes from elsewhere. -/
  | roster (keys : List ApiKeyState)

variable {Ip : Type} [DecidableEq Ip]

namespace Gate

def new (start : Instant) : Gate Ip := ⟨.new start, [], []⟩

def activeCount (g : Gate Ip) : Nat := g.keys.countP ApiKeyState.isActive

/-- A request comes in: it is answered at once, or it waits for its first step. -/
def arrive (c : Secrets) (g : Gate Ip) (r : Request Ip) : Gate Ip × List (Answer Ip) :=
  let waiting := fun stage => ({ g with tickets := g.tickets ++ [⟨r, stage⟩] }, [])
  match r.entry with
  | .login _ | .admin => waiting .check
  | .api path =>
      if Request.exempt path ∨ g.activeCount = 0 then (g, [⟨r, .served⟩])
      else if c.adminKey ≠ "" ∧ r.adminKey ≠ "" then waiting .check
      else waiting .consume

/-- The request at a place goes on to another stage. -/
def moveTo (g : Gate Ip) (i : Nat) (stage : Stage) : Gate Ip :=
  { g with tickets := g.tickets.modify i fun t => { t with stage := stage } }

/-- The request at a place is answered. -/
def leave (g : Gate Ip) (i : Nat) : Gate Ip := { g with tickets := g.tickets.eraseIdx i }

/-- The guard is asked for a lock. -/
def check (g : Gate Ip) (i : Nat) (r : Request Ip) : Gate Ip × List (Answer Ip) :=
  match AdminAuthGuard.check r.ip r.now g.guard with
  | (guard, some seconds) => (leave { g with guard := guard } i, [⟨r, .locked seconds⟩])
  | (guard, none) => (moveTo { g with guard := guard } i .judge, [])

/-- The credential is judged; the guard is told of the result. -/
def judge (c : Secrets) (clock : UtcSecond) (order : Table.Iteration (Ip × IpActivity))
    (g : Gate Ip) (i : Nat) (r : Request Ip) : Gate Ip × List (Answer Ip) :=
  match r.credential c clock with
  | .right =>
      (leave { g with guard := AdminAuthGuard.clear r.ip g.guard } i,
        [⟨r, r.welcome c clock⟩])
  | .wrong =>
      match AdminAuthGuard.failed order r.ip r.now g.guard with
      | (guard, some seconds) => (leave { g with guard := guard } i, [⟨r, .locked seconds⟩])
      | (guard, none) =>
          match r.refusal with
          | .ok outcome => (leave { g with guard := guard } i, [⟨r, outcome⟩])
          | .error stage => (moveTo { g with guard := guard } i stage, [])
  | .absent =>
      (g.leave i, [⟨r, .unauthorized "Invalid or missing admin session"⟩])

/-- The API key is used up. -/
def consume (c : Secrets) (g : Gate Ip) (i : Nat) (r : Request Ip) :
    Gate Ip × List (Answer Ip) :=
  match r.apiKey with
  | none => (g.leave i, [⟨r, keyOutcome none⟩])
  | some raw =>
      let next := consumeKey (c.hashKey raw) g.keys
      (leave { g with keys := next.1 } i, [⟨r, keyOutcome (some next.2)⟩])

def advance (c : Secrets) (clock : UtcSecond) (order : Table.Iteration (Ip × IpActivity))
    (g : Gate Ip) (i : Nat) (t : Ticket Ip) : Gate Ip × List (Answer Ip) :=
  match t.stage with
  | .check => g.check i t.request
  | .judge => g.judge c clock order i t.request
  | .consume => g.consume c i t.request

/-- A step and the answers it gives. -/
def turn (c : Secrets) (g : Gate Ip) : Action Ip -> Option (Gate Ip × List (Answer Ip))
  | .arrive r => some (g.arrive c r)
  | .advance i clock order => g.tickets[i]?.map fun t => g.advance c clock order i t
  | .roster keys => some ({ g with keys := keys }, [])

end Gate

/-- The entries as a step system. -/
def system (c : Secrets) : System (Gate Ip) (Action Ip) :=
  ⟨fun g a => (g.turn c a).map Prod.fst⟩

/-- The answers of a step. -/
def answers (c : Secrets) (g : Gate Ip) (a : Action Ip) : List (Answer Ip) :=
  ((g.turn c a).map Prod.snd).getD []

end Access

end HifiApi
