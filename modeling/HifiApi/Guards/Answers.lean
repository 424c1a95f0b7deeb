import HifiApi.Guards.PerAddress

/-!
# The answers of the two guards

Both guards answer every call as the rule for one address does, as long as they
hold fewer addresses than their bound.
-/

namespace HifiApi

variable {Ip : Type} [DecidableEq Ip]

instance {Ip : Type} (s : GuardState Ip) : Decidable s.HasRoom :=
  inferInstanceAs (Decidable (_ < _))

/-- A call that is no ordinary request. -/
def GuardCall.leavesTrace (c : GuardCall Ip) : Bool :=
  match c.call with
  | .visit counted _ => counted
  | .peek _ | .clear => true

/-- The answers to the requests that pass a test. -/
def answersTo {Request : Type} (keep : Request -> Bool)
    (requests : List Request) (given : List (Option Nat)) : List (Option Nat) :=
  ((requests.zip given).filter fun answered => keep answered.1).map Prod.snd

namespace GuardRule

section Requests

variable {r : GuardRule} {Request : Type} (toCall : Request -> GuardCall Ip)

/-- The answers of the rule to requests that are calls. -/
def expected (r : GuardRule) (toCall : Request -> GuardCall Ip)
    (requests : List Request) : List (Option Nat) :=
  r.naiveAnswers [] (requests.map toCall)

theorem expected_filter {keep : Request -> Bool} (kept : GuardCall Ip -> Bool)
    (hkept : forall c, kept (toCall c) = keep c)
    (hkeep : forall c c', kept c = false -> kept c' = true -> c.ip = c'.ip ->
      forall n, r.logged n c.call = n) (requests : List Request) :
    answersTo keep requests (r.expected toCall requests) =
      r.expected toCall (requests.filter keep) := by
  have hfilter := naiveAnswers_filter kept hkeep [] (requests.map toCall)
  have hcomp : kept ∘ toCall = keep := funext hkept
  have hpair : ((fun answered : GuardCall Ip × Option Nat => kept answered.1) ∘
      Prod.map toCall id) = fun answered => keep answered.1 :=
    funext fun answered => hkept answered.1
  rw [List.zip_map_left, List.filter_map, List.map_map, List.filter_nil,
    List.filter_map, hcomp, hpair] at hfilter
  exact hfilter

/-- The answers to one address are those it would get alone. -/
theorem expected_of_address (ipOf : Request -> Ip)
    (hip : forall c, (toCall c).ip = ipOf c) (ip : Ip)
    (requests : List Request) :
    answersTo (fun c => decide (ipOf c = ip)) requests
        (r.expected toCall requests) =
      r.expected toCall (requests.filter fun c => decide (ipOf c = ip)) := by
  refine expected_filter toCall (fun c => decide (c.ip = ip)) ?_ ?_ requests
  · intro c
    rw [hip]
  · intro c c' hc hc' hsame
    exact absurd (hsame.trans (of_decide_eq_true hc')) (of_decide_eq_false hc)

end Requests

end GuardRule

namespace ScannerGuard

/-- A request to a server behind the scanner guard. -/
structure Request (Ip : Type) where
  ip : Ip
  path : String
  now : Instant
  order : Table.Iteration (Ip × IpActivity)

/-- The guard as a step system. -/
def system : System (GuardState Ip) (Request Ip) :=
  ⟨fun s c => some (check c.order c.ip c.path c.now s).1⟩

/-- The answers to a sequence of requests. -/
def answers (s : GuardState Ip) (requests : List (Request Ip)) :
    List (Option Nat) :=
  system.history (fun s c => [(check c.order c.ip c.path c.now s).2]) s requests

/-- A request is an offence when it asks for a scanner path. -/
def Request.toCall (c : Request Ip) : GuardCall Ip :=
  ⟨c.ip, .visit (isScannerPath c.path) c.now, c.order⟩

/-- The answers of the rule. -/
def expected (requests : List (Request Ip)) : List (Option Nat) :=
  rule.expected Request.toCall requests

/-- The guard answers by the log of each address alone: requests of other
addresses, ordinary requests and the cleanup change no answer. -/
theorem scanner_answers_eq {start : Instant} {requests : List (Request Ip)}
    (hordered : (requests.map Request.now).Pairwise (· ≤ ·))
    (hroom : system.Along (fun s _ => s.HasRoom) (GuardState.new start)
      requests) :
    answers (GuardState.new start) requests = expected requests ∧
      (forall ip, answersTo (fun c => decide (c.ip = ip)) requests
          (answers (GuardState.new start) requests) =
        expected (requests.filter fun c => decide (c.ip = ip))) ∧
      answersTo (fun c => isScannerPath c.path) requests
          (answers (GuardState.new start) requests) =
        expected (requests.filter fun c => isScannerPath c.path) := by
  have hnow : (requests.map Request.toCall).filterMap (fun c => c.call.now?) =
      requests.map Request.now := by
    rw [List.filterMap_map]
    exact congrFun List.filterMap_eq_map requests
  have hstep : forall (s : GuardState Ip) c,
      system.step s c = rule.system.step s (Request.toCall c) :=
    fun _ _ => rfl
  have hmain : answers (GuardState.new start) requests = expected requests := by
    refine Eq.trans (System.history_rename hstep
      (fun s c => [(rule.apply s c).2]) _ _) ?_
    exact GuardRule.answers_eq_naive (hnow ▸ hordered)
      ((System.along_rename hstep).mp hroom)
  rw [hmain]
  refine ⟨rfl, fun ip =>
    GuardRule.expected_of_address Request.toCall Request.ip (fun _ => rfl) ip _, ?_⟩
  have hordinary : forall c c' : GuardCall Ip, c.leavesTrace = false ->
      c'.leavesTrace = true -> c.ip = c'.ip -> forall n,
        rule.logged n c.call = n := by
    intro c _ hc _ _ n
    rcases c with ⟨ip, call, order⟩
    cases call with
    | visit counted now =>
        cases hc
        rfl
    | _ =>
        cases hc
  exact GuardRule.expected_filter Request.toCall GuardCall.leavesTrace
    (fun _ => rfl) hordinary requests

/-- Three probes of one address within a second, and a request of another. -/
def threeProbes : List (Request Nat) :=
  [⟨1, "/.env", 0, .inOrder _⟩, ⟨2, "/health", 0, .inOrder _⟩,
    ⟨1, "/wp-includes", 1, .inOrder _⟩, ⟨1, "/xmlrpc.php", 2, .inOrder _⟩,
    ⟨1, "/health", 900 * nanosPerSec, .inOrder _⟩]

theorem scanner_answers_eq_ban :
    answers (GuardState.new 0) threeProbes = [none, none, none, some 900, some 1] := by
  have hanswers := (@scanner_answers_eq Nat _ 0 threeProbes (by decide)
    (by decide)).left
  rw [hanswers]
  decide

end ScannerGuard

namespace AdminAuthGuard

/-- A call to the guard of the admin routes. -/
inductive Request (Ip : Type) where
  | check (ip : Ip) (now : Instant)
  | failed (ip : Ip) (now : Instant)
      (order : Table.Iteration (Ip × IpActivity))
  | clear (ip : Ip)

namespace Request

def ip : Request Ip -> Ip
  | check ip _ | failed ip _ _ | clear ip => ip

def now? : Request Ip -> Option Instant
  | check _ now | failed _ now _ => some now
  | clear _ => none

/-- A failed credential is an offence. -/
def toCall : Request Ip -> GuardCall Ip
  | check ip now => ⟨ip, .peek now, .inOrder _⟩
  | failed ip now order => ⟨ip, .visit true now, order⟩
  | clear ip => ⟨ip, .clear, .inOrder _⟩

end Request

/-- What the guard does with a call. -/
def serve (s : GuardState Ip) : Request Ip -> GuardState Ip × Option Nat
  | .check ip now => AdminAuthGuard.check ip now s
  | .failed ip now order => AdminAuthGuard.failed order ip now s
  | .clear ip => (AdminAuthGuard.clear ip s, none)

def system : System (GuardState Ip) (Request Ip) :=
  ⟨fun s c => some (serve s c).1⟩

def answers (s : GuardState Ip) (requests : List (Request Ip)) :
    List (Option Nat) :=
  system.history (fun s c => [(serve s c).2]) s requests

/-- The answers of the rule. -/
def expected (requests : List (Request Ip)) : List (Option Nat) :=
  rule.expected Request.toCall requests

theorem serve_eq_apply (s : GuardState Ip) (c : Request Ip) :
    serve s c = rule.apply s c.toCall := by
  cases c <;> rfl

/-- The guard answers by the log of each address alone. -/
theorem lockout_answers_eq {start : Instant} {requests : List (Request Ip)}
    (hordered : (requests.filterMap Request.now?).Pairwise (· ≤ ·))
    (hroom : system.Along (fun s _ => s.HasRoom) (GuardState.new start)
      requests) :
    answers (GuardState.new start) requests = expected requests ∧
      forall ip, answersTo (fun c => decide (c.ip = ip)) requests
          (answers (GuardState.new start) requests) =
        expected (requests.filter fun c => decide (c.ip = ip)) := by
  have hnow : (requests.map Request.toCall).filterMap (fun c => c.call.now?) =
      requests.filterMap Request.now? := by
    rw [List.filterMap_map]
    apply List.filterMap_congr
    intro c _
    cases c <;> rfl
  have hstep : forall (s : GuardState Ip) c,
      system.step s c = rule.system.step s (Request.toCall c) :=
    fun s c => congrArg
      (fun next : GuardState Ip × Option Nat => some next.1) (serve_eq_apply s c)
  have hout : (fun (s : GuardState Ip) c => [(serve s c).2]) =
      fun s c => [(rule.apply s (Request.toCall c)).2] :=
    funext fun s => funext fun c =>
      congrArg (fun next : GuardState Ip × Option Nat => [next.2])
        (serve_eq_apply s c)
  have hmain : answers (GuardState.new start) requests = expected requests := by
    unfold answers
    rw [hout]
    refine Eq.trans (System.history_rename hstep
      (fun s c => [(rule.apply s c).2]) _ _) ?_
    exact GuardRule.answers_eq_naive (hnow ▸ hordered)
      ((System.along_rename hstep).mp hroom)
  rw [hmain]
  refine ⟨rfl, fun ip =>
    GuardRule.expected_of_address Request.toCall Request.ip ?_ ip _⟩
  intro c
  cases c <;> rfl

/-- Five failures of one address within a second, and another one in the
lock. -/
def fiveFailures : List (Request Nat) :=
  [.failed 1 0 (.inOrder _), .failed 1 1 (.inOrder _), .failed 2 1 (.inOrder _),
    .failed 1 2 (.inOrder _), .failed 1 3 (.inOrder _), .failed 1 4 (.inOrder _),
    .failed 1 (2 * nanosPerSec) (.inOrder _), .clear 1,
    .check 1 (3 * nanosPerSec)]

theorem lockout_answers_eq_lock :
    answers (GuardState.new 0) fiveFailures =
      [none, none, none, none, none, some 900, some 898, none, none] := by
  have hanswers := (@lockout_answers_eq Nat _ 0 fiveFailures (by decide)
    (by decide)).left
  rw [hanswers]
  decide

end AdminAuthGuard

end HifiApi
