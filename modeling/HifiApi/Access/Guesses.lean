import HifiApi.Access.Gate
import HifiApi.Guards.Eviction
import HifiApi.Lib.Threads

/-!
# How many admin keys an address can try

The three entries ask the guard before they judge a credential and tell it of the result
afterwards, so requests that run at once may be judged although the address is locked by
now.  Whatever the order of their steps, the credentials of one address that turn out
wrong within a window are bounded by the limit of the guard and the number of requests
that were between the two steps together.
-/

namespace HifiApi

namespace Access

open AdminAuthGuard

variable {Ip : Type} [DecidableEq Ip]

/-- The credential that the next step of a request judges. -/
def Ticket.judged (c : Secrets) (clock : UtcSecond) (ticket : Ticket Ip) :
    List (Ip × Credential) :=
  if ticket.stage = .judge then [(ticket.request.ip, ticket.request.credential c clock)]
  else []

/-- The credentials a step judges. -/
def judged (c : Secrets) (g : Gate Ip) : Action Ip -> List (Ip × Credential)
  | .advance i clock _ => g.tickets[i]?.elim [] (Ticket.judged c clock)
  | .arrive _ | .roster _ => []

/-- A request of an address whose credential is about to be judged. -/
def Ticket.before (ip : Ip) (t : Ticket Ip) : Bool :=
  decide (t.stage = .judge) && decide (t.request.ip = ip)

def inFlight (ip : Ip) (g : Gate Ip) : Nat := g.tickets.countP (Ticket.before ip)

/-- The clock that a request reads lies before the end of a window, and not before its
start if the request is of the address. -/
def Ticket.inWindow (ip : Ip) (t : Instant) (ticket : Ticket Ip) : Bool :=
  decide (ticket.request.now < t + rule.window) &&
    (decide (ticket.request.ip ≠ ip) || decide (t ≤ ticket.request.now))

def inWindow (ip : Ip) (t : Instant) (g : Gate Ip) : Action Ip -> Bool
  | .advance i _ _ => g.tickets[i]?.all (Ticket.inWindow ip t)
  | .arrive _ | .roster _ => true

/-- A step within the window, with a limited number of requests in flight. -/
def Calm (ip : Ip) (t : Instant) (n : Nat) (g : Gate Ip) (a : Action Ip) : Prop :=
  g.guard.HasRoom ∧ inFlight ip g ≤ n ∧ inWindow ip t g a = true

instance (ip : Ip) (t : Instant) (n : Nat) (g : Gate Ip) (a : Action Ip) :
    Decidable (Calm ip t n g a) :=
  inferInstanceAs (Decidable (_ ∧ _ ∧ _))

/-!
## What a failed credential leaves, whatever clock it read
-/

section Failed

variable {s : GuardState Ip} {order : Table.Iteration (Ip × IpActivity)} {ip ip' : Ip}
  {now : Instant}

/-- A lock that is running stays as it is. -/
theorem failed_of_locked {a : IpActivity} {until_ : Instant}
    (ha : s.activity ip = some a) (hlock : a.blockedUntil = some until_)
    (hrun : now < until_) :
    (failed order ip now s).1.activity ip = some a ∧
      (failed order ip now s).2 = some (secondsLeft until_ now) := by
  have hkept : (rule.cleanup now s).activity ip = some a := by
    rcases GuardState.activity_cleanup s ip rule now with hsame | ⟨b, hb, hfree, _, _⟩
    · rw [hsame, ha]
    · rw [ha] at hb
      cases hb
      have hblocked : a.blockedAt now = true := by
        unfold IpActivity.blockedAt
        rw [hlock]
        exact decide_eq_true hrun
      rw [hblocked] at hfree
      cases hfree
  have hleft : (rule.cleanup now s).left ip now = some (secondsLeft until_ now) := by
    unfold GuardState.left
    rw [hkept, Option.bind_some, hlock, Option.filter_some, if_pos (decide_eq_true hrun)]
    rfl
  unfold failed GuardRule.visit
  dsimp only
  rw [hleft]
  exact ⟨hkept, rfl⟩

/-- The entry that counts a failure: the one known, unless its lock has ended or it was
not seen for a window, or a new one. -/
def counting (now : Instant) (known : Option IpActivity) : IpActivity :=
  ((known.filter fun a => a.blockedUntil.isNone)).getD ⟨[], none, now⟩

theorem count_activity (hroom : s.HasRoom) (r : GuardRule) :
    (r.count order ip now s).1.activity ip =
        some (r.record now ((s.activity ip).getD ⟨[], none, now⟩)).1 ∧
      (r.count order ip now s).2 =
        (r.record now ((s.activity ip).getD ⟨[], none, now⟩)).2 := by
  unfold GuardRule.count
  dsimp only
  rw [GuardState.makeRoom_of_hasRoom ip hroom order]
  exact ⟨(GuardState.activity_put s ip ip _).trans (if_pos rfl), rfl⟩

/-- Without a running lock the failure is counted. -/
theorem failed_of_free (hroom : s.HasRoom)
    (hfree : forall a until_, s.activity ip = some a -> a.blockedUntil = some until_ ->
      until_ ≤ now) :
    exists known, (known = s.activity ip ∨ known = none ∧
        forall a, s.activity ip = some a -> rule.window ≤ now - a.lastSeen) ∧
      (failed order ip now s).1.activity ip =
          some (rule.record now (counting now known)).1 ∧
        (failed order ip now s).2 = (rule.record now (counting now known)).2 := by
  have hleft : (rule.cleanup now s).left ip now = none := by
    unfold GuardState.left
    rcases GuardState.activity_cleanup s ip rule now with hsame | ⟨_, _, _, _, hgone⟩
    · rw [hsame]
      cases ha : s.activity ip with
      | none => rfl
      | some a =>
          cases hb : a.blockedUntil with
          | none =>
              rw [Option.bind_some, hb]
              rfl
          | some until_ =>
              have hended := hfree a until_ ha hb
              rw [Option.bind_some, hb, Option.filter_some,
                if_neg (by simpa using hended)]
              rfl
    · rw [hgone]
      rfl
  have hcount := @count_activity Ip _ _ order ip now
    ((hroom.cleanup rule now).dropEnded ip) rule
  have hfailed : failed order ip now s =
      rule.count order ip now ((rule.cleanup now s).dropEnded ip) := by
    unfold failed GuardRule.visit
    dsimp only
    rw [hleft]
    rfl
  rw [hfailed]
  rw [GuardState.activity_dropEnded, if_pos rfl] at hcount
  refine ⟨(rule.cleanup now s).activity ip, ?_, hcount⟩
  rcases GuardState.activity_cleanup s ip rule now with hsame | ⟨a, ha, _, hold, hgone⟩
  · exact Or.inl hsame
  · refine Or.inr ⟨hgone, ?_⟩
    intro b hb
    rw [ha] at hb
    cases hb
    exact hold

/-- Another address is left alone, or forgotten when it carries no running lock and was
not seen for a window. -/
theorem failed_other (hroom : s.HasRoom) (hne : ip' ≠ ip) :
    (failed order ip now s).1.activity ip' = s.activity ip' ∨
      exists a, s.activity ip' = some a ∧ a.blockedAt now = false ∧
        rule.window ≤ now - a.lastSeen ∧ (failed order ip now s).1.activity ip' = none := by
  have hcleaned : (failed order ip now s).1.activity ip' =
      (rule.cleanup now s).activity ip' := by
    unfold failed GuardRule.visit
    dsimp only
    split
    · rfl
    · rw [if_pos rfl]
      have hfresh := (hroom.cleanup rule now).dropEnded ip
      unfold GuardRule.count
      dsimp only
      rw [GuardState.makeRoom_of_hasRoom ip hfresh order]
      refine (GuardState.activity_put _ ip ip' _).trans ?_
      rw [if_neg hne, GuardState.activity_dropEnded, if_neg hne]
  rcases GuardState.activity_cleanup s ip' rule now with hsame | ⟨a, ha, hfree, hold, hgone⟩
  · exact Or.inl (hcleaned.trans hsame)
  · exact Or.inr ⟨a, ha, hfree, hold, hcleaned.trans hgone⟩

end Failed

/-!
## Where an address stands
-/

/-- What the guard knows of an address, how many of its requests are in flight, and how
many of its guesses since its last right credential are not forgotten. -/
inductive Standing (t n : Nat) : Option IpActivity -> Nat -> Nat -> Prop
  | unknown (flight : Nat) : Standing t n none flight 0
  | counting {a : IpActivity} {flight guesses : Nat} (hfree : a.blockedUntil = none)
      (hshort : a.hits.length < rule.limit)
      (hcounted : guesses ≤ a.hits.countP fun hit => decide (t ≤ hit))
      (hseen : guesses = 0 ∨ t ≤ a.lastSeen) : Standing t n (some a) flight guesses
  /-- A lock from before: nothing has passed it. -/
  | earlier {a : IpActivity} {until_ : Nat} (hlock : a.blockedUntil = some until_) :
      Standing t n (some a) 0 0
  | locked {a : IpActivity} {until_ : Nat} {flight guesses : Nat}
      (hlock : a.blockedUntil = some until_) (hlong : t + rule.window ≤ until_)
      (hbound : guesses + flight ≤ 4 + n) : Standing t n (some a) flight guesses

namespace Standing

variable {t now n flight flight' guesses : Nat} {known : Option IpActivity}

theorem guesses_le (h : Standing t n known flight guesses) : guesses ≤ 4 + n := by
  cases h with
  | unknown => omega
  | counting hfree hshort hcounted hseen =>
      have hlength : rule.limit = 5 := rfl
      have hcount := Nat.le_trans hcounted List.countP_le_length
      omega
  | earlier hlock => omega
  | locked hlock hlong hbound => omega

/-- An entry that the guard forgets counts nothing. -/
theorem forgotten {a : IpActivity} (h : Standing t n (some a) flight guesses)
    (hnow : now < t + rule.window) (hfree : a.blockedAt now = false)
    (hold : rule.window ≤ now - a.lastSeen) : Standing t n none flight guesses := by
  cases h with
  | counting hnone hshort hcounted hseen =>
      have hwindow := rule.window_pos
      have hzero : guesses = 0 := by omega
      rw [hzero]
      exact .unknown flight
  | earlier hlock => exact .unknown 0
  | @locked _ until_ _ _ hlock hlong hbound =>
      unfold IpActivity.blockedAt at hfree
      rw [hlock] at hfree
      have hended : ¬ now < until_ := by simpa using hfree
      omega

/-- A request that finds no running lock is in flight from now on. -/
theorem passed (h : Standing t n known flight guesses) (hnow : now < t + rule.window)
    (hfree : forall a (until_ : Nat), known = some a -> a.blockedUntil = some until_ ->
      until_ ≤ now) :
    Standing t n (known.filter fun a => a.blockedUntil.isNone) (flight + 1) guesses := by
  cases h with
  | unknown => exact .unknown (flight + 1)
  | counting hnone hshort hcounted hseen =>
      rw [Option.filter_some, if_pos (by rw [hnone]; rfl)]
      exact .counting hnone hshort hcounted hseen
  | earlier hlock =>
      rw [Option.filter_some, if_neg (by rw [hlock]; exact Bool.false_ne_true)]
      exact .unknown 1
  | locked hlock hlong hbound =>
      have hended := hfree _ _ rfl hlock
      omega

/-- The hits of a window survive the count. -/
theorem countP_dropWhile {hits : List Nat} (hnow : now < t + rule.window) :
    (hits.dropWhile fun hit => decide (rule.window ≤ now - hit)).countP
        (fun hit => decide (t ≤ hit)) =
      hits.countP fun hit => decide (t ≤ hit) := by
  induction hits with
  | nil =>
      rfl
  | cons hit rest ih =>
      by_cases hold : rule.window ≤ now - hit
      · have hwindow := rule.window_pos
        have hearly : ¬ t ≤ hit := by omega
        rw [List.dropWhile_cons, if_pos (decide_eq_true hold), ih, List.countP_cons_of_neg]
        simpa using hearly
      · rw [List.dropWhile_cons, if_neg (by simpa using hold)]

/-- A counted failure: the address counts on, or its lock begins. -/
theorem recorded {a : IpActivity} (hfree : a.blockedUntil = none)
    (hshort : a.hits.length < rule.limit)
    (hcounted : guesses ≤ a.hits.countP fun hit => decide (t ≤ hit))
    (hflight : flight' + 1 ≤ n) (hstart : t ≤ now) (hnow : now < t + rule.window) :
    Standing t n (some (rule.record now a).1) flight' (guesses + 1) := by
  have hkept := @countP_dropWhile t now a.hits hnow
  have hlimit : rule.limit = 5 := rfl
  have hle := Nat.le_trans hcounted List.countP_le_length
  unfold GuardRule.record
  dsimp only
  split
  · refine .locked rfl ?_ (by omega)
    have hduration : rule.window ≤ rule.duration := by decide
    omega
  · rename_i hroom
    refine .counting hfree (Nat.lt_of_not_le hroom) ?_ (Or.inr hstart)
    rw [List.countP_append, hkept, List.countP_singleton, if_pos (decide_eq_true hstart)]
    omega

theorem record_new : (rule.record now ⟨[], none, now⟩).1 = ⟨[now], none, now⟩ := rfl

/-- The standing after a wrong credential that no running lock stops. -/
theorem failed (h : Standing t n known flight guesses) {known' : Option IpActivity}
    (hknown : known' = known ∨ known' = none ∧
      forall a, known = some a -> rule.window ≤ now - a.lastSeen)
    (hfree : forall a (until_ : Nat), known = some a -> a.blockedUntil = some until_ ->
      until_ ≤ now)
    (hone : flight' + 1 = flight) (hflight : flight ≤ n) (hstart : t ≤ now)
    (hnow : now < t + rule.window) :
    Standing t n (some (rule.record now (Access.counting now known')).1) flight'
      (guesses + 1) := by
  have hnew : Standing t n (some (rule.record now ⟨[], none, now⟩).1) flight' 1 :=
    recorded rfl (Nat.zero_lt_succ 4) (Nat.zero_le _) (by omega) hstart hnow
  cases h with
  | unknown =>
      have hnone : known' = none := hknown.elim id And.left
      rw [hnone]
      exact hnew
  | counting hnone hshort hcounted hseen =>
      rcases hknown with heq | ⟨heq, hold⟩
      · rw [heq]
        unfold Access.counting
        rw [Option.filter_some, if_pos (by rw [hnone]; rfl), Option.getD_some]
        exact recorded hnone hshort hcounted (by omega) hstart hnow
      · have hgone := hold _ rfl
        have hwindow := rule.window_pos
        have hzero : guesses = 0 := by omega
        rw [heq, hzero]
        exact hnew
  | earlier hlock => omega
  | locked hlock hlong hbound =>
      have hended := hfree _ _ rfl hlock
      omega

/-- The standing after a wrong credential that a running lock stops. -/
theorem stopped {a : IpActivity} {until_ : Nat} (h : Standing t n (some a) flight guesses)
    (hlock : a.blockedUntil = some until_) (hone : flight' + 1 = flight) :
    Standing t n (some a) flight' (guesses + 1) := by
  cases h with
  | counting hnone hshort hcounted hseen =>
      rw [hnone] at hlock
      cases hlock
  | earlier hlock => omega
  | locked hlock hlong hbound => exact .locked hlock hlong (by omega)

end Standing

/-!
## The steps of the requests
-/

/-- Either a lock is running, or no lock of the address is. -/
theorem left_cases (s : GuardState Ip) (ip : Ip) (now : Instant) :
    (exists a until_, s.activity ip = some a ∧ a.blockedUntil = some until_ ∧
      now < until_ ∧ s.left ip now = some (secondsLeft until_ now)) ∨
    ((forall a until_, s.activity ip = some a -> a.blockedUntil = some until_ ->
      until_ ≤ now) ∧ s.left ip now = none) := by
  unfold GuardState.left
  cases ha : s.activity ip with
  | none =>
      refine Or.inr ⟨?_, rfl⟩
      intro a until_ h
      cases h
  | some a =>
      rw [Option.bind_some]
      cases hb : a.blockedUntil with
      | none =>
          refine Or.inr ⟨?_, rfl⟩
          intro b until_ h hlock
          cases h
          rw [hb] at hlock
          cases hlock
      | some until_ =>
          rw [Option.filter_some]
          by_cases hrun : now < until_
          · rw [if_pos (decide_eq_true hrun)]
            exact Or.inl ⟨a, until_, rfl, hb, hrun, rfl⟩
          · rw [if_neg (by simpa using hrun)]
            refine Or.inr ⟨?_, rfl⟩
            intro b until' h hlock
            cases h
            rw [hb] at hlock
            cases hlock
            exact Nat.le_of_not_lt hrun

namespace Standing

variable {t n flight flight' guesses : Nat} {known : Option IpActivity}

/-- A request that leaves without a wrong credential. -/
theorem fewer (h : Standing t n known flight guesses) (hle : flight' ≤ flight) :
    Standing t n known flight' guesses := by
  cases h with
  | unknown => exact .unknown flight'
  | counting hnone hshort hcounted hseen => exact .counting hnone hshort hcounted hseen
  | earlier hlock =>
      rw [Nat.le_zero.mp hle]
      exact .earlier hlock
  | locked hlock hlong hbound => exact .locked hlock hlong (by omega)

end Standing

section Steps

variable {c : Secrets} {ip : Ip} {t n : Nat} {g g' : Gate Ip} {i : Nat} {r : Request Ip}
  {stage : Stage} {clock : UtcSecond} {order : Table.Iteration (Ip × IpActivity)}

theorem inFlight_leave {guard : GuardState Ip} {keys : List ApiKeyState}
    (h : g.tickets[i]? = some ⟨r, stage⟩) :
    inFlight ip (Gate.leave ⟨guard, keys, g.tickets⟩ i) +
      (decide (stage = .judge) && decide (r.ip = ip)).toNat = inFlight ip g :=
  Threads.countP_eraseIdx (Ticket.before ip) h

theorem inFlight_moveTo {guard : GuardState Ip} {stage' : Stage}
    (h : g.tickets[i]? = some ⟨r, stage⟩) :
    inFlight ip (Gate.moveTo { g with guard := guard } i stage') +
        (decide (stage = .judge) && decide (r.ip = ip)).toNat =
      inFlight ip g + (decide (stage' = .judge) && decide (r.ip = ip)).toNat :=
  Threads.countP_modify (Ticket.before ip) _ h

/-- The number of wrong and of right credentials of the address in a list. -/
def wrongs (ip : Ip) (log : List (Ip × Credential)) : Nat := log.count (ip, .wrong)

def rights (ip : Ip) (log : List (Ip × Credential)) : Nat := log.count (ip, .right)

/-- The address stands somewhere, and the credentials judged so far fit. -/
def Tracked (ip : Ip) (t n : Nat) (g : Gate Ip) (log : List (Ip × Credential)) : Prop :=
  exists guesses, Standing t n (g.guard.activity ip) (inFlight ip g) guesses ∧
    wrongs ip log ≤ (4 + n) * rights ip log + guesses

omit [DecidableEq Ip] in
theorem refusal_error {r : Request Ip} {stage : Stage} (h : r.refusal = .error stage) :
    stage = .consume := by
  unfold Request.refusal at h
  split at h
  · cases h
  · cases h
  · cases h
    rfl

/-- A request of another address changes nothing here. -/
theorem Tracked.of_eq {log : List (Ip × Credential)} (h : Tracked ip t n g log)
    (hactivity : g'.guard.activity ip = g.guard.activity ip)
    (hflight : inFlight ip g' ≤ inFlight ip g) : Tracked ip t n g' log := by
  rcases h with ⟨guesses, hstanding, hlog⟩
  refine ⟨guesses, ?_, hlog⟩
  rw [hactivity]
  exact hstanding.fewer hflight

theorem Tracked.append_other {log : List (Ip × Credential)} (h : Tracked ip t n g log)
    {x : Ip × Credential} (hx : x.1 ≠ ip) : Tracked ip t n g (log ++ [x]) := by
  rcases h with ⟨guesses, hstanding, hlog⟩
  have hnone : forall v : Credential, (log ++ [x]).count (ip, v) = log.count (ip, v) := by
    intro v
    have hzero : [x].count (ip, v) = 0 := by
      rw [List.count_singleton, if_neg]
      intro heq
      exact hx (congrArg Prod.fst (eq_of_beq heq))
    rw [List.count_append, hzero, Nat.add_zero]
  refine ⟨guesses, hstanding, ?_⟩
  unfold wrongs rights
  rw [hnone, hnone]
  exact hlog

/-- How the numbers change by one judged credential. -/
theorem counts_append (log : List (Ip × Credential)) (v : Credential) :
    (wrongs ip (log ++ [(ip, v)]), rights ip (log ++ [(ip, v)])) =
      match v with
      | .right => (wrongs ip log, rights ip log + 1)
      | .wrong => (wrongs ip log + 1, rights ip log)
      | .absent => (wrongs ip log, rights ip log) := by
  unfold wrongs rights
  rw [List.count_append, List.count_append, List.count_singleton, List.count_singleton]
  cases v <;> simp

/-- Asking the guard. -/
theorem Tracked.check {log : List (Ip × Credential)} (h : Tracked ip t n g log)
    (hget : g.tickets[i]? = some ⟨r, .check⟩) (hnow : r.now < t + rule.window) :
    Tracked ip t n (g.check i r).1 log := by
  unfold Gate.check AdminAuthGuard.check
  rcases left_cases g.guard r.ip r.now with ⟨a, until_, _, _, _, hleft⟩ | ⟨hfree, hleft⟩
  · rw [hleft]
    refine h.of_eq rfl ?_
    have hsame := @inFlight_leave Ip _ ip g i r _ g.guard g.keys hget
    exact Nat.le_of_eq hsame
  · rw [hleft]
    have hmoved := @inFlight_moveTo Ip _ ip g i r _ (g.guard.dropEnded r.ip)
      .judge hget
    have hactivity := g.guard.activity_dropEnded r.ip ip
    by_cases hip : r.ip = ip
    · rcases h with ⟨guesses, hstanding, hlog⟩
      rw [if_pos hip.symm, hip] at hactivity
      refine ⟨guesses, ?_, hlog⟩
      have hone : inFlight ip
          (Gate.moveTo { g with guard := g.guard.dropEnded r.ip } i .judge) =
          inFlight ip g + 1 := by
        simpa [hip] using hmoved
      dsimp only
      rw [hone]
      show Standing t n ((g.guard.dropEnded r.ip).activity ip) _ _
      rw [hip, hactivity]
      exact hstanding.passed hnow (hip ▸ hfree)
    · rw [if_neg (Ne.symm hip)] at hactivity
      refine h.of_eq hactivity (Nat.le_of_eq ?_)
      simpa [hip] using hmoved

/-- What a judged request leaves of the guard, and that it is in flight no longer. -/
theorem judge_spec (hget : g.tickets[i]? = some ⟨r, .judge⟩) :
    (g.judge c clock order i r).1.guard =
        (match r.credential c clock with
        | .right => AdminAuthGuard.clear r.ip g.guard
        | .wrong => (failed order r.ip r.now g.guard).1
        | .absent => g.guard) ∧
      inFlight ip (g.judge c clock order i r).1 + (decide (r.ip = ip)).toNat =
        inFlight ip g := by
  have hleave : forall guard : GuardState Ip,
      inFlight ip (Gate.leave ⟨guard, g.keys, g.tickets⟩ i) +
        (decide (r.ip = ip)).toNat = inFlight ip g := by
    intro guard
    simpa using @inFlight_leave Ip _ ip g i r _ guard g.keys hget
  have hmove : forall guard : GuardState Ip,
      inFlight ip (Gate.moveTo { g with guard := guard } i .consume) +
        (decide (r.ip = ip)).toNat = inFlight ip g := by
    intro guard
    simpa using @inFlight_moveTo Ip _ ip g i r _ guard .consume hget
  unfold Gate.judge
  cases r.credential c clock with
  | right => exact ⟨rfl, hleave _⟩
  | absent => exact ⟨rfl, hleave g.guard⟩
  | wrong =>
      dsimp only
      rcases hfailed : failed order r.ip r.now g.guard with ⟨guard, answer⟩
      cases answer with
      | some seconds => exact ⟨rfl, hleave guard⟩
      | none =>
          dsimp only
          cases hrefusal : r.refusal with
          | ok outcome => exact ⟨rfl, hleave guard⟩
          | error stage =>
              rw [refusal_error hrefusal]
              exact ⟨rfl, hmove guard⟩

/-- A wrong credential of another address. -/
theorem Tracked.failed_other {log : List (Ip × Credential)} (h : Tracked ip t n g log)
    (hroom : g.guard.HasRoom) (hnow : r.now < t + rule.window) (hne : ip ≠ r.ip)
    (hguard : g'.guard = (failed order r.ip r.now g.guard).1)
    (hflight : inFlight ip g' = inFlight ip g) : Tracked ip t n g' log := by
  rcases @Access.failed_other Ip _ _ order _ _ r.now hroom hne with
    hsame | ⟨a, ha, hfree, hold, hgone⟩
  · exact h.of_eq (by rw [hguard, hsame]) (Nat.le_of_eq hflight)
  · rcases h with ⟨guesses, hstanding, hlog⟩
    refine ⟨guesses, ?_, hlog⟩
    rw [hguard, hgone, hflight]
    rw [ha] at hstanding
    exact hstanding.forgotten hnow hfree hold

/-- A wrong credential of the address itself. -/
theorem Tracked.failed_own {log : List (Ip × Credential)} (h : Tracked r.ip t n g log)
    (hroom : g.guard.HasRoom) (hflight : inFlight r.ip g ≤ n) (hstart : t ≤ r.now)
    (hnow : r.now < t + rule.window)
    (hguard : g'.guard = (failed order r.ip r.now g.guard).1)
    (hone : inFlight r.ip g' + 1 = inFlight r.ip g) :
    Tracked r.ip t n g' (log ++ [(r.ip, Credential.wrong)]) := by
  rcases h with ⟨guesses, hstanding, hlog⟩
  have hcount := Prod.mk.inj (@counts_append Ip _ r.ip log .wrong)
  refine ⟨guesses + 1, ?_, ?_⟩
  · rw [hguard]
    rcases left_cases g.guard r.ip r.now with ⟨a, until_, ha, hlock, hrun, _⟩ | ⟨hfree, _⟩
    · rw [(failed_of_locked ha hlock hrun).left]
      rw [ha] at hstanding
      exact hstanding.stopped hlock hone
    · rcases @failed_of_free Ip _ _ order _ _ hroom hfree with ⟨known, hknown, hactivity, _⟩
      rw [hactivity]
      exact hstanding.failed hknown hfree hone hflight hstart hnow
  · rw [hcount.left, hcount.right]
    omega

/-- A judged credential. -/
theorem Tracked.judge {log : List (Ip × Credential)} (h : Tracked ip t n g log)
    (hget : g.tickets[i]? = some ⟨r, .judge⟩) (hroom : g.guard.HasRoom)
    (hflight : inFlight ip g ≤ n) (hstart : r.ip = ip -> t ≤ r.now)
    (hnow : r.now < t + rule.window) :
    Tracked ip t n (g.judge c clock order i r).1 (log ++ [(r.ip, r.credential c clock)]) := by
  rcases @judge_spec Ip _ c ip g i r clock order hget with
    ⟨hguard, hone⟩
  by_cases hip : r.ip = ip
  · subst hip
    rw [decide_eq_true rfl, Bool.toNat_true] at hone
    cases hcredential : r.credential c clock with
    | right =>
        rw [hcredential] at hguard
        rcases h with ⟨guesses, hstanding, hlog⟩
        have hle := hstanding.guesses_le
        have hcount := Prod.mk.inj (@counts_append Ip _ r.ip log .right)
        refine ⟨0, ?_, ?_⟩
        · have hgone : (AdminAuthGuard.clear r.ip g.guard).activity r.ip = none :=
            (g.guard.activity_delete r.ip r.ip).trans (if_pos rfl)
          rw [hguard, hgone]
          exact .unknown _
        · rw [hcount.left, hcount.right, Nat.mul_add]
          omega
    | absent =>
        rw [hcredential] at hguard
        have hsame : Tracked r.ip t n (g.judge c clock order i r).1 log :=
          h.of_eq (by rw [hguard]) (by omega)
        rcases hsame with ⟨guesses, hstanding, hlog⟩
        have hcount := Prod.mk.inj (@counts_append Ip _ r.ip log .absent)
        refine ⟨guesses, hstanding, ?_⟩
        rw [hcount.left, hcount.right]
        exact hlog
    | wrong =>
        rw [hcredential] at hguard
        exact h.failed_own hroom hflight (hstart rfl) hnow hguard hone
  · rw [decide_eq_false hip, Bool.toNat_false, Nat.add_zero] at hone
    refine Tracked.append_other ?_ hip
    cases hcredential : r.credential c clock with
    | right =>
        rw [hcredential] at hguard
        refine h.of_eq ?_ (Nat.le_of_eq hone)
        rw [hguard]
        exact (g.guard.activity_delete r.ip ip).trans (if_neg (Ne.symm hip))
    | absent =>
        rw [hcredential] at hguard
        exact h.of_eq (by rw [hguard]) (Nat.le_of_eq hone)
    | wrong =>
        rw [hcredential] at hguard
        exact h.failed_other hroom hnow (Ne.symm hip) hguard hone

/-- A new request is not in flight yet. -/
theorem tracked_arrive {log : List (Ip × Credential)} (h : Tracked ip t n g log)
    (r : Request Ip) : Tracked ip t n (g.arrive c r).1 log := by
  have hwaiting : forall stage, stage ≠ Stage.judge ->
      Tracked ip t n { g with tickets := g.tickets ++ [⟨r, stage⟩] } log := by
    intro stage hstage
    refine h.of_eq rfl (Nat.le_of_eq ?_)
    refine (Threads.countP_concat (Ticket.before ip) _).trans ?_
    show inFlight ip g + (decide (stage = .judge) && decide (r.ip = ip)).toNat = _
    rw [decide_eq_false hstage, Bool.false_and, Bool.toNat_false, Nat.add_zero]
  unfold Gate.arrive
  cases r.entry with
  | login key => exact hwaiting .check (by decide)
  | admin => exact hwaiting .check (by decide)
  | api path =>
      dsimp only
      split
      · exact h
      · split
        · exact hwaiting .check (by decide)
        · exact hwaiting .consume (by decide)

theorem consume_spec (hget : g.tickets[i]? = some ⟨r, .consume⟩) :
    (g.consume c i r).1.guard = g.guard ∧
      inFlight ip (g.consume c i r).1 = inFlight ip g := by
  have hleave : forall keys : List ApiKeyState,
      inFlight ip (Gate.leave ⟨g.guard, keys, g.tickets⟩ i) = inFlight ip g := by
    intro keys
    simpa using @inFlight_leave Ip _ ip g i r _ g.guard keys hget
  unfold Gate.consume
  cases r.apiKey with
  | none => exact ⟨rfl, hleave g.keys⟩
  | some raw => exact ⟨rfl, hleave _⟩

/-- Every step within the window keeps track. -/
theorem tracked_step {log : List (Ip × Credential)} {a : Action Ip}
    (h : Tracked ip t n g log) (hcalm : Calm ip t n g a)
    (hstep : (system c).step g a = some g') :
    Tracked ip t n g' (log ++ judged c g a) := by
  rcases hcalm with ⟨hroom, hflight, hwindow⟩
  cases a with
  | arrive r =>
      cases hstep
      rw [judged, List.append_nil]
      exact tracked_arrive h r
  | roster keys =>
      cases hstep
      rw [judged, List.append_nil]
      exact h.of_eq rfl (Nat.le_refl _)
  | advance i clock order =>
      have hstep' : (g.tickets[i]?.map fun ticket =>
          g.advance c clock order i ticket).map Prod.fst = some g' := hstep
      have hwindow' : g.tickets[i]?.all (Ticket.inWindow ip t) = true := hwindow
      show Tracked ip t n g' (log ++ g.tickets[i]?.elim [] (Ticket.judged c clock))
      cases hget : g.tickets[i]? with
      | none =>
          rw [hget] at hstep'
          cases hstep'
      | some ticket =>
          rcases ticket with ⟨r, stage⟩
          rw [hget] at hstep' hwindow'
          cases hstep'
          rw [Option.all_some, Ticket.inWindow, Bool.and_eq_true, Bool.or_eq_true] at hwindow'
          have hnow := of_decide_eq_true hwindow'.left
          have hstart : r.ip = ip -> t ≤ r.now := by
            intro hip
            rcases hwindow'.right with hother | hlater
            · exact absurd hip (of_decide_eq_true hother)
            · exact of_decide_eq_true hlater
          cases stage with
          | check =>
              show Tracked ip t n _ (log ++ [])
              rw [List.append_nil]
              exact h.check hget hnow
          | judge =>
              exact h.judge hget hroom hflight hstart hnow
          | consume =>
              show Tracked ip t n _ (log ++ [])
              rw [List.append_nil]
              have hspec := @consume_spec Ip _ c ip _ _ _ hget
              exact h.of_eq (congrArg (fun guard => guard.activity ip) hspec.left)
                (Nat.le_of_eq hspec.right)

end Steps

/-!
## Every entry is below the limit
-/

/-- No address has as many counted failures as start a lock. -/
def Short (s : GuardState Ip) : Prop :=
  s.ips.Holds fun e => e.2.hits.length < rule.limit

theorem Short.visit {s : GuardState Ip} (h : Short s)
    (order : Table.Iteration (Ip × IpActivity)) (ip : Ip) (now : Instant) :
    Short (failed order ip now s).1 := by
  have hcleaned : Short (rule.cleanup now s) :=
    fun e he => h e ((GuardState.rows_cleanup s rule now).subset he)
  have hfresh : Short ((rule.cleanup now s).dropEnded ip) :=
    fun e he => hcleaned e ((GuardState.rows_dropEnded _ ip).subset he)
  unfold failed GuardRule.visit
  dsimp only
  split
  · exact hcleaned
  · rw [if_pos rfl]
    unfold GuardRule.count
    dsimp only
    have hroom : Short (((rule.cleanup now s).dropEnded ip).makeRoom order ip) := by
      rcases GuardState.makeRoom_cases order ip ((rule.cleanup now s).dropEnded ip) with
        ⟨hsame, _⟩ | ⟨_, _, e, _, hdropped, _⟩
      · rw [hsame]
        exact hfresh
      · rw [hdropped]
        exact hfresh.delete e.1
    refine Table.Holds.put hroom ?_
    unfold GuardRule.record
    dsimp only
    split
    · exact Nat.zero_lt_succ 4
    · rename_i hfew
      exact Nat.lt_of_not_le hfew

theorem Short.step {c : Secrets} {g g' : Gate Ip} {a : Action Ip} (h : Short g.guard)
    (hstep : (system c).step g a = some g') : Short g'.guard := by
  cases a with
  | arrive r =>
      cases hstep
      show Short (g.arrive c r).1.guard
      unfold Gate.arrive
      cases r.entry with
      | login key => exact h
      | admin => exact h
      | api path =>
          dsimp only
          split
          · exact h
          · split <;> exact h
  | roster keys =>
      cases hstep
      exact h
  | advance i clock order =>
      have hstep' : (g.tickets[i]?.map fun ticket =>
          g.advance c clock order i ticket).map Prod.fst = some g' := hstep
      cases hget : g.tickets[i]? with
      | none =>
          rw [hget] at hstep'
          cases hstep'
      | some ticket =>
          rcases ticket with ⟨r, stage⟩
          rw [hget] at hstep'
          cases hstep'
          cases stage with
          | check =>
              show Short (g.check i r).1.guard
              unfold Gate.check AdminAuthGuard.check
              cases g.guard.left r.ip r.now with
              | some seconds => exact h
              | none => exact fun e he => h e ((GuardState.rows_dropEnded _ r.ip).subset he)
          | judge =>
              show Short (g.judge c clock order i r).1.guard
              rw [(@judge_spec Ip _ _ r.ip _ _ _ _ _ hget).left]
              cases r.credential c clock with
              | right => exact h.delete r.ip
              | wrong => exact h.visit order r.ip r.now
              | absent => exact h
          | consume =>
              show Short (g.consume c i r).1.guard
              rw [(@consume_spec Ip _ _ r.ip _ _ _ hget).left]
              exact h

/-- An address with no request in flight stands at no guess. -/
theorem standing_idle {s : GuardState Ip} (h : Short s) (ip : Ip) (t n : Nat) :
    Standing t n (s.activity ip) 0 0 := by
  cases ha : s.activity ip with
  | none => exact .unknown 0
  | some a =>
      cases hb : a.blockedUntil with
      | none =>
          have hmem : (ip, a) ∈ s.ips.rows := GuardState.mem_of_activity ha
          exact .counting hb (h (ip, a) hmem) (Nat.zero_le _) (Or.inl rfl)
      | some until_ => exact .earlier hb

/-!
## The bound
-/

/-- A login from the address 1 at an instant. -/
def guess (key : String) (now : Instant) : Action Nat := .arrive ⟨1, [], now, .login key⟩

/-- The request at a place goes on. -/
def goOn (i : Nat) : Action Nat := .advance i AdminSession.sampleLogin (.inOrder _)

/-- Four guesses one after the other, two at once, and one that finds the lock. -/
def sevenGuesses : List (Action Nat) :=
  [guess "a" 0, goOn 0, goOn 0, guess "b" 1, goOn 0, goOn 0, guess "c" 2, goOn 0, goOn 0,
    guess "d" 3, goOn 0, goOn 0, guess "e" 4, guess "f" 5, goOn 0, goOn 1, goOn 0, goOn 0,
    guess "secret" 6, goOn 0]

def sampleSecrets : Secrets := ⟨"secret", AdminSession.sampleSha256⟩

end Access

end HifiApi
