import HifiApi.Accounts.RateLimits
import HifiApi.Base.Checked
import HifiApi.Settings.State

/-!
# The ladder of pauses

{lit}`pause_account` in machine arithmetic, from the text of the header to the two
atomic cells of the account, and every sequence of its calls.  The parser of dates
is not part of the repository; it is a parameter.  A clock reading is never before
the epoch: {lit}`Utc::now` ends the program there.
-/

namespace HifiApi

/-- A text as {lit}`u64`: digits, after a plus sign at most. -/
def parseU64 (text : List Char) : Option U64 :=
  let digits := withoutPlus text
  if digits = [] ∨ ¬ digits.all Char.isDigit then none
  else U64.ofNat? (Nat.ofDigitChars 10 digits 0)

/-- The cells of an account that a pause is kept in. -/
structure PauseCells where
  rateLimitedUntil : I64
  rateLimitStrikes : U32

/-- A call of {lit}`pause_account`: its header, and what it reads of the clock. -/
structure PauseCall where
  retryAfter : Option String
  now : I64
  /-- The reading that a date is compared with. -/
  parsing : I64
  /-- The reading after the pause has been saved. -/
  saved : I64

section Machine

-- `DateTime::parse_from_rfc2822`, as a timestamp
variable (rfc2822 : List Char -> Option I64)

/-- The seconds of a header that can be read. -/
def readRetryAfter (now : I64) (value : Option String) : Option U64 :=
  value.bind fun raw =>
    let text := AccountState.trim raw.toList
    match parseU64 text with
    | some seconds => some seconds
    | none =>
        (rfc2822 text).map fun date => U64.ofColumn (date.saturatingSub now)

namespace PauseCells

def retryAfterSecs (now : I64) (value : Option String) : U64 :=
  ((readRetryAfter rfc2822 now value).getD ⟨30, by omega⟩).max .one

def rateLimitPauseSecs (now : I64) (value : Option String) (strike : U32) :
    Option U64 := do
  let base := retryAfterSecs rfc2822 now value
  let factor ← U64.shiftLeft? .one (min (strike.val - 1) 16)
  let doubled := base.saturatingMul factor
  return doubled.min (U64.max ⟨15 * 60, by omega⟩ base)

def rateLimitRemaining (now : I64) (c : PauseCells) : Option U64 :=
  let remaining := c.rateLimitedUntil.saturatingSub now
  if 0 < remaining.val then some (U64.ofColumn remaining) else none

def rateLimitHeat (now : I64) (c : PauseCells) : Option U32 :=
  if c.rateLimitedUntil.val ≤ 0 then some .zero
  else do
    let since ← now.sub? c.rateLimitedUntil
    return if 30 * 60 < since.val then .zero else c.rateLimitStrikes

/-- The strike of a 429, and the cells with it. -/
def strike (now : I64) (c : PauseCells) : Option (U32 × PauseCells) :=
  if now.val < c.rateLimitedUntil.val then some (c.rateLimitStrikes.max .one, c)
  else do
    let recent ←
      if 0 < c.rateLimitedUntil.val then
        (now.sub? c.rateLimitedUntil).map fun since => decide (since.val ≤ 30 * 60)
      else some false
    if recent then
      let strike ← c.rateLimitStrikes.add? 1
      return (strike,
        { c with rateLimitStrikes := c.rateLimitStrikes.wrappingAdd 1 })
    else return (.one, { c with rateLimitStrikes := .one })

/-- {lit}`fetch_max` on the deadline -/
def extend (deadline : I64) (c : PauseCells) : PauseCells :=
  { c with rateLimitedUntil := max c.rateLimitedUntil deadline }

/-- The pause that a call computes. -/
structure Computed where
  seconds : U64
  deadline : I64
  /-- What the caller gets. -/
  remaining : U64

def pauseAccount (call : PauseCall) (c : PauseCells) :
    Option (Computed × PauseCells) := do
  let (strike, noted) ← c.strike call.now
  let seconds ← rateLimitPauseSecs rfc2822 call.parsing call.retryAfter strike
  let deadline := call.now.saturatingAdd seconds.toI64OrMax
  let paused := noted.extend deadline
  return (⟨seconds, deadline, (paused.rateLimitRemaining call.saved).getD seconds⟩,
    paused)

end PauseCells

/-- An account, the last reading of the clock, and its pauses, the newest first. -/
structure PauseLadder where
  clock : I64
  cells : PauseCells
  pauses : List PauseCells.Computed

namespace PauseLadder

/-- An account without pauses, at any time. -/
def start : PauseLadder := ⟨0, ⟨0, .zero⟩, []⟩

/-- The clock does not go back, neither between two calls nor within one. -/
def Follows (s : PauseLadder) (call : PauseCall) : Prop :=
  s.clock ≤ call.now ∧ call.now ≤ call.parsing ∧ call.parsing ≤ call.saved

instance (s : PauseLadder) (call : PauseCall) : Decidable (s.Follows call) :=
  inferInstanceAs (Decidable (_ ∧ _ ∧ _))

/-- A call; there is none when the clock goes back, and none after an overflow. -/
def step (s : PauseLadder) (call : PauseCall) : Option PauseLadder :=
  if s.Follows call then
    (s.cells.pauseAccount rfc2822 call).map fun (computed, cells) =>
      ⟨call.saved, cells, computed :: s.pauses⟩
  else
    none

def system : System PauseLadder PauseCall := ⟨step rfc2822⟩

/-!
## What is claimed
-/

/-- Some pause has not ended. -/
def Running (s : PauseLadder) (now : I64) : Prop :=
  exists p, p ∈ s.pauses ∧ now.val < p.deadline.val

/-- All pauses have ended, and one of them at most half an hour ago. -/
def RecentlyEnded (s : PauseLadder) (now : I64) : Prop :=
  ¬ s.Running now ∧
    exists p, p ∈ s.pauses ∧ now.val - p.deadline.val ≤ 30 * 60

/-- The seconds that a pause starts from. -/
def base (call : PauseCall) : Nat :=
  max 1 (((readRetryAfter rfc2822 call.parsing call.retryAfter).map U64.val).getD 30)

/-- What a call does. -/
structure Rung (s : PauseLadder) (call : PauseCall) (pause : PauseCells.Computed)
    (s' : PauseLadder) : Prop where
  noted : s'.pauses = pause :: s.pauses
  grows : s.cells.rateLimitedUntil ≤ s'.cells.rateLimitedUntil
  running : s.Running call.now ->
    s'.cells.rateLimitStrikes = s.cells.rateLimitStrikes
  soon : s.RecentlyEnded call.now ->
    s'.cells.rateLimitStrikes.val = s.cells.rateLimitStrikes.val + 1
  later : ¬ s.Running call.now -> ¬ s.RecentlyEnded call.now ->
    s'.cells.rateLimitStrikes.val = 1
  least : base rfc2822 call ≤ pause.seconds.val
  most : pause.seconds.val ≤ max 900 (base rfc2822 call)
  doubled : pause.seconds.val =
    min (base rfc2822 call * 2 ^ (s'.cells.rateLimitStrikes.val - 1))
      (max 900 (base rfc2822 call))
  deadline : pause.deadline.val =
    min (call.now.val + pause.seconds.val) 9223372036854775807
  until_ : s'.cells.rateLimitedUntil =
    max s.cells.rateLimitedUntil pause.deadline

end PauseLadder

/-!
## The steps of a call
-/

section Calls

variable {rfc2822} {now : I64} {value : Option String} {c : PauseCells}

theorem PauseCells.retryAfterSecs_val :
    (retryAfterSecs rfc2822 now value).val =
      max 1 (((readRetryAfter rfc2822 now value).map U64.val).getD 30) := by
  rw [retryAfterSecs, U64.max_val, Nat.max_comm]
  cases readRetryAfter rfc2822 now value with
  | none => rfl
  | some seconds => rfl

/-- The bound of the shift does not show below the cap. -/
theorem min_shifted {b k : Nat} (hb : 1 ≤ b) :
    min (b * 2 ^ min k 16) (max 900 b) = min (b * 2 ^ k) (max 900 b) := by
  rcases Nat.lt_or_ge 16 k with hlarge | hsmall
  · have hpow : 2 ^ 16 ≤ 2 ^ k := Nat.pow_le_pow_right (by omega) hlarge.le
    have hdoubled : b * 2 ^ 16 ≤ b * 2 ^ k := Nat.mul_le_mul_left b hpow
    have hreached : max 900 b ≤ b * 2 ^ 16 := by omega
    rw [Nat.min_eq_right hlarge.le, Nat.min_eq_right hreached,
      Nat.min_eq_right (hreached.trans hdoubled)]
  · rw [Nat.min_eq_left hsmall]

/-- The pause of a strike: its arithmetic stays in range. -/
theorem PauseCells.rateLimitPauseSecs_some (strike : U32) :
    exists seconds, rateLimitPauseSecs rfc2822 now value strike = some seconds ∧
      seconds.val = min
        ((retryAfterSecs rfc2822 now value).val * 2 ^ (strike.val - 1))
        (max 900 (retryAfterSecs rfc2822 now value).val) := by
  have hdistance : min (strike.val - 1) 16 < 64 := by omega
  rcases U64.shiftLeft?_one hdistance with ⟨factor, hshift, hfactor⟩
  have hbase : 1 ≤ (retryAfterSecs rfc2822 now value).val := by
    rw [retryAfterSecs_val]
    exact Nat.le_max_left _ _
  have hrange := (retryAfterSecs rfc2822 now value).upper
  exists ((retryAfterSecs rfc2822 now value).saturatingMul factor).min
    (U64.max ⟨15 * 60, by omega⟩ (retryAfterSecs rfc2822 now value))
  constructor
  · rw [rateLimitPauseSecs]
    dsimp only
    rw [hshift]
    rfl
  · rw [U64.min_val, U64.max_val]
    show min (min ((retryAfterSecs rfc2822 now value).val * factor.val) _) _ = _
    have hcap : max 900 (retryAfterSecs rfc2822 now value).val ≤
        18446744073709551615 := by omega
    rw [hfactor, Nat.min_assoc, Nat.min_eq_right hcap]
    exact min_shifted hbase

theorem PauseCells.strike_running (h : now.val < c.rateLimitedUntil.val) :
    c.strike now = some (c.rateLimitStrikes.max .one, c) :=
  if_pos h

theorem PauseCells.strike_soon (hended : c.rateLimitedUntil.val ≤ now.val)
    (hpast : 0 < c.rateLimitedUntil.val)
    (hrecent : now.val - c.rateLimitedUntil.val ≤ 30 * 60)
    (hstrikes : c.rateLimitStrikes.val < 4294967295) :
    c.strike now = some (c.rateLimitStrikes.wrappingAdd 1,
      { c with rateLimitStrikes := c.rateLimitStrikes.wrappingAdd 1 }) := by
  rcases I64.sub?_of_le hended hpast with ⟨since, hsub, hsince⟩
  rw [strike, if_neg (not_lt.mpr hended), if_pos hpast, hsub, Option.map_some,
    hsince, decide_eq_true hrecent]
  dsimp only [Option.bind_eq_bind, Option.bind_some]
  rw [if_pos rfl, U32.add?_of_lt (by omega)]
  rfl

/-- There is no strike after the last one of {lit}`u32`. -/
theorem PauseCells.strike_overflow (hended : c.rateLimitedUntil.val ≤ now.val)
    (hpast : 0 < c.rateLimitedUntil.val)
    (hrecent : now.val - c.rateLimitedUntil.val ≤ 30 * 60)
    (hstrikes : 4294967295 ≤ c.rateLimitStrikes.val) : c.strike now = none := by
  rcases I64.sub?_of_le hended hpast with ⟨since, hsub, hsince⟩
  rw [strike, if_neg (not_lt.mpr hended), if_pos hpast, hsub, Option.map_some,
    hsince, decide_eq_true hrecent]
  dsimp only [Option.bind_eq_bind, Option.bind_some]
  rw [if_pos rfl, U32.add?_of_ge (by omega)]
  rfl

theorem PauseCells.strike_later (hended : c.rateLimitedUntil.val ≤ now.val)
    (hlong : 0 < c.rateLimitedUntil.val ->
      30 * 60 < now.val - c.rateLimitedUntil.val) :
    c.strike now = some (.one, { c with rateLimitStrikes := .one }) := by
  rw [strike, if_neg (not_lt.mpr hended)]
  by_cases hpast : 0 < c.rateLimitedUntil.val
  · rcases I64.sub?_of_le hended hpast with ⟨since, hsub, hsince⟩
    rw [if_pos hpast, hsub, Option.map_some, hsince,
      decide_eq_false (not_le.mpr (hlong hpast))]
    rfl
  · rw [if_neg hpast]
    rfl

/-- A call after its strike is known. -/
theorem PauseCells.pauseAccount_of_strike {call : PauseCall} {noted : PauseCells}
    {strike : U32} (hstrike : c.strike call.now = some (strike, noted))
    (hnow : 0 ≤ call.now.val) :
    exists p, c.pauseAccount rfc2822 call = some (p, noted.extend p.deadline) ∧
      p.seconds.val = min
        (PauseLadder.base rfc2822 call * 2 ^ (strike.val - 1))
        (max 900 (PauseLadder.base rfc2822 call)) ∧
      p.deadline.val =
        min (call.now.val + p.seconds.val) 9223372036854775807 := by
  rcases @rateLimitPauseSecs_some rfc2822 call.parsing call.retryAfter
    strike with ⟨seconds, hseconds, hval⟩
  have hdeadline := U64.saturatingAdd_toI64OrMax hnow seconds
  exists ⟨seconds, call.now.saturatingAdd seconds.toI64OrMax,
    ((noted.extend (call.now.saturatingAdd seconds.toI64OrMax)).rateLimitRemaining
      call.saved).getD seconds⟩
  constructor
  · rw [pauseAccount, hstrike]
    dsimp only [Option.bind_eq_bind, Option.bind_some]
    rw [hseconds]
    rfl
  · rw [retryAfterSecs_val] at hval
    exact ⟨hval, hdeadline⟩

/-- No cell holds a strike or a deadline with which a call overflows, except the
last strike. -/
theorem PauseCells.pauseAccount_isSome (call : PauseCall)
    (hstrikes : c.rateLimitStrikes.val < 4294967295) :
    (c.pauseAccount rfc2822 call).isSome := by
  have hstrike : exists strike noted, c.strike call.now = some (strike, noted) := by
    by_cases hduring : call.now.val < c.rateLimitedUntil.val
    · exact ⟨_, _, strike_running hduring⟩
    · have hended := not_lt.mp hduring
      by_cases hsoon : 0 < c.rateLimitedUntil.val ∧
          call.now.val - c.rateLimitedUntil.val ≤ 30 * 60
      · exact ⟨_, _, strike_soon hended hsoon.left hsoon.right hstrikes⟩
      · exact ⟨_, _, strike_later hended fun hpast =>
          not_le.mp fun hshort => hsoon ⟨hpast, hshort⟩⟩
  rcases hstrike with ⟨strike, noted, hstrike⟩
  rcases @rateLimitPauseSecs_some rfc2822 call.parsing call.retryAfter
    strike with ⟨seconds, hseconds, _⟩
  rw [pauseAccount, hstrike]
  dsimp only [Option.bind_eq_bind, Option.bind_some]
  rw [hseconds]
  rfl

/-!
## The same call on the record
-/

theorem U64.toI64OrMax_val (a : U64) : a.toI64OrMax.val = countColumn a.val := by
  unfold toI64OrMax countColumn
  split <;> rfl

/-- The seconds of a header as the record's model takes them. -/
def PauseCall.seconds (rfc2822 : List Char -> Option I64) (call : PauseCall) :
    Option Nat :=
  (readRetryAfter rfc2822 call.parsing call.retryAfter).map U64.val

theorem PauseCells.rateLimitPauseSecs_plain {call : PauseCall} {strike : U32}
    {seconds : U64} (h : rateLimitPauseSecs rfc2822 call.parsing call.retryAfter
      strike = some seconds) :
    seconds.val = AccountManager.rateLimitPauseSecs (call.seconds rfc2822)
      strike.val := by
  rcases @rateLimitPauseSecs_some rfc2822 call.parsing call.retryAfter
    strike with ⟨found, hfound, hval⟩
  rw [h] at hfound
  cases hfound
  have hbase : (retryAfterSecs rfc2822 call.parsing call.retryAfter).val =
      AccountManager.retryAfterSecs (call.seconds rfc2822) := by
    rw [retryAfterSecs_val, AccountManager.retryAfterSecs, Nat.max_comm]
    rfl
  have hpos : 1 ≤ AccountManager.retryAfterSecs (call.seconds rfc2822) :=
    Nat.le_max_right _ _
  rw [hval, hbase]
  exact (min_shifted hpos).symm

/-- A call does to the cells what {lit}`pause_account` does to the record that
keeps them. -/
theorem PauseCells.pauseAccount_plain {call : PauseCall} {c' : PauseCells}
    {p : Computed} {a : AccountState}
    (huntil : a.rateLimitedUntil = c.rateLimitedUntil.val)
    (hstrikes : a.rateLimitStrikes = c.rateLimitStrikes.val)
    (hcall : c.pauseAccount rfc2822 call = some (p, c')) :
    (AccountManager.pauseAccount call.now (call.seconds rfc2822) a).1.rateLimitedUntil =
        c'.rateLimitedUntil.val ∧
      (AccountManager.pauseAccount call.now (call.seconds rfc2822) a).1.rateLimitStrikes =
        c'.rateLimitStrikes.val := by
  have hdone : forall {strike : U32} {noted : PauseCells},
      c.strike call.now = some (strike, noted) ->
      noted.rateLimitedUntil = c.rateLimitedUntil ->
      c'.rateLimitStrikes = noted.rateLimitStrikes ∧
      c'.rateLimitedUntil.val = max c.rateLimitedUntil.val
        (I64.saturate (call.now.val + countColumn (AccountManager.rateLimitPauseSecs
          (call.seconds rfc2822) strike.val))) := by
    intro strike noted hstrike hsame
    rcases @rateLimitPauseSecs_some rfc2822 call.parsing call.retryAfter
      strike with ⟨seconds, hseconds, _⟩
    rw [pauseAccount, hstrike] at hcall
    dsimp only [Option.bind_eq_bind, Option.bind_some] at hcall
    rw [hseconds] at hcall
    cases hcall
    constructor
    · rfl
    · show (max noted.rateLimitedUntil _).val = _
      rw [I64.max_val, hsame, I64.saturatingAdd_val, U64.toI64OrMax_val,
        rateLimitPauseSecs_plain hseconds]
  rw [AccountManager.pauseAccount_until, AccountManager.pauseAccount_strikes,
    AccountManager.pauseEnd, huntil, hstrikes]
  by_cases hduring : call.now.val < c.rateLimitedUntil.val
  · have hlast := hdone (strike_running hduring) rfl
    rw [if_pos hduring, if_pos hduring, hlast.right, hlast.left, U32.max_val]
    exact ⟨rfl, rfl⟩
  · have hended := not_lt.mp hduring
    rw [if_neg hduring, if_neg hduring]
    by_cases hsoon : 0 < c.rateLimitedUntil.val ∧
        call.now.val - c.rateLimitedUntil.val ≤ 30 * 60
    · rw [if_pos hsoon]
      by_cases hroom : c.rateLimitStrikes.val < 4294967295
      · have hlast := hdone (strike_soon hended hsoon.left hsoon.right hroom) rfl
        have hadded : (c.rateLimitStrikes.wrappingAdd 1).val =
            c.rateLimitStrikes.val + 1 := U32.wrappingAdd_val (by omega)
        rw [hlast.right, hlast.left, hadded]
        exact ⟨rfl, rfl⟩
      · rw [pauseAccount, strike_overflow hended hsoon.left hsoon.right
          (not_lt.mp hroom)] at hcall
        cases hcall
    · have hlast := hdone (strike_later hended fun hpast =>
        not_le.mp fun hshort => hsoon ⟨hpast, hshort⟩) rfl
      rw [if_neg hsoon, hlast.right, hlast.left]
      exact ⟨rfl, rfl⟩

end Calls

namespace PauseLadder

variable {rfc2822} {s s' : PauseLadder} {call : PauseCall}

/-- The cell of the deadline holds the latest end, and there is a strike as soon as
there is a pause. -/
structure Matches (s : PauseLadder) : Prop where
  clock : 0 ≤ s.clock.val
  fresh : s.pauses = [] -> s.cells.rateLimitedUntil.val = 0
  covers : forall p, p ∈ s.pauses -> p.deadline ≤ s.cells.rateLimitedUntil
  latest : s.pauses ≠ [] -> exists p, p ∈ s.pauses ∧
    p.deadline = s.cells.rateLimitedUntil
  past : s.pauses ≠ [] -> 0 < s.cells.rateLimitedUntil.val
  struck : s.pauses ≠ [] -> 1 ≤ s.cells.rateLimitStrikes.val

theorem matches_start : start.Matches where
  clock := le_refl _
  fresh := fun _ => rfl
  covers := fun _ h => nomatch h
  latest := fun h => absurd rfl h
  past := fun h => absurd rfl h
  struck := fun h => absurd rfl h

theorem Matches.running_iff (h : s.Matches) {now : I64} (hnow : 0 ≤ now.val) :
    s.Running now <-> now.val < s.cells.rateLimitedUntil.val := by
  constructor
  · intro hrunning
    rcases hrunning with ⟨p, hp, hlt⟩
    exact hlt.trans_le (h.covers p hp)
  · intro hlt
    have hsome : s.pauses ≠ [] := by
      intro hnone
      have hzero := h.fresh hnone
      omega
    rcases h.latest hsome with ⟨p, hp, hdeadline⟩
    rw [← hdeadline] at hlt
    exact ⟨p, hp, hlt⟩

theorem Matches.recentlyEnded_iff (h : s.Matches) {now : I64} (hnow : 0 ≤ now.val) :
    s.RecentlyEnded now <-> s.cells.rateLimitedUntil.val ≤ now.val ∧
      0 < s.cells.rateLimitedUntil.val ∧
      now.val - s.cells.rateLimitedUntil.val ≤ 30 * 60 := by
  rw [RecentlyEnded, h.running_iff hnow, not_lt]
  constructor
  · intro hended
    rcases hended.right with ⟨p, hp, hrecent⟩
    have hle : p.deadline.val ≤ s.cells.rateLimitedUntil.val := h.covers p hp
    refine ⟨hended.left, h.past (List.ne_nil_of_mem hp), ?_⟩
    omega
  · intro hrecent
    have hsome : s.pauses ≠ [] := by
      intro hnone
      have hzero := h.fresh hnone
      omega
    rcases h.latest hsome with ⟨p, hp, hdeadline⟩
    rw [← hdeadline] at hrecent
    exact ⟨by rw [← hdeadline]; exact hrecent.left, p, hp, hrecent.right.right⟩

/-- The ladder after a call, apart from its strike. -/
def note (s : PauseLadder) (call : PauseCall) (noted : PauseCells)
    (p : PauseCells.Computed) : PauseLadder :=
  ⟨call.saved, noted.extend p.deadline, p :: s.pauses⟩

/-- A later deadline is the one that is kept. -/
theorem Matches.note (h : s.Matches) (hfollows : s.Follows call)
    {noted : PauseCells} {p : PauseCells.Computed}
    (huntil : noted.rateLimitedUntil = s.cells.rateLimitedUntil)
    (hstruck : 1 ≤ noted.rateLimitStrikes.val) (hpositive : 0 < p.deadline.val) :
    (s.note call noted p).Matches := by
  have hclock := h.clock
  have hnow : s.clock.val ≤ call.now.val := hfollows.left
  have hparsing : call.now.val ≤ call.parsing.val := hfollows.right.left
  have hsaved : call.parsing.val ≤ call.saved.val := hfollows.right.right
  have hkept : (s.note call noted p).cells.rateLimitedUntil =
      max s.cells.rateLimitedUntil p.deadline := by
    rw [← huntil]
    rfl
  constructor
  · show 0 ≤ call.saved.val
    omega
  · intro hnone
    cases hnone
  · intro q hq
    rw [hkept]
    rcases List.mem_cons.mp hq with hnew | hold
    · rw [hnew]
      exact le_max_right _ _
    · exact (h.covers q hold).trans (le_max_left _ _)
  · intro _
    rw [hkept]
    rcases le_total s.cells.rateLimitedUntil p.deadline with hle | hle
    · exact ⟨p, List.mem_cons_self, (max_eq_right hle).symm⟩
    · rw [max_eq_left hle]
      have hval : p.deadline.val ≤ s.cells.rateLimitedUntil.val := hle
      have hsome : s.pauses ≠ [] := by
        intro hnone
        have hzero := h.fresh hnone
        omega
      rcases h.latest hsome with ⟨q, hq, hlatest⟩
      exact ⟨q, List.mem_cons_of_mem p hq, hlatest⟩
  · intro _
    rw [hkept]
    exact hpositive.trans_le (le_max_right s.cells.rateLimitedUntil p.deadline)
  · intro _
    exact hstruck

/-- What every case of a call has in common. -/
theorem Matches.rung {noted : PauseCells} {strike : U32}
    (h : s.Matches) (hfollows : s.Follows call)
    (hstrike : s.cells.strike call.now = some (strike, noted))
    (huntil : noted.rateLimitedUntil = s.cells.rateLimitedUntil)
    (hcounted : strike = noted.rateLimitStrikes) (hpos : 1 ≤ strike.val)
    (hrunning : s.Running call.now ->
      noted.rateLimitStrikes = s.cells.rateLimitStrikes)
    (hsoon : s.RecentlyEnded call.now ->
      noted.rateLimitStrikes.val = s.cells.rateLimitStrikes.val + 1)
    (hlater : ¬ s.Running call.now -> ¬ s.RecentlyEnded call.now ->
      noted.rateLimitStrikes.val = 1) :
    exists p s', s.step rfc2822 call = some s' ∧ s.Rung rfc2822 call p s' ∧
      s'.Matches := by
  have hnow : 0 ≤ call.now.val := h.clock.trans hfollows.left
  rcases @PauseCells.pauseAccount_of_strike rfc2822 _ _ _ _ hstrike hnow
    with ⟨p, hcall, hseconds, hdeadline⟩
  have hbase : 1 ≤ base rfc2822 call := Nat.le_max_left _ _
  have hdoubled : base rfc2822 call ≤ base rfc2822 call * 2 ^ (strike.val - 1) :=
    Nat.le_mul_of_pos_right _ Nat.one_le_two_pow
  have hleast : base rfc2822 call ≤ p.seconds.val := by
    rw [hseconds]
    exact le_min hdoubled (le_max_right _ _)
  have hkept : (s.note call noted p).cells.rateLimitedUntil =
      max s.cells.rateLimitedUntil p.deadline := by
    rw [← huntil]
    rfl
  exists p, s.note call noted p
  constructor
  · rw [step, if_pos hfollows, hcall]
    rfl
  · constructor
    · constructor
      · rfl
      · rw [hkept]
        exact le_max_left _ _
      · exact hrunning
      · exact hsoon
      · exact hlater
      · exact hleast
      · rw [hseconds]
        exact min_le_right _ _
      · rw [hseconds, hcounted]
        rfl
      · exact hdeadline
      · exact hkept
    · apply h.note hfollows huntil
      · rw [← hcounted]
        exact hpos
      · omega

/-- Every call is done that finds room for its strike, one of the three cases each. -/
theorem Matches.step_some (h : s.Matches) (hfollows : s.Follows call)
    (hstrikes : s.RecentlyEnded call.now ->
      s.cells.rateLimitStrikes.val < 4294967295) :
    exists p s', s.step rfc2822 call = some s' ∧ s.Rung rfc2822 call p s' ∧
      s'.Matches := by
  have hclock := h.clock
  have hle : s.clock.val ≤ call.now.val := hfollows.left
  have hnow : 0 ≤ call.now.val := hclock.trans hle
  have hrunning := h.running_iff hnow
  have hrecent := h.recentlyEnded_iff hnow
  by_cases hduring : call.now.val < s.cells.rateLimitedUntil.val
  · have hstruck : 1 ≤ s.cells.rateLimitStrikes.val := by
      apply h.struck
      intro hnone
      have hzero := h.fresh hnone
      omega
    have hsame : s.cells.rateLimitStrikes.max .one = s.cells.rateLimitStrikes := by
      apply U32.ext_val
      rw [U32.max_val]
      exact Nat.max_eq_left hstruck
    apply h.rung hfollows (PauseCells.strike_running hduring) rfl hsame
    · rw [hsame]
      exact hstruck
    · exact fun _ => rfl
    · intro hended
      exact absurd (hrecent.mp hended).left (not_le.mpr hduring)
    · intro hnot _
      exact absurd (hrunning.mpr hduring) hnot
  · have hended : s.cells.rateLimitedUntil.val ≤ call.now.val := not_lt.mp hduring
    by_cases hsoon : 0 < s.cells.rateLimitedUntil.val ∧
        call.now.val - s.cells.rateLimitedUntil.val ≤ 30 * 60
    · have hroom := hstrikes (hrecent.mpr ⟨hended, hsoon⟩)
      have hadded : (s.cells.rateLimitStrikes.wrappingAdd 1).val =
          s.cells.rateLimitStrikes.val + 1 := U32.wrappingAdd_val (by omega)
      apply h.rung hfollows
        (PauseCells.strike_soon hended hsoon.left hsoon.right hroom) rfl rfl
      · omega
      · intro hagain
        exact absurd (hrunning.mp hagain) hduring
      · exact fun _ => hadded
      · intro _ hnot
        exact absurd (hrecent.mpr ⟨hended, hsoon⟩) hnot
    · have hlong : 0 < s.cells.rateLimitedUntil.val ->
          30 * 60 < call.now.val - s.cells.rateLimitedUntil.val := by
        intro hpast
        by_contra hshort
        exact hsoon ⟨hpast, not_lt.mp hshort⟩
      apply h.rung hfollows (PauseCells.strike_later hended hlong) rfl rfl
      · exact le_refl 1
      · intro hagain
        exact absurd (hrunning.mp hagain) hduring
      · intro hnot
        exact absurd (hrecent.mp hnot).right hsoon
      · exact fun _ _ => rfl

theorem Matches.step (h : s.Matches) (hstep : s.step rfc2822 call = some s') :
    s.Follows call ∧ s'.Matches ∧
      s.cells.rateLimitedUntil ≤ s'.cells.rateLimitedUntil := by
  by_cases hfollows : s.Follows call
  · have hclock : s.clock.val ≤ call.now.val := hfollows.left
    have hnow : 0 ≤ call.now.val := h.clock.trans hclock
    have hroom : s.RecentlyEnded call.now ->
        s.cells.rateLimitStrikes.val < 4294967295 := by
      intro hrecent
      rcases (h.recentlyEnded_iff hnow).mp hrecent with ⟨hended, hpast, hsoon⟩
      by_contra hfull
      rw [PauseLadder.step, if_pos hfollows, PauseCells.pauseAccount,
        PauseCells.strike_overflow hended hpast hsoon (not_lt.mp hfull)] at hstep
      cases hstep
    rcases @Matches.step_some rfc2822 _ _ h hfollows hroom with
      ⟨p, next, hnext, hrung, hmatches⟩
    rw [hstep] at hnext
    cases hnext
    exact ⟨hfollows, hmatches, hrung.grows⟩
  · rw [PauseLadder.step, if_neg hfollows] at hstep
    cases hstep

/-- A run keeps the invariant, and the deadline does not come earlier. -/
theorem Matches.run {calls : List PauseCall} (h : s.Matches)
    (hrun : (system rfc2822).run s calls = some s') :
    s'.Matches ∧ s.cells.rateLimitedUntil ≤ s'.cells.rateLimitedUntil := by
  induction calls generalizing s with
  | nil =>
      cases hrun
      exact ⟨h, le_refl _⟩
  | cons call rest ih =>
      rcases System.run_cons_some.mp hrun with ⟨mid, hstep, hrest⟩
      have hmid := h.step hstep
      have hlater := ih hmid.right.left hrest
      exact ⟨hlater.left, hmid.right.right.trans hlater.right⟩

/-- The heat of an account is read without an overflow. -/
theorem Matches.heat (h : s.Matches) {now : I64} (hnow : s.clock ≤ now) :
    exists heat, s.cells.rateLimitHeat now = some heat := by
  have hval : s.clock.val ≤ now.val := hnow
  have hclock := h.clock
  unfold PauseCells.rateLimitHeat
  split
  · exact ⟨_, rfl⟩
  · rename_i hpast
    rcases I64.sub?_of_nonneg (a := now) (b := s.cells.rateLimitedUntil)
      (by omega) (by omega) with ⟨since, hsub, _⟩
    rw [hsub]
    exact ⟨_, rfl⟩

end PauseLadder

end Machine

/-- Of an account without pauses every sequence of 429s climbs the ladder, and none
of its arithmetic leaves its range. -/
theorem pauseAccount_climbs (rfc2822 : List Char -> Option I64)
    (calls : List PauseCall) (s : PauseLadder)
    (hrun : (PauseLadder.system rfc2822).run .start calls = some s) :
    (forall more s', (PauseLadder.system rfc2822).run s more = some s' ->
      s.cells.rateLimitedUntil ≤ s'.cells.rateLimitedUntil) ∧
    (forall call, s.Follows call -> s.cells.rateLimitStrikes.val < 4294967295 ->
      exists p s', s.step rfc2822 call = some s' ∧ s.Rung rfc2822 call p s') ∧
    (forall now, s.clock ≤ now ->
      exists heat, s.cells.rateLimitHeat now = some heat) ∧
    (forall (cells : PauseCells) call, cells.rateLimitStrikes.val < 4294967295 ->
      (cells.pauseAccount rfc2822 call).isSome) := by
  have hmatches := (PauseLadder.matches_start.run hrun).left
  constructor
  · intro more s' hmore
    exact (hmatches.run hmore).right
  · constructor
    · intro call hfollows hstrikes
      rcases hmatches.step_some hfollows fun _ => hstrikes with
        ⟨p, s', hstep, hrung, _⟩
      exact ⟨p, s', hstep, hrung⟩
    · constructor
      · intro now hnow
        exact hmatches.heat hnow
      · intro cells call hstrikes
        exact PauseCells.pauseAccount_isSome call hstrikes

/-- Two 429s of one burst, the second one with a longer pause. -/
def burst : List PauseCall :=
  [⟨none, .ofNat 100, .ofNat 100, .ofNat 100⟩,
    ⟨some " +45 ", .ofNat 110, .ofNat 110, .ofNat 111⟩]

/-- The end of the first pause is moved, and its strike is the only one. -/
def afterBurst : PauseLadder where
  clock := .ofNat 111
  cells := ⟨.ofNat 155, .one⟩
  pauses :=
    [⟨.ofNat 45, .ofNat 155, .ofNat 44⟩,
      ⟨.ofNat 30, .ofNat 130, .ofNat 30⟩]

theorem pauseAccount_climbs_burst :
    (forall more s', (PauseLadder.system fun _ => none).run afterBurst more = some s' ->
      afterBurst.cells.rateLimitedUntil ≤ s'.cells.rateLimitedUntil) ∧
    (forall call, afterBurst.Follows call ->
      afterBurst.cells.rateLimitStrikes.val < 4294967295 ->
      exists p s', afterBurst.step (fun _ => none) call = some s' ∧
        afterBurst.Rung (fun _ => none) call p s') ∧
    (forall now, afterBurst.clock ≤ now ->
      exists heat, afterBurst.cells.rateLimitHeat now = some heat) ∧
    (forall (cells : PauseCells) call, cells.rateLimitStrikes.val < 4294967295 ->
      (cells.pauseAccount (fun _ => none) call).isSome) :=
  pauseAccount_climbs (fun _ => none) burst afterBurst rfl

end HifiApi
