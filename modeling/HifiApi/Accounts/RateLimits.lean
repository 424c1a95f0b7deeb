import HifiApi.Accounts.Leases

/-!
# Pauses after 429s

Every strike doubles the next pause.  The deadline of a pause is in SQLite, the
strikes are in memory only: a restart forgets them, and the account is no longer
ranked after the others, nor does its next pause grow.  A 429 is counted on the
record its request holds, which need not be the one in the roster.
-/

namespace HifiApi

open AccountManager

/-- A pause, from the 429 that it starts with to its deadline. -/
structure RatePause where
  starts : Int
  ends : Int

namespace RatePause

/-- The pauses in a row, the newest first: each of them starts at most half an
hour after the end of the one before. -/
def chainLength : List RatePause -> Nat
  | [] => 0
  | [_] => 1
  | p :: q :: rest =>
      if p.starts - q.ends ≤ 30 * 60 then chainLength (q :: rest) + 1 else 1

/-- The pauses after a 429: one that comes during a pause belongs to it. -/
def note (now deadline : Int) : List RatePause -> List RatePause
  | [] => [⟨now, deadline⟩]
  | p :: rest =>
      if now < p.ends then { p with ends := max p.ends deadline } :: rest
      else ⟨now, deadline⟩ :: p :: rest

theorem chainLength_pos (p : RatePause) (rest : List RatePause) :
    0 < chainLength (p :: rest) := by
  cases rest with
  | nil =>
      exact Nat.one_pos
  | cons q rest =>
      rw [chainLength]
      split
      · exact Nat.succ_pos _
      · exact Nat.one_pos

theorem note_ne_nil (now deadline : Int) (pauses : List RatePause) :
    note now deadline pauses ≠ [] := by
  cases pauses with
  | nil =>
      exact List.cons_ne_nil _ _
  | cons p rest =>
      rw [note]
      split <;> exact List.cons_ne_nil _ _

/-- The length of a row does not depend on its last end. -/
theorem chainLength_note (now deadline : Int) (p : RatePause)
    (rest : List RatePause) :
    chainLength (note now deadline (p :: rest)) =
      if now < p.ends then chainLength (p :: rest)
      else if now - p.ends ≤ 30 * 60 then chainLength (p :: rest) + 1
      else 1 := by
  rw [note]
  split
  · cases rest <;> rfl
  · rfl

theorem ends_note_nil {now deadline : Int} {p : RatePause}
    {rest : List RatePause} (h : note now deadline [] = p :: rest) :
    p.ends = deadline := by
  cases h
  rfl

/-- The later of two deadlines, when the new one has not passed. -/
theorem ends_note_cons {now deadline : Int} {p p' : RatePause}
    {rest rest' : List RatePause} (hnow : now ≤ deadline)
    (h : note now deadline (p' :: rest') = p :: rest) :
    p.ends = max p'.ends deadline := by
  rw [note] at h
  split at h
  · cases h
    rfl
  · rename_i hafter
    cases h
    exact (max_eq_right ((not_lt.mp hafter).trans hnow)).symm

end RatePause

namespace AccountManager

/-- The deadline that {lit}`pause_account` computes. -/
def pauseEnd (now : I64) (value : Option Nat) (a : AccountState) : Int :=
  let strike :=
    if now.val < a.rateLimitedUntil then max a.rateLimitStrikes 1
    else if 0 < a.rateLimitedUntil ∧
        now.val - a.rateLimitedUntil ≤ 30 * 60 then
      a.rateLimitStrikes + 1
    else 1
  I64.saturate (now.val + countColumn (rateLimitPauseSecs value strike))

theorem pauseAccount_until (now : I64) (value : Option Nat)
    (a : AccountState) :
    (pauseAccount now value a).1.rateLimitedUntil =
      max a.rateLimitedUntil (pauseEnd now value a) := rfl

theorem pauseAccount_strikes (now : I64) (value : Option Nat)
    (a : AccountState) :
    (pauseAccount now value a).1.rateLimitStrikes =
      if now.val < a.rateLimitedUntil then a.rateLimitStrikes
      else if 0 < a.rateLimitedUntil ∧
          now.val - a.rateLimitedUntil ≤ 30 * 60 then
        a.rateLimitStrikes + 1
      else 1 := rfl

end AccountManager

/-- The deadline that {lit}`pause_account` saves. -/
def AccountRow.savePause (deadline : Int) (row : AccountRow) : AccountRow :=
  { row with rateLimitedUntil := max row.rateLimitedUntil deadline }

def Replacement.save (old rebuilt : AccountState) (now : I64)
    (row : AccountRow) : Replacement -> AccountRow
  | update _ _ _ _ _ => row.saveUpdated old rebuilt now
  | adopt _ => row.saveAdopted rebuilt

/-- One account in memory and in SQLite, the clock, and its pauses. -/
structure PausedAccount where
  now : I64
  record : AccountState
  /-- Records of the account before edits, which requests in flight hold. -/
  replaced : List AccountState
  row : AccountRow
  pauses : List RatePause

inductive PauseAction where
  | pause (retryAfter : Option Nat)
  /-- A 429 on a request that holds a replaced record. -/
  | pauseReplaced (i : Nat) (retryAfter : Option Nat)
  | elapse (now : I64)
  /-- A label edit, or any other replacement of the record. -/
  | edit (how : Replacement)
  /-- The process stops and {lit}`load_from_db` reads the row. -/
  | restart

namespace PausedAccount

/-- A new account. -/
def start (d : NewAccount) (now : I64) : PausedAccount where
  now := now
  record := d.record now
  replaced := []
  row := .ofAccount (d.record now)
  pauses := []

/-- What a 429 that is counted on a record saves, and the pause it makes. -/
def notePause (s : PausedAccount) (retryAfter : Option Nat)
    (a : AccountState) : PausedAccount :=
  { s with
    row := s.row.savePause (pauseEnd s.now retryAfter a)
    pauses := RatePause.note s.now.val (pauseEnd s.now retryAfter a) s.pauses }

def step (s : PausedAccount) : PauseAction -> Option PausedAccount
  | .pause retryAfter =>
      some
        { s.notePause retryAfter s.record with
          record := (pauseAccount s.now retryAfter s.record).1 }
  | .pauseReplaced i retryAfter =>
      s.replaced[i]?.map fun a =>
        { s.notePause retryAfter a with
          replaced := s.replaced.set i (pauseAccount s.now retryAfter a).1 }
  | .elapse now => if s.now ≤ now then some { s with now := now } else none
  | .edit how =>
      match how.build s.now s.record with
      | none => some s
      | some a =>
          some
            { s with
              record := a
              replaced := s.replaced ++ [s.record]
              row := how.save s.record a s.now s.row }
  | .restart =>
      some
        { s with
          record := s.row.load
          replaced := []
          row := s.row.repair }

/-- One account as a step system. -/
def system : System PausedAccount PauseAction := ⟨step⟩

/-!
## What is claimed
-/

/-- A pause has ended at most half an hour ago. -/
def RecentlyPaused (s : PausedAccount) : Prop :=
  exists p rest, s.pauses = p :: rest ∧ p.ends ≤ s.now.val ∧
    s.now.val - p.ends ≤ 30 * 60

/-- The account comes after equal accounts without recent 429s, and its next
pause has doubled with every pause in the row. -/
structure Escalates (s : PausedAccount) : Prop where
  heat : 1 ≤ rateLimitHeat s.now s.record
  leases : forall (q : LeaseRequest) cells roster rrSeq p p',
    q.now = s.now -> cells p = s.record -> p' ∈ roster ->
    q.usable (cells p') = true -> q.admits (cells p') = true ->
    q.tier (cells p') = q.tier (cells p) ->
    (cells p').poolInflight = (cells p).poolInflight ->
    rateLimitHeat s.now (cells p') = 0 ->
    tryLease q cells roster rrSeq ≠ .ok (some p)
  slots : forall limit (cells : Nat -> AccountState) roster catalogRr p p',
    cells p = s.record -> p' ∈ roster ->
    servesCatalog s.now (cells p') = true ->
    (cells p').hasCatalogSlot limit = true ->
    rateLimitHeat s.now (cells p') = 0 ->
    claimCatalogSlot limit s.now cells roster catalogRr ≠ .slot p
  next : (pauseAccount s.now none s.record).1.rateLimitedUntil =
    I64.saturate
      (s.now.val + (min 900 (30 * 2 ^ RatePause.chainLength s.pauses) : Nat))

/-- No restart comes between a 429 and the end of the half hour after its pause,
and no 429 is counted on a replaced record. -/
def CountsPauses (s : PausedAccount) : PauseAction -> Prop
  | .restart => forall p, p ∈ s.pauses.head? -> 30 * 60 < s.now.val - p.ends
  | .pauseReplaced _ _ => False
  | _ => True

instance (s : PausedAccount) : (a : PauseAction) -> Decidable (CountsPauses s a)
  | .pause _ | .elapse _ | .edit _ => isTrue trivial
  | .pauseReplaced _ _ => isFalse id
  | .restart =>
      inferInstanceAs (Decidable (forall p, p ∈ s.pauses.head? ->
        30 * 60 < s.now.val - p.ends))

end PausedAccount

/-- Repeated 429s keep escalating across restarts. -/
def KeepsEscalating : Prop :=
  forall d now actions s', 0 ≤ now.val ->
    PausedAccount.system.run (.start d now) actions = some s' ->
    s'.RecentlyPaused -> s'.Escalates

/-!
## Deadlines
-/

namespace AccountManager

theorem rateLimitPauseSecs_pos (value : Option Nat) (strike : Nat) :
    1 ≤ rateLimitPauseSecs value strike := by
  have hbase : 1 ≤ retryAfterSecs value := le_max_right _ _
  have hpow : 1 ≤ 2 ^ min (strike - 1) 16 := Nat.one_le_two_pow
  apply le_min
  · exact Nat.mul_le_mul hbase hpow
  · exact hbase.trans (le_max_right _ _)

/-- Without a {lit}`Retry-After` a pause doubles up to a quarter of an hour. -/
theorem rateLimitPauseSecs_none (k : Nat) :
    rateLimitPauseSecs none (k + 1) = min 900 (30 * 2 ^ k) := by
  show min (30 * 2 ^ min k 16) 900 = min 900 (30 * 2 ^ k)
  rcases Nat.lt_or_ge 16 k with hlarge | hsmall
  · have hpow : 2 ^ 16 ≤ 2 ^ k :=
      Nat.pow_le_pow_right (Nat.succ_pos 1) hlarge.le
    rw [Nat.min_eq_right hlarge.le, Nat.min_eq_right, Nat.min_eq_left]
    · omega
    · decide
  · rw [Nat.min_eq_left hsmall, Nat.min_comm]

/-- A deadline is after the 429, up to the end of time. -/
theorem le_pauseEnd (now : I64) (value : Option Nat) (a : AccountState) :
    now.val ≤ pauseEnd now value a ∧
      (0 ≤ now.val -> 0 < pauseEnd now value a) := by
  rw [pauseEnd]
  exact le_saturate_countColumn now (rateLimitPauseSecs_pos _ _)

end AccountManager

theorem Replacement.build_rateLimits {now : I64} {a r : AccountState}
    {how : Replacement} (h : how.build now a = some r) :
    r.rateLimitedUntil = a.rateLimitedUntil ∧
      r.rateLimitStrikes = a.rateLimitStrikes := by
  cases how with
  | update label clientId clientSecret refreshToken userId =>
      cases h
      exact AccountState.carryOver_rateLimits _ _
  | adopt remote =>
      simp only [build, RemoteAccount.adopt] at h
      split at h
      · cases h
      · cases h
        exact AccountState.carryOver_rateLimits _ _

theorem Replacement.save_rateLimitedUntil (how : Replacement)
    (old rebuilt : AccountState) (now : I64) (row : AccountRow) :
    (how.save old rebuilt now row).rateLimitedUntil = row.rateLimitedUntil := by
  cases how <;> rfl

/-!
## Runs that count their pauses
-/

namespace PausedAccount

/-- The deadline is the end of the last pause, in memory and in SQLite, and the
strikes count the pauses in the row until they are forgiven. -/
structure Matches (s : PausedAccount) : Prop where
  clock : 0 ≤ s.now.val
  saved : s.row.rateLimitedUntil = s.record.rateLimitedUntil
  fresh : s.pauses = [] -> s.record.rateLimitedUntil = 0
  deadline : forall p rest, s.pauses = p :: rest ->
    s.record.rateLimitedUntil = p.ends ∧ 0 < p.ends
  strikes : forall p rest, s.pauses = p :: rest ->
    s.now.val - p.ends ≤ 30 * 60 ->
    s.record.rateLimitStrikes = RatePause.chainLength s.pauses

section Matches

variable {s s' : PausedAccount}

theorem matches_start (d : NewAccount) {now : I64} (hnow : 0 ≤ now.val) :
    (start d now).Matches where
  clock := hnow
  saved := rfl
  fresh := fun _ => rfl
  deadline := fun _ _ h => nomatch h
  strikes := fun _ _ h => nomatch h

/-- A 429 extends the pause it comes in, or starts one. -/
theorem Matches.pause (h : s.Matches) (retryAfter : Option Nat)
    (hstep : s.step (.pause retryAfter) = some s') : s'.Matches := by
  cases hstep
  have hend := le_pauseEnd s.now retryAfter s.record
  have hpositive := hend.right h.clock
  constructor
  · exact h.clock
  · show max s.row.rateLimitedUntil (pauseEnd s.now retryAfter s.record) =
      (pauseAccount s.now retryAfter s.record).1.rateLimitedUntil
    rw [pauseAccount_until, h.saved]
  · intro hnone
    exact absurd hnone (RatePause.note_ne_nil _ _ _)
  · intro p rest hpauses
    show max s.record.rateLimitedUntil (pauseEnd s.now retryAfter s.record) =
      p.ends ∧ 0 < p.ends
    change RatePause.note s.now.val _ s.pauses = p :: rest at hpauses
    have hlast : p.ends =
        max s.record.rateLimitedUntil (pauseEnd s.now retryAfter s.record) := by
      cases hbefore : s.pauses with
      | nil =>
          rw [h.fresh hbefore, max_eq_right hpositive.le]
          rw [hbefore] at hpauses
          exact RatePause.ends_note_nil hpauses
      | cons p' rest' =>
          rw [(h.deadline p' rest' hbefore).left]
          rw [hbefore] at hpauses
          exact RatePause.ends_note_cons hend.left hpauses
    rw [hlast]
    exact ⟨rfl, hpositive.trans_le (le_max_right _ _)⟩
  · intro p rest _ _
    show (pauseAccount s.now retryAfter s.record).1.rateLimitStrikes =
      RatePause.chainLength (RatePause.note s.now.val _ s.pauses)
    rw [pauseAccount_strikes]
    cases hbefore : s.pauses with
    | nil =>
        have hclock := h.clock
        rw [h.fresh hbefore, if_neg (not_lt_of_ge hclock),
          if_neg fun hand => lt_irrefl _ hand.left]
        rfl
    | cons p' rest' =>
        rcases h.deadline p' rest' hbefore with ⟨hdeadline, hsome⟩
        have hstrikes := h.strikes p' rest' hbefore
        rw [hdeadline, RatePause.chainLength_note]
        by_cases hduring : s.now.val < p'.ends
        · rw [if_pos hduring, if_pos hduring, ← hbefore]
          exact hstrikes (by omega)
        · rw [if_neg hduring, if_neg hduring]
          by_cases hrow : s.now.val - p'.ends ≤ 30 * 60
          · rw [if_pos ⟨hsome, hrow⟩, if_pos hrow, ← hbefore]
            exact congrArg (· + 1) (hstrikes hrow)
          · rw [if_neg fun hand => hrow hand.right, if_neg hrow]

theorem Matches.step (h : s.Matches) {a : PauseAction}
    (hcounts : s.CountsPauses a) (hstep : s.step a = some s') :
    s'.Matches := by
  cases a with
  | pause retryAfter =>
      exact h.pause retryAfter hstep
  | pauseReplaced i retryAfter =>
      exact hcounts.elim
  | elapse now =>
      simp only [PausedAccount.step] at hstep
      split at hstep
      · rename_i hle
        cases hstep
        have hval : s.now.val ≤ now.val := hle
        refine ⟨h.clock.trans hval, h.saved, h.fresh, h.deadline, ?_⟩
        intro p rest hpauses hrecent
        dsimp only at hrecent
        exact h.strikes p rest hpauses (by omega)
      · cases hstep
  | edit how =>
      simp only [PausedAccount.step] at hstep
      split at hstep
      · cases hstep
        exact h
      · rename_i r hbuild
        cases hstep
        rcases Replacement.build_rateLimits hbuild with ⟨huntil, hstrikes⟩
        constructor
        · exact h.clock
        · dsimp only
          rw [Replacement.save_rateLimitedUntil, huntil]
          exact h.saved
        · intro hnone
          exact huntil.trans (h.fresh hnone)
        · intro p rest hpauses
          dsimp only
          rw [huntil]
          exact h.deadline p rest hpauses
        · intro p rest hpauses hrecent
          exact hstrikes.trans (h.strikes p rest hpauses hrecent)
  | restart =>
      cases hstep
      have hloaded : s.row.load.rateLimitedUntil =
          max s.record.rateLimitedUntil 0 :=
        congrArg (max · 0) h.saved
      constructor
      · exact h.clock
      · show s.row.rateLimitedUntil = s.row.load.rateLimitedUntil
        rw [hloaded, h.saved]
        symm
        apply max_eq_left
        cases hpauses : s.pauses with
        | nil => exact (h.fresh hpauses).ge
        | cons p rest =>
            rcases h.deadline p rest hpauses with ⟨hdeadline, hsome⟩
            rw [hdeadline]
            exact hsome.le
      · intro hnone
        show s.row.load.rateLimitedUntil = 0
        rw [hloaded, h.fresh hnone]
        rfl
      · intro p rest hpauses
        rcases h.deadline p rest hpauses with ⟨hdeadline, hsome⟩
        show s.row.load.rateLimitedUntil = _ ∧ _
        rw [hloaded, hdeadline]
        exact ⟨max_eq_left hsome.le, hsome⟩
      · intro p rest hpauses hrecent
        dsimp only at hpauses hrecent
        have hpast := hcounts p (by rw [hpauses]; rfl)
        exact absurd hrecent (not_le_of_gt hpast)

end Matches

/-!
## What the strikes do
-/

theorem Matches.strikes_eq {s : PausedAccount} (h : s.Matches)
    (hrecent : s.RecentlyPaused) :
    0 < s.record.rateLimitedUntil ∧ s.record.rateLimitedUntil ≤ s.now.val ∧
      s.now.val - s.record.rateLimitedUntil ≤ 30 * 60 ∧
      s.record.rateLimitStrikes = RatePause.chainLength s.pauses ∧
      0 < RatePause.chainLength s.pauses := by
  rcases hrecent with ⟨p, rest, hpauses, hended, hrow⟩
  rcases h.deadline p rest hpauses with ⟨hdeadline, hsome⟩
  have hstrikes := h.strikes p rest hpauses hrow
  rw [hdeadline, hstrikes]
  refine ⟨hsome, hended, hrow, rfl, ?_⟩
  rw [hpauses]
  exact RatePause.chainLength_pos p rest

theorem Matches.heat_eq {s : PausedAccount} (h : s.Matches)
    (hrecent : s.RecentlyPaused) :
    rateLimitHeat s.now s.record = RatePause.chainLength s.pauses := by
  rcases h.strikes_eq hrecent with ⟨hsome, _, hrow, hstrikes, _⟩
  rw [rateLimitHeat, if_neg, hstrikes]
  rintro (hnone | hpast)
  · exact absurd hnone (not_le_of_gt hsome)
  · exact absurd hpast (not_lt_of_ge hrow)

theorem Matches.escalates {s : PausedAccount} (h : s.Matches)
    (hrecent : s.RecentlyPaused) : s.Escalates := by
  have hheat : 1 ≤ rateLimitHeat s.now s.record := by
    rw [h.heat_eq hrecent]
    exact (h.strikes_eq hrecent).right.right.right.right
  constructor
  · exact hheat
  · intro q cells roster rrSeq p p' hnow hcell hmem husable hadmits htier hpool
      hcold hlease
    have hrank := (tryLease_eq_some hlease).right.right.right p' hmem husable
      hadmits
    have hless := q.heat_le_of_rank_le hrank htier hpool
    rw [hnow, hcell, hcold] at hless
    exact absurd hheat (not_le_of_gt (Nat.lt_of_le_of_lt hless Nat.one_pos))
  · intro limit cells roster catalogRr p p' hcell hmem hserves hslot hcold hclaim
    have hless := (claimCatalogSlot_eq_slot hclaim).right.right.right p' hmem
      hserves hslot
    rw [hcell, hcold] at hless
    exact absurd hheat (not_le_of_gt (Nat.lt_of_le_of_lt hless Nat.one_pos))
  · rcases h.strikes_eq hrecent with ⟨hsome, hended, hrow, hstrikes, _⟩
    have hend : pauseEnd s.now none s.record =
        I64.saturate (s.now.val +
          (min 900 (30 * 2 ^ RatePause.chainLength s.pauses) : Nat)) := by
      rw [pauseEnd, if_neg (not_lt_of_ge hended), if_pos ⟨hsome, hrow⟩, hstrikes,
        rateLimitPauseSecs_none, countColumn, if_pos]
      exact Nat.lt_of_le_of_lt (Nat.min_le_left _ _) (by decide)
    rw [pauseAccount_until, ← hend]
    apply max_eq_right
    exact hended.trans (le_pauseEnd s.now none s.record).left

end PausedAccount

open PausedAccount

/-- Two pauses in a row. -/
def twoPauses : List PauseAction :=
  [.pause none, .elapse ⟨200, by decide, by decide⟩, .pause none,
    .edit (.update (some "second") none none none none),
    .elapse ⟨300, by decide, by decide⟩]

/-- The process restarts ten seconds after a pause. -/
def restartsAfterPause : List PauseAction :=
  [.pause none, .elapse ⟨140, by decide, by decide⟩, .restart]

end HifiApi
