import HifiApi.Accounts.Autoheal

/-!
# How often an account is checked

The FULL checks and the questions for the subscription of one account are paced
tasks of the healing loop: their starts keep their distance, and a pass that skips
nothing leaves both results fresh.
-/

namespace HifiApi

namespace Autoheal

open Pacing

/-- The distance of FULL checks, which depends on the id. -/
def fullGap (a : AccountState) : Int :=
  fullCheckIntervalSecs + accountSpreadSecs a.id fullCheckRepeatSpreadSecs

/-- The time that is kept of the last FULL result. -/
def keptFull (a : AccountState) : Option Int :=
  if 0 < a.premiumCheckedAt then some a.premiumCheckedAt else none

/-- The time that is kept of the last question for the subscription. -/
def keptSubscription (a : AccountState) : Option Int :=
  if 0 < a.subscriptionErrorAt then some a.subscriptionErrorAt
  else if 0 < a.subscriptionCheckedAt then some a.subscriptionCheckedAt
  else none

/-- How old a FULL result may be when a pass finds no check due. -/
def fullAge : Int := fullCheckIntervalSecs + fullCheckRepeatSpreadSecs

def subscriptionAge : Int := subscriptionCheckIntervalSecs + subscriptionRepeatSpreadSecs

def probes (log : List Mark) : List Int :=
  log.filterMap fun
    | .probed t => some t
    | _ => none

def asks (log : List Mark) : List Int :=
  log.filterMap fun
    | .asked t => some t
    | _ => none

def wholes (log : List Mark) : List Int :=
  log.filterMap fun
    | .whole t => some t
    | _ => none

/-- The time of a pass, under a condition. -/
def Pass.stamp (p : Pass) (done : Bool) : List Int :=
  if done then [p.now.val] else []

namespace Stage

/-- A decision, or a rest without one. -/
def decision (due : Bool) (now : I64) : Pacing :=
  if due then .decided now.val else .resting

def fullPhase : Stage -> Pacing
  | idle => .resting
  | sleeping p => decision p.full p.now
  | refreshing p => decision p.full p.now
  | toCheck p => decision p.full p.now
  | probing _ since => .started since.val
  | toAsk _ => .resting
  | asking _ _ => .resting

def subscriptionPhase : Stage -> Pacing
  | idle => .resting
  | sleeping p => decision p.subscription p.now
  | refreshing p => decision p.subscription p.now
  | toCheck p => decision p.subscription p.now
  | probing p _ => decision p.subscription p.now
  | toAsk p => decision p.subscription p.now
  | asking _ now => .started now.val

/-- The time of the pass under way, when its FULL check is behind it. -/
def fullDone : Stage -> List Int
  | idle => []
  | sleeping p => p.stamp (p.whole && !p.full)
  | refreshing p => p.stamp (p.whole && !p.full)
  | toCheck p => p.stamp (p.whole && !p.full)
  | probing _ _ => []
  | toAsk p => p.stamp p.whole
  | asking p _ => p.stamp p.whole

/-- The time of the pass under way, when it has nothing to ask. -/
def subscriptionDone : Stage -> List Int
  | idle => []
  | sleeping p => p.stamp (p.whole && !p.subscription)
  | refreshing p => p.stamp (p.whole && !p.subscription)
  | toCheck p => p.stamp (p.whole && !p.subscription)
  | probing p _ => p.stamp (p.whole && !p.subscription)
  | toAsk p => p.stamp (p.whole && !p.subscription)
  | asking _ _ => []

/-- The times of a stage are in order. -/
def InOrder (now : I64) : Stage -> Prop
  | idle => True
  | sleeping p => p.now ≤ now
  | refreshing p => p.now ≤ now
  | toCheck p => p.now ≤ now
  | probing p since => p.now ≤ since ∧ since ≤ now
  | toAsk p => p.now ≤ now
  | asking p since => p.now ≤ since ∧ since ≤ now ∧ 0 < since.val

end Stage

/-- A write of somebody else is at most a delay behind the clock. -/
def Timely (delay : Int) (w : World) : Action -> Prop
  | .others a => a.premiumCheckedAt = w.account.premiumCheckedAt ∨
      (0 < a.premiumCheckedAt ∧ w.now.val ≤ a.premiumCheckedAt + delay)
  | .subscribed _ checkedAt => 0 < checkedAt.val ∧ w.now.val ≤ checkedAt.val + delay
  | .subscriptionFailed _ failedAt => 0 < failedAt.val ∧ w.now.val ≤ failedAt.val + delay
  | _ => True

/-- Both tasks are paced, and tended to as of every whole pass. -/
structure Tends (delay : Int) (w : World) (log : List Mark) : Prop where
  clock : 0 < w.now.val
  order : w.stage.InOrder w.now
  full : Tended (fullGap w.account) fullAge delay w.loopStartedAt.val w.now.val
    (keptFull w.account) w.stage.fullPhase (probes log) (wholes log ++ w.stage.fullDone)
  subscription : Tended subscriptionRetrySecs subscriptionAge delay w.loopStartedAt.val
    w.now.val (keptSubscription w.account) w.stage.subscriptionPhase (asks log)
    (wholes log ++ w.stage.subscriptionDone)

/-!
## What is due
-/

theorem spread_bounds (id : String) {window : Int} (h : 0 < window) :
    0 ≤ accountSpreadSecs id window ∧ accountSpreadSecs id window ≤ window := by
  have hmax : max window 1 = window := by omega
  have hbounds : forall hash : Nat, 0 ≤ ((hash % (max window 1).toNat : Nat) : Int) ∧
      ((hash % (max window 1).toNat : Nat) : Int) ≤ window := by
    intro hash
    have hlt : hash % window.toNat < window.toNat := Nat.mod_lt _ (by omega)
    rw [hmax]
    omega
  exact hbounds _

section Due

variable {a : AccountState} {now : I64} {begun : Int}

/-- When the next FULL check is due. -/
def fullDueAt (a : AccountState) (begun : Int) : Int :=
  if 0 < a.premiumCheckedAt then
    a.premiumCheckedAt + fullCheckIntervalSecs +
      accountSpreadSecs a.id fullCheckRepeatSpreadSecs
  else
    begun + accountSpreadSecs a.id fullCheckInitialSpreadSecs

def subscriptionDueAt (a : AccountState) (begun : Int) : Int :=
  if 0 < a.subscriptionErrorAt then
    a.subscriptionErrorAt + subscriptionRetrySecs
  else if 0 < a.subscriptionCheckedAt then
    a.subscriptionCheckedAt + subscriptionCheckIntervalSecs +
      accountSpreadSecs a.id subscriptionRepeatSpreadSecs
  else
    begun + accountSpreadSecs a.id subscriptionInitialSpreadSecs

/-- The account is in playback and may be asked. -/
def Checkable (a : AccountState) (now : I64) : Prop :=
  (!a.isActive || a.isCatalog || (AccountManager.rateLimitRemaining now a).isSome) = false

theorem fullCheckDue_iff :
    fullCheckDue a now begun = true <-> Checkable a now ∧ fullDueAt a begun ≤ now.val := by
  unfold fullCheckDue Checkable
  split
  · rename_i h
    rw [h]
    simp
  · rename_i h
    rw [Bool.not_eq_true] at h
    rw [h]
    simp [fullDueAt]

theorem subscriptionCheckDue_iff :
    subscriptionCheckDue a now begun = true <->
      Checkable a now ∧ subscriptionDueAt a begun ≤ now.val := by
  unfold subscriptionCheckDue Checkable
  split
  · rename_i h
    rw [h]
    simp
  · rename_i h
    rw [Bool.not_eq_true] at h
    rw [h]
    simp [subscriptionDueAt]

theorem full_of_due (h : fullDueAt a begun ≤ now.val) (last : Int)
    (hlast : keptFull a = some last) : last + fullGap a ≤ now.val := by
  unfold keptFull at hlast
  unfold fullDueAt at h
  split at hlast
  · rename_i hkept
    cases hlast
    rw [if_pos hkept] at h
    unfold fullGap
    omega
  · cases hlast

theorem fullDueAt_le (a : AccountState) (begun : Int) :
    fullDueAt a begun ≤ (keptFull a).getD begun + fullAge := by
  have hrepeat := (spread_bounds a.id (show 0 < fullCheckRepeatSpreadSecs by decide)).right
  have hinitial := (spread_bounds a.id (show 0 < fullCheckInitialSpreadSecs by decide)).right
  have hless : fullCheckInitialSpreadSecs ≤ fullAge := by decide
  unfold fullDueAt keptFull
  split
  · rw [Option.getD_some]
    unfold fullAge
    omega
  · rw [Option.getD_none]
    omega

theorem subscription_of_due (h : subscriptionDueAt a begun ≤ now.val) (last : Int)
    (hlast : keptSubscription a = some last) : last + subscriptionRetrySecs ≤ now.val := by
  have hrepeat := (spread_bounds a.id (show 0 < subscriptionRepeatSpreadSecs by decide)).left
  have hless : subscriptionRetrySecs ≤ subscriptionCheckIntervalSecs := by decide
  unfold keptSubscription at hlast
  unfold subscriptionDueAt at h
  split at hlast
  · rename_i hfailed
    cases hlast
    rw [if_pos hfailed] at h
    exact h
  · rename_i hfailed
    rw [if_neg hfailed] at h
    split at hlast
    · rename_i hchecked
      cases hlast
      rw [if_pos hchecked] at h
      omega
    · cases hlast

theorem subscriptionDueAt_le (a : AccountState) (begun : Int) :
    subscriptionDueAt a begun ≤ (keptSubscription a).getD begun + subscriptionAge := by
  have hrepeat := (spread_bounds a.id (show 0 < subscriptionRepeatSpreadSecs by decide)).right
  have hinitial := (spread_bounds a.id (show 0 < subscriptionInitialSpreadSecs by decide)).right
  have hless : subscriptionInitialSpreadSecs ≤ subscriptionAge := by decide
  have hretry : subscriptionRetrySecs ≤ subscriptionAge := by decide
  unfold subscriptionDueAt keptSubscription
  split
  · rw [Option.getD_some]
    omega
  · split
    · rw [Option.getD_some]
      unfold subscriptionAge
      omega
    · rw [Option.getD_none]
      omega

/-- A fresh token asks no earlier than the retry of a failure. -/
theorem subscription_of_refresh {n : Int}
    (h : subscriptionAfterRefreshSecs ≤ n - max a.subscriptionCheckedAt a.subscriptionErrorAt)
    (last : Int) (hlast : keptSubscription a = some last) :
    last + subscriptionRetrySecs ≤ n := by
  have hsame : subscriptionAfterRefreshSecs = subscriptionRetrySecs := rfl
  unfold keptSubscription at hlast
  split at hlast
  · cases hlast
    omega
  · split at hlast
    · cases hlast
      omega
    · cases hlast

end Due

/-!
## Steps
-/

/-- Records of one account that keep the same times. -/
structure SameTimes (a b : AccountState) : Prop where
  id : b.id = a.id
  full : b.premiumCheckedAt = a.premiumCheckedAt
  checked : b.subscriptionCheckedAt = a.subscriptionCheckedAt
  failed : b.subscriptionErrorAt = a.subscriptionErrorAt

namespace SameTimes

variable {a b : AccountState}

theorem refl (a : AccountState) : SameTimes a a := ⟨rfl, rfl, rfl, rfl⟩

theorem fullGap (h : SameTimes a b) : fullGap b = fullGap a := by
  unfold Autoheal.fullGap
  rw [h.id]

theorem keptFull (h : SameTimes a b) : keptFull b = keptFull a := by
  unfold Autoheal.keptFull
  rw [h.full]

theorem keptSubscription (h : SameTimes a b) : keptSubscription b = keptSubscription a := by
  unfold Autoheal.keptSubscription
  rw [h.failed, h.checked]

theorem disableAfterAuthFailures {maxSecs : Int} {now : I64}
    (h : a.disableAfterAuthFailures maxSecs now = some b) : SameTimes a b := by
  simp only [AccountState.disableAfterAuthFailures, Option.ite_none_left_eq_some] at h
  cases h.right
  exact ⟨rfl, rfl, rfl, rfl⟩

theorem setSystemDisabled (disabled : Bool) (now : I64) :
    SameTimes a ((a.setSystemDisabled disabled now).getD a) := by
  unfold AccountState.setSystemDisabled
  split
  · exact refl a
  · split
    · exact refl a
    · exact ⟨rfl, rfl, rfl, rfl⟩

theorem notePreviewCheck (now : I64) (saved : Bool) :
    SameTimes a (a.notePreviewCheck now saved) := by
  unfold AccountState.notePreviewCheck
  dsimp only
  split
  · exact ⟨rfl, rfl, rfl, rfl⟩
  · split
    · exact ⟨rfl, rfl, rfl, rfl⟩
    · exact ⟨rfl, rfl, rfl, rfl⟩

end SameTimes

section Logs

variable (log : List Mark)

theorem probes_append (marks : List Mark) : probes (log ++ marks) = probes log ++ probes marks :=
  List.filterMap_append

theorem asks_append (marks : List Mark) : asks (log ++ marks) = asks log ++ asks marks :=
  List.filterMap_append

theorem wholes_append (marks : List Mark) : wholes (log ++ marks) = wholes log ++ wholes marks :=
  List.filterMap_append

end Logs

section Decisions

variable {gap age delay begun clock : Int} {kept : Option Int} {starts seen : List Int}

/-- The decision of a pass, which has tended to the task unless it is due. -/
theorem tended_decision {p : Pass} {due done : Bool}
    (h : Tended gap age delay begun clock kept .resting starts seen)
    (hnow : p.now.val ≤ clock)
    (hdue : due = true -> forall last, kept = some last -> last + gap ≤ p.now.val)
    (hdone : done = true -> p.now.val ≤ kept.getD begun + age + delay) :
    Tended gap age delay begun clock kept (Stage.decision due p.now) starts
      (seen ++ p.stamp done) := by
  have hseen : Tended gap age delay begun clock kept .resting starts (seen ++ p.stamp done) := by
    unfold Pass.stamp
    split
    · rename_i hyes
      exact h.see (fun _ heq => nomatch heq) hnow (hdone hyes)
    · rw [List.append_nil]
      exact h
  unfold Stage.decision
  split
  · rename_i hyes
    exact hseen.decide (fun _ heq => nomatch heq) hnow (hdue hyes)
  · exact hseen

theorem decision_ne_started (due : Bool) (now : I64) (t : Int) :
    Stage.decision due now ≠ .started t := by
  unfold Stage.decision
  split
  · exact fun heq => nomatch heq
  · exact fun heq => nomatch heq

/-- The marks of a pass at its end. -/
theorem marks_stamp (p : Pass) (done : Bool) :
    probes (if done then [.whole p.now.val] else []) = [] ∧
    asks (if done then [.whole p.now.val] else []) = [] ∧
    wholes (if done then [.whole p.now.val] else []) = p.stamp done := by
  unfold Pass.stamp
  split
  · exact ⟨rfl, rfl, rfl⟩
  · exact ⟨rfl, rfl, rfl⟩

theorem mem_stamp {p : Pass} {done : Bool} {n : Int} (h : n ∈ p.stamp done) :
    done = true ∧ n = p.now.val := by
  unfold Pass.stamp at h
  split at h
  · rename_i hdone
    exact ⟨hdone, List.mem_singleton.mp h⟩
  · cases h

/-- Fewer conditions are met as the pass goes on. -/
theorem mem_append_stamp {p : Pass} {done done' : Bool} (h : done' = true -> done = true)
    (n : Int) (hn : n ∈ seen ++ p.stamp done') : n ∈ seen ++ p.stamp done := by
  rcases List.mem_append.mp hn with hold | hnew
  · exact List.mem_append_left _ hold
  · rcases mem_stamp hnew with ⟨hdone, hnow⟩
    apply List.mem_append_right
    unfold Pass.stamp
    rw [if_pos (h hdone)]
    exact List.mem_singleton.mpr hnow

end Decisions

section Passes

variable {w : World} {a : AccountState} {log : List Mark} {delay : Int}

theorem decided_full (h : (w.decided a).full = true) :
    fullDueAt a w.loopStartedAt.val ≤ w.now.val := by
  have hdue : fullCheckDue a w.now w.loopStartedAt.val = true := by
    simp only [World.decided, Bool.and_eq_true] at h
    exact h.right
  exact (fullCheckDue_iff.mp hdue).right

theorem decided_subscription (h : (w.decided a).subscription = true) :
    subscriptionDueAt a w.loopStartedAt.val ≤ w.now.val := by
  have hdue : subscriptionCheckDue a w.now w.loopStartedAt.val = true := by
    simp only [World.decided, Bool.and_eq_true] at h
    exact h.right
  exact (subscriptionCheckDue_iff.mp hdue).right

/-- What a pass over an account that may be checked has not found due lies ahead. -/
theorem decided_whole (h : (w.decided a).whole = true) :
    ((w.decided a).full = false -> w.now.val < fullDueAt a w.loopStartedAt.val) ∧
    ((w.decided a).subscription = false ->
      w.now.val < subscriptionDueAt a w.loopStartedAt.val) := by
  simp only [World.decided, Bool.and_eq_true, Bool.not_eq_true'] at h
  rcases h with ⟨⟨⟨hcooling, hlimited⟩, hactive⟩, hcatalog⟩
  have hcheckable : Checkable a w.now := by
    unfold Checkable
    rw [hactive, hcatalog, hlimited]
    rfl
  constructor
  · intro hfull
    simp only [World.decided, hcooling, hlimited, Bool.not_false, Bool.true_and] at hfull
    by_contra hle
    have hdue := fullCheckDue_iff.mpr ⟨hcheckable, Int.not_lt.mp hle⟩
    rw [hdue] at hfull
    cases hfull
  · intro hsubscription
    simp only [World.decided, hcooling, hlimited, Bool.not_false, Bool.true_and]
      at hsubscription
    by_contra hle
    have hdue := subscriptionCheckDue_iff.mpr ⟨hcheckable, Int.not_lt.mp hle⟩
    rw [hdue] at hsubscription
    cases hsubscription

theorem begin_full (h : Tends delay w log) (hdelay : 0 ≤ delay) (hidle : w.stage = .idle)
    (hsame : SameTimes w.account a) :
    Tended (fullGap a) fullAge delay w.loopStartedAt.val w.now.val (keptFull a)
      (Stage.decision (w.decided a).full w.now) (probes log)
      (wholes log ++ (w.decided a).stamp ((w.decided a).whole && !(w.decided a).full)) := by
  have hfull := h.full
  rw [hidle, <- hsame.fullGap, <- hsame.keptFull] at hfull
  refine tended_decision (p := w.decided a) (hfull.mono ?_) (Int.le_refl _) ?_ ?_
  · exact fun n hn => List.mem_append_left _ hn
  · exact fun hdue => full_of_due (decided_full hdue)
  · intro hdone
    rw [Bool.and_eq_true, Bool.not_eq_true'] at hdone
    have hlt := (decided_whole hdone.left).left hdone.right
    have hle := fullDueAt_le a w.loopStartedAt.val
    show w.now.val ≤ _
    omega

theorem begin_subscription (h : Tends delay w log) (hdelay : 0 ≤ delay)
    (hidle : w.stage = .idle) (hsame : SameTimes w.account a) :
    Tended subscriptionRetrySecs subscriptionAge delay w.loopStartedAt.val w.now.val
      (keptSubscription a) (Stage.decision (w.decided a).subscription w.now) (asks log)
      (wholes log ++
        (w.decided a).stamp ((w.decided a).whole && !(w.decided a).subscription)) := by
  have hsub := h.subscription
  rw [hidle, <- hsame.keptSubscription] at hsub
  refine tended_decision (p := w.decided a) (hsub.mono ?_) (Int.le_refl _) ?_ ?_
  · exact fun n hn => List.mem_append_left _ hn
  · exact fun hdue => subscription_of_due (decided_subscription hdue)
  · intro hdone
    rw [Bool.and_eq_true, Bool.not_eq_true'] at hdone
    have hlt := (decided_whole hdone.left).right hdone.right
    have hle := subscriptionDueAt_le a w.loopStartedAt.val
    show w.now.val ≤ _
    omega

theorem tends_begin (h : Tends delay w log) (hdelay : 0 ≤ delay) (hidle : w.stage = .idle)
    (hsame : SameTimes w.account a) :
    Tends delay (w.begin a).1 (log ++ (w.begin a).2) := by
  have hfull := begin_full h hdelay hidle hsame
  have hsub := begin_subscription h hdelay hidle hsame
  unfold World.begin
  dsimp only
  split
  · rename_i hnothing
    simp only [Bool.and_eq_true, Bool.not_eq_true'] at hnothing
    rw [hnothing.left.right, Bool.not_false, Bool.and_true] at hfull
    rw [hnothing.right, Bool.not_false, Bool.and_true] at hsub
    rcases marks_stamp (w.decided a) (w.decided a).whole with ⟨hprobes, hasks, hwholes⟩
    refine ⟨h.clock, h.order, ?_, ?_⟩
    · rw [probes_append, wholes_append, hprobes, hwholes, hidle, List.append_nil]
      exact hfull.mono fun n hn => by simpa [Stage.fullDone] using hn
    · rw [asks_append, wholes_append, hasks, hwholes, hidle, List.append_nil]
      exact hsub.mono fun n hn => by simpa [Stage.subscriptionDone] using hn
  · refine ⟨h.clock, Int.le_refl _, ?_, ?_⟩
    · rw [List.append_nil]
      exact hfull
    · rw [List.append_nil]
      exact hsub

theorem Tends.account (h : Tends delay w log) (hsame : SameTimes w.account a) :
    Tends delay { w with account := a } log := by
  refine ⟨h.clock, h.order, ?_, ?_⟩
  · show Tended (fullGap a) _ _ _ _ (keptFull a) _ _ _
    rw [hsame.fullGap, hsame.keptFull]
    exact h.full
  · show Tended _ _ _ _ _ (keptSubscription a) _ _ _
    rw [hsame.keptSubscription]
    exact h.subscription

theorem tends_pass (h : Tends delay w log) (hdelay : 0 ≤ delay) (hidle : w.stage = .idle)
    (maxSecs : Int) (saved : Bool) :
    Tends delay (w.pass maxSecs saved).1 (log ++ (w.pass maxSecs saved).2) := by
  unfold World.pass
  split
  · rw [List.append_nil]
    exact h
  · cases hoff : w.account.disableAfterAuthFailures maxSecs w.now with
    | none =>
        exact tends_begin h hdelay hidle (SameTimes.refl _)
    | some a =>
        have hsame := SameTimes.disableAfterAuthFailures hoff
        cases saved with
        | true =>
            show Tends delay { w with account := a } (log ++ [])
            rw [List.append_nil]
            exact h.account hsame
        | false =>
            exact tends_begin h hdelay hidle hsame

theorem tends_elapse {now : I64} (h : Tends delay w log) (hnow : w.now ≤ now) :
    Tends delay { w with now := now } log := by
  have hclock : w.now.val ≤ now.val := hnow
  refine ⟨Int.lt_of_lt_of_le h.clock hclock, ?_, h.full.elapse hclock,
    h.subscription.elapse hclock⟩
  have horder := h.order
  show w.stage.InOrder now
  cases hstage : w.stage with
  | idle =>
      trivial
  | probing p since =>
      rw [hstage] at horder
      exact ⟨horder.left, le_trans horder.right hnow⟩
  | asking p since =>
      rw [hstage] at horder
      exact ⟨horder.left, le_trans horder.right.left hnow, horder.right.right⟩
  | _ =>
      rw [hstage] at horder
      exact le_trans horder hnow

theorem tends_wake {p : Pass} (h : Tends delay w log) (hstage : w.stage = .sleeping p) :
    Tends delay { w with stage := if p.refresh then .refreshing p else .toCheck p } log := by
  have horder := h.order
  have hfull := h.full
  have hsub := h.subscription
  rw [hstage] at horder hfull hsub
  split
  · exact ⟨h.clock, horder, hfull, hsub⟩
  · exact ⟨h.clock, horder, hfull, hsub⟩

theorem tends_refused {p : Pass} (h : Tends delay w log) (hstage : w.stage = .refreshing p) :
    Tends delay { w with stage := .idle } log := by
  have hfull := h.full
  have hsub := h.subscription
  rw [hstage] at hfull hsub
  refine ⟨h.clock, trivial, ?_, ?_⟩
  · refine (hfull.mono ?_).rest (decision_ne_started _ _)
    exact fun n hn => List.mem_append_left _ (by simpa [Stage.fullDone] using hn)
  · refine (hsub.mono ?_).rest (decision_ne_started _ _)
    exact fun n hn => List.mem_append_left _ (by simpa [Stage.subscriptionDone] using hn)

theorem tends_refreshed {p : Pass} (h : Tends delay w log)
    (hstage : w.stage = .refreshing p) : Tends delay (w.refreshed p) log := by
  have horder := h.order
  have hfull := h.full
  have hsub := h.subscription
  rw [hstage] at horder hfull hsub
  have hsame : SameTimes w.account
      ((w.account.setSystemDisabled false w.now).getD w.account) :=
    SameTimes.setSystemDisabled false w.now
  have hnext : Tends delay { w with stage := (w.refreshed p).stage } log := by
    refine ⟨h.clock, horder, hfull, ?_⟩
    unfold World.refreshed
    dsimp only
    generalize hdue : (decide (subscriptionAfterRefreshSecs ≤ p.now.val -
      max w.account.subscriptionCheckedAt w.account.subscriptionErrorAt) &&
        !w.account.isCatalog) = due
    cases hasked : p.subscription with
    | true =>
        simp only [Stage.subscriptionPhase, Stage.subscriptionDone, hasked] at hsub
        exact hsub
    | false =>
        simp only [Stage.subscriptionPhase, Stage.subscriptionDone, hasked] at hsub
        cases due with
        | false =>
            exact hsub
        | true =>
            rw [Bool.and_eq_true] at hdue
            have hfar := of_decide_eq_true hdue.left
            refine (hsub.mono ?_).decide (fun _ heq => nomatch heq) horder
              (subscription_of_refresh hfar)
            exact mem_append_stamp fun hno => by simp at hno
  exact hnext.account hsame

theorem tends_check {p : Pass} (h : Tends delay w log) (hstage : w.stage = .toCheck p) :
    Tends delay (w.check p).1 (log ++ (w.check p).2) := by
  have horder := h.order
  have hfull := h.full
  have hsub := h.subscription
  rw [hstage] at horder hfull hsub
  unfold World.check
  split
  · rename_i hdue
    simp only [Bool.and_eq_true] at hdue
    simp only [Stage.fullPhase, Stage.fullDone, hdue.left.left] at hfull
    refine ⟨h.clock, ⟨horder, le_refl _⟩, ?_, ?_⟩
    · rw [probes_append, wholes_append]
      refine (hfull.start).mono ?_
      exact fun n hn => List.mem_append_left _ (by simpa [Stage.fullDone, wholes] using hn)
    · rw [asks_append, wholes_append]
      simp only [asks, wholes, List.filterMap_cons, List.filterMap_nil, List.append_nil]
      exact hsub
  · rw [List.append_nil]
    refine ⟨h.clock, horder, hfull.rest (decision_ne_started _ _), hsub.mono ?_⟩
    refine @mem_append_stamp _ p _ _ ?_
    intro hboth
    simp only [Bool.and_eq_true] at hboth
    rw [hboth.left.left, hboth.right]
    rfl

theorem tends_probed {p : Pass} {since : I64} (h : Tends delay w log) (hdelay : 0 ≤ delay)
    (hstage : w.stage = .probing p since) (status : String) (saved : Bool) :
    Tends delay (w.probed p status saved) log := by
  have horder := h.order
  have hfull := h.full
  have hsub := h.subscription
  rw [hstage] at horder hfull hsub
  have hpast : p.now.val ≤ w.now.val := le_trans horder.left horder.right
  have hage : 0 ≤ fullAge := by decide
  have hset : Tends delay
      { w with account := w.account.setPremium status w.now, stage := .toAsk p } log := by
    refine ⟨h.clock, le_trans horder.left horder.right, ?_, hsub⟩
    have hkept : keptFull (w.account.setPremium status w.now) = some w.now.val :=
      if_pos h.clock
    show Tended _ _ _ _ _ (keptFull (w.account.setPremium status w.now)) _ _ _
    rw [hkept]
    have hrecord := hfull.record hage hdelay horder.right
    unfold Stage.fullDone Pass.stamp
    dsimp only
    split
    · refine (hrecord.mono ?_).see (fun _ heq => nomatch heq) hpast ?_
      · exact fun n hn => List.mem_append_left _ hn
      · show p.now.val ≤ w.now.val + fullAge + delay
        omega
    · exact hrecord
  unfold World.probed
  dsimp only
  split
  · exact hset.account (SameTimes.notePreviewCheck w.now saved)
  · exact hset

theorem tends_ask {p : Pass} (h : Tends delay w log) (hstage : w.stage = .toAsk p) :
    Tends delay (w.ask p).1 (log ++ (w.ask p).2) := by
  have horder := h.order
  have hfull := h.full
  have hsub := h.subscription
  rw [hstage] at horder hfull hsub
  unfold World.ask
  split
  · rename_i hdue
    rw [Bool.and_eq_true] at hdue
    simp only [Stage.subscriptionPhase, Stage.subscriptionDone, hdue.left] at hsub
    refine ⟨h.clock, ⟨horder, le_refl _, h.clock⟩, ?_, ?_⟩
    · rw [probes_append, wholes_append]
      simp only [probes, wholes, List.filterMap_cons, List.filterMap_nil, List.append_nil]
      exact hfull
    · rw [asks_append, wholes_append]
      refine (hsub.start).mono ?_
      exact fun n hn =>
        List.mem_append_left _ (by simpa [Stage.subscriptionDone, wholes] using hn)
  · rcases marks_stamp p (p.whole && !p.subscription) with ⟨hprobes, hasks, hwholes⟩
    refine ⟨h.clock, trivial, ?_, ?_⟩
    · rw [probes_append, wholes_append, hprobes, hwholes, List.append_nil]
      refine hfull.mono ?_
      intro n hn
      have hmem : n ∈ wholes log ++ p.stamp (p.whole && !p.subscription) := by
        simpa [Stage.fullDone] using hn
      refine mem_append_stamp ?_ n hmem
      intro hboth
      rw [Bool.and_eq_true] at hboth
      exact hboth.left
    · rw [asks_append, wholes_append, hasks, hwholes, List.append_nil]
      refine (hsub.mono ?_).rest (decision_ne_started _ _)
      exact fun n hn => by simpa [Stage.subscriptionDone] using hn

/-- An answer, or a failure, that is kept under a time of its own. -/
structure Keeps (a b : AccountState) (t : Int) : Prop where
  id : b.id = a.id
  full : b.premiumCheckedAt = a.premiumCheckedAt
  kept : keptSubscription b = some t

theorem keeps_applySubscription (subscription : Value) {checkedAt : I64} (now : I64)
    (hpos : 0 < checkedAt.val) (a : AccountState) :
    Keeps a (a.applySubscription subscription checkedAt now) checkedAt.val := by
  have hkept : keptSubscription (a.storeSubscription subscription checkedAt) =
      some checkedAt.val := by
    show (if 0 < (0 : Int) then some 0
      else if 0 < checkedAt.val then some checkedAt.val else none) = some checkedAt.val
    rw [if_neg (Int.lt_irrefl 0), if_pos hpos]
  unfold AccountState.applySubscription
  dsimp only
  split
  · exact ⟨rfl, rfl, hkept⟩
  · exact ⟨rfl, rfl, hkept⟩

theorem keeps_storeSubscriptionError (error : String) {failedAt : I64}
    (hpos : 0 < failedAt.val) (a : AccountState) :
    Keeps a (a.storeSubscriptionError error failedAt) failedAt.val :=
  ⟨rfl, rfl, if_pos hpos⟩

/-- The full task does not see what is kept of the subscription. -/
theorem Keeps.tended_full {b : AccountState} {t : Int} (h : Keeps w.account b t)
    {phase : Pacing} {starts seen : List Int}
    (hfull : Tended (fullGap w.account) fullAge delay w.loopStartedAt.val w.now.val
      (keptFull w.account) phase starts seen) :
    Tended (fullGap b) fullAge delay w.loopStartedAt.val w.now.val (keptFull b) phase
      starts seen := by
  have hgap : fullGap b = fullGap w.account := by
    unfold fullGap
    rw [h.id]
  have hkept : keptFull b = keptFull w.account := by
    unfold keptFull
    rw [h.full]
  rw [hgap, hkept]
  exact hfull

theorem tends_answered {p : Pass} {since : I64} (h : Tends delay w log) (hdelay : 0 ≤ delay)
    (hstage : w.stage = .asking p since) (result : Except String Value) :
    Tends delay (w.answered p since result).1 (log ++ (w.answered p since result).2) := by
  have horder := h.order
  have hfull := h.full
  have hsub := h.subscription
  rw [hstage] at horder hfull hsub
  have hage : 0 ≤ subscriptionAge := by decide
  have hpast : p.now.val ≤ since.val := horder.left
  have hkeeps : Keeps w.account (w.answered p since result).1.account since.val := by
    cases result with
    | ok subscription =>
        exact keeps_applySubscription subscription w.now horder.right.right w.account
    | error error =>
        exact keeps_storeSubscriptionError error horder.right.right w.account
  rcases marks_stamp p p.whole with ⟨hprobes, hasks, hwholes⟩
  have hmarks : (w.answered p since result).2 = if p.whole then [.whole p.now.val] else [] :=
    rfl
  refine ⟨h.clock, trivial, ?_, ?_⟩
  · rw [hmarks, probes_append, wholes_append, hprobes, hwholes, List.append_nil]
    refine (hkeeps.tended_full hfull).mono ?_
    exact fun n hn => by simpa [World.answered, Stage.fullDone] using hn
  · rw [hmarks, asks_append, wholes_append, hasks, hwholes, List.append_nil, hkeeps.kept]
    have hrecord := hsub.record hage hdelay (Int.le_refl _)
    have hseen : Tended subscriptionRetrySecs subscriptionAge delay w.loopStartedAt.val
        w.now.val (some since.val) .resting (asks log) (wholes log ++ p.stamp p.whole) := by
      unfold Pass.stamp
      split
      · refine (hrecord.mono ?_).see (fun _ heq => nomatch heq)
          (le_trans hpast horder.right.left) ?_
        · exact fun n hn => List.mem_append_left _ hn
        · show p.now.val ≤ since.val + subscriptionAge + delay
          omega
      · exact hrecord
    refine hseen.mono ?_
    exact fun n hn => by simpa [World.answered, Stage.subscriptionDone] using hn

theorem tends_recorded {b : AccountState} {t : Int} (h : Tends delay w log)
    (hkeeps : Keeps w.account b t) (ht : w.now.val ≤ t + delay) :
    Tends delay { w with account := b } log := by
  have hage : 0 ≤ subscriptionAge := by decide
  refine ⟨h.clock, h.order, hkeeps.tended_full h.full, ?_⟩
  show Tended _ _ _ _ _ (keptSubscription b) _ _ _
  rw [hkeeps.kept]
  exact h.subscription.recordOther hage ht

theorem tends_others (h : Tends delay w log)
    (htimes : World.checkTimes a = World.checkTimes w.account)
    (htimely : a.premiumCheckedAt = w.account.premiumCheckedAt ∨
      (0 < a.premiumCheckedAt ∧ w.now.val ≤ a.premiumCheckedAt + delay)) :
    Tends delay { w with account := a } log := by
  simp only [World.checkTimes, Prod.mk.injEq] at htimes
  rcases htimes with ⟨hid, hchecked, hfailed⟩
  rcases htimely with hsame | ⟨hpos, hrecent⟩
  · exact h.account ⟨hid, hsame, hchecked, hfailed⟩
  · have hage : 0 ≤ fullAge := by decide
    have hgap : fullGap a = fullGap w.account := by
      unfold fullGap
      rw [hid]
    have hkept : keptSubscription a = keptSubscription w.account := by
      unfold keptSubscription
      rw [hfailed, hchecked]
    have hrecorded : keptFull a = some a.premiumCheckedAt := if_pos hpos
    refine ⟨h.clock, h.order, ?_, ?_⟩
    · show Tended (fullGap a) _ _ _ _ (keptFull a) _ _ _
      rw [hgap, hrecorded]
      exact h.full.recordOther hage hrecent
    · show Tended _ _ _ _ _ (keptSubscription a) _ _ _
      rw [hkept]
      exact h.subscription

theorem Tends.turn {w' : World} {act : Action} {marks : List Mark} (h : Tends delay w log)
    (hdelay : 0 ≤ delay) (htimely : Timely delay w act)
    (hturn : w.turn act = some (w', marks)) : Tends delay w' (log ++ marks) := by
  cases act with
  | elapse now =>
      simp only [World.turn] at hturn
      split at hturn
      · rename_i hnow
        cases hturn
        rw [List.append_nil]
        exact tends_elapse h hnow
      · cases hturn
  | pass maxSecs saved =>
      simp only [World.turn] at hturn
      split at hturn
      · rename_i hidle
        have hpass := tends_pass h hdelay hidle maxSecs saved
        rw [Option.some.inj hturn] at hpass
        exact hpass
      · cases hturn
  | wake =>
      simp only [World.turn] at hturn
      split at hturn
      · rename_i p hstage
        cases hturn
        rw [List.append_nil]
        exact tends_wake h hstage
      · cases hturn
  | refreshed ok =>
      simp only [World.turn] at hturn
      split at hturn
      · rename_i p hstage
        cases ok with
        | true =>
            cases hturn
            rw [List.append_nil]
            exact tends_refreshed h hstage
        | false =>
            cases hturn
            rw [List.append_nil]
            exact tends_refused h hstage
      · cases hturn
  | check =>
      simp only [World.turn] at hturn
      split at hturn
      · rename_i p hstage
        have hcheck := tends_check h hstage
        rw [Option.some.inj hturn] at hcheck
        exact hcheck
      · cases hturn
  | probed status saved =>
      simp only [World.turn] at hturn
      split at hturn
      · rename_i p since hstage
        cases hturn
        rw [List.append_nil]
        exact tends_probed h hdelay hstage status saved
      · cases hturn
  | ask =>
      simp only [World.turn] at hturn
      split at hturn
      · rename_i p hstage
        have hask := tends_ask h hstage
        rw [Option.some.inj hturn] at hask
        exact hask
      · cases hturn
  | answered result =>
      simp only [World.turn] at hturn
      split at hturn
      · rename_i p since hstage
        cases hturn
        exact tends_answered h hdelay hstage result
      · cases hturn
  | subscribed subscription checkedAt =>
      cases hturn
      rw [List.append_nil]
      exact tends_recorded h
        (keeps_applySubscription subscription w.now htimely.left w.account) htimely.right
  | subscriptionFailed error failedAt =>
      cases hturn
      rw [List.append_nil]
      exact tends_recorded h
        (keeps_storeSubscriptionError error htimely.left w.account) htimely.right
  | others a =>
      simp only [World.turn] at hturn
      split at hturn
      · rename_i htimes
        cases hturn
        rw [List.append_nil]
        exact tends_others h htimes htimely
      · cases hturn

end Passes

/-!
## Every run
-/

/-- The loop as it begins. -/
def World.start (a : AccountState) (now : I64) : World where
  account := a
  now := now
  loopStartedAt := now
  stage := .idle

theorem tends_start (delay : Int) (a : AccountState) {now : I64} (hnow : 0 < now.val) :
    Tends delay (World.start a now) [] :=
  ⟨hnow, trivial, tended_nil _, tended_nil _⟩

theorem tends_of_run {a : AccountState} {now : I64} {delay : Int} {actions : List Action}
    {w : World} (hnow : 0 < now.val) (hdelay : 0 ≤ delay)
    (htimely : World.system.Along (Timely delay) (.start a now) actions)
    (hrun : World.system.run (.start a now) actions = some w) :
    Tends delay w (World.system.history World.marks (.start a now) actions) := by
  have hend : Tends delay w ([] ++ World.system.history World.marks (.start a now) actions) := by
    refine System.run_history_invariant (P := Timely delay) (I := Tends delay) ?_
      (tends_start delay a hnow) htimely hrun
    intro w act w' log h htimely hstep
    rcases Option.map_eq_some_iff.mp hstep with ⟨⟨next, marks⟩, hturn, heq⟩
    cases heq
    have hmarks : w.marks act = marks := by
      unfold World.marks
      rw [hturn]
      rfl
    rw [hmarks]
    exact h.turn hdelay htimely hturn
  rw [List.nil_append] at hend
  exact hend

/-- The actions of the loop itself. -/
def Action.own : Action -> Bool
  | .subscribed _ _ => false
  | .subscriptionFailed _ _ => false
  | .others _ => false
  | _ => true

theorem timely_of_own {w : World} {act : Action} (h : act.own = true) (delay : Int) :
    Timely delay w act := by
  cases act with
  | subscribed subscription checkedAt =>
      cases h
  | subscriptionFailed error failedAt =>
      cases h
  | others a =>
      cases h
  | _ =>
      trivial

/-- A first pass, which Tidal does not answer. -/
def firstPass : List Action :=
  [.elapse (.ofNat 2000), .pass 0 true, .wake, .refreshed true, .check,
    .probed "premium" true, .ask, .answered (.error "Timeout")]

end Autoheal

end HifiApi
