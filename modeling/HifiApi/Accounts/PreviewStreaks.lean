import HifiApi.Accounts.FullChecks
import HifiApi.Lib.System

/-!
# PREVIEW checks in a row

The automatic check of one account next to manual checks and to ordinary
traffic, cut where a call waits.  Every result is written down in the order in
which it is recorded, so that each decision of {lit}`note_preview_check` can be
compared with the results before it.
-/

namespace HifiApi

/-!
## The tasks
-/

/-- Who asked. -/
inductive PremiumSource where
  | automatic
  | manual
  | traffic
  deriving DecidableEq

/-- A recorded result. -/
structure PremiumResult where
  source : PremiumSource
  status : String
  deriving DecidableEq

/-- The automatic check of the account: one at a time. -/
inductive PremiumCheck where
  | idle
  | probing
  | recorded
  | moving
  | moved
  deriving DecidableEq

/-- A call of {lit}`confirm_full`, with its reading of the clock, about to read
or to write the status. -/
inductive ConfirmCall where
  | reading (now : I64)
  | writing (now : I64)
  deriving DecidableEq

/-- What {lit}`note_preview_check` answered, after which results. -/
structure PreviewVerdict where
  moved : Bool
  results : List PremiumResult
  deriving DecidableEq

structure PremiumWorld where
  account : AccountState
  check : PremiumCheck
  confirming : List ConfirmCall
  /-- Calls of {lit}`note_traffic_preview` about to write their mark. -/
  marking : Nat
  results : List PremiumResult
  verdicts : List PreviewVerdict

inductive PremiumAction where
  | beginCheck (now : I64) (loopStartedAt : Int)
  | skipCheck
  | recordCheck (status : String) (now : I64)
  | countCheck
  | flagCatalog (now : I64)
  | clearStreak
  | manualCheck (status : String) (now : I64)
  | startConfirm (now : I64)
  | readConfirm (i : Nat)
  | writeConfirm (i : Nat)
  | trafficPreview
  | markPreviewOnly (now : I64)

namespace PremiumWorld

/-- {lit}`set_premium` of an automatic check.  A PREVIEW result is counted
next. -/
def recordCheck (status : String) (now : I64) (s : PremiumWorld) : PremiumWorld :=
  { s with
    account := s.account.setPremium status now
    check := if status = premiumStatusPreview then .recorded else .idle
    results := s.results ++ [⟨.automatic, status⟩] }

/-- {lit}`note_preview_check` up to its first wait. -/
def countCheck (s : PremiumWorld) : PremiumWorld :=
  let account := s.account.countPreview
  if account.previewStreak < previewChecksBeforeCatalog then
    { s with
      account := account
      check := .idle
      verdicts := s.verdicts ++ [⟨false, s.results⟩] }
  else
    { s with
      account := account
      check := .moving }

/-- {lit}`set_account_catalog` after the lookup of the account. -/
def flagCatalog (now : I64) (s : PremiumWorld) : PremiumWorld :=
  { s with
    account := s.account.setAccountCatalog true now
    check := .moved
    verdicts := s.verdicts ++ [⟨true, s.results⟩] }

/-- {lit}`confirm_full` up to its first wait. -/
def startConfirm (now : I64) (s : PremiumWorld) : PremiumWorld :=
  let call : ConfirmCall :=
    if now.val - 60 < s.account.premiumCheckedAt then .reading now
    else .writing now
  { s with
    account := { s.account with trafficPreviewStreak := 0 }
    confirming := s.confirming ++ [call] }

/-- The early return of {lit}`confirm_full`: the status is FULL already. -/
def readConfirm (i : Nat) (now : I64) (s : PremiumWorld) : PremiumWorld :=
  if s.account.premiumStatus = premiumStatusFull then
    { s with
      confirming := s.confirming.eraseIdx i
      results := s.results ++ [⟨.traffic, premiumStatusFull⟩] }
  else
    { s with confirming := s.confirming.set i (.writing now) }

def writeConfirm (i : Nat) (now : I64) (s : PremiumWorld) : PremiumWorld :=
  { s with
    account := s.account.confirmFull now
    confirming := s.confirming.eraseIdx i
    results := s.results ++ [⟨.traffic, premiumStatusFull⟩] }

/-- {lit}`note_traffic_preview` up to its first wait. -/
def trafficPreview (s : PremiumWorld) : PremiumWorld :=
  let streak := s.account.trafficPreviewStreak + 1
  if streak < trafficPreviewsBeforePreviewOnly then
    { s with account := { s.account with trafficPreviewStreak := streak } }
  else
    { s with
      account := { s.account with trafficPreviewStreak := 0 }
      marking := s.marking + 1 }

end PremiumWorld

open PremiumWorld in
/-- The calls on one account.  An automatic check starts when it is due, and
gives up when the account has been switched off or paused meanwhile. -/
def premiumSystem : System PremiumWorld PremiumAction where
  step s
    | .beginCheck now loopStartedAt =>
        if s.check = .idle ∧ fullCheckDue s.account now loopStartedAt = true then
          some { s with check := .probing }
        else none
    | .skipCheck =>
        if s.check = .probing then some { s with check := .idle } else none
    | .recordCheck status now =>
        if s.check = .probing then some (s.recordCheck status now) else none
    | .countCheck =>
        if s.check = .recorded then some s.countCheck else none
    | .flagCatalog now =>
        if s.check = .moving then some (s.flagCatalog now) else none
    | .clearStreak =>
        if s.check = .moved then
          some { s with account := s.account.clearPreviews, check := .idle }
        else none
    | .manualCheck status now =>
        some
          { s with
            account := s.account.setPremium status now
            results := s.results ++ [⟨.manual, status⟩] }
    | .startConfirm now => some (s.startConfirm now)
    | .readConfirm i =>
        match s.confirming[i]? with
        | some (.reading now) => some (s.readConfirm i now)
        | _ => none
    | .writeConfirm i =>
        match s.confirming[i]? with
        | some (.writing now) => some (s.writeConfirm i now)
        | _ => none
    | .trafficPreview => some s.trafficPreview
    | .markPreviewOnly now =>
        if s.marking = 0 then none
        else
          some
            { s with
              account := s.account.markPreviewOnly now
              marking := s.marking - 1 }

/-!
## What a move stands for
-/

namespace PremiumResult

/-- An automatic check that came back PREVIEW. -/
def previewed (r : PremiumResult) : Bool :=
  r.source = .automatic && r.status = premiumStatusPreview

/-- An automatic check that came back FULL or PREVIEW. -/
def conclusive (r : PremiumResult) : Bool :=
  r.source = .automatic &&
    (r.status = premiumStatusPreview || r.status = premiumStatusFull)

def full (r : PremiumResult) : Bool := r.status = premiumStatusFull

end PremiumResult

/-- The last three conclusive automatic checks came back PREVIEW, and nothing
came back FULL after the first of them. -/
def PreviewsInARow (results : List PremiumResult) : Prop :=
  exists before first after, results = before ++ first :: after ∧
    first.previewed = true ∧
    (after.countP PremiumResult.conclusive : Int) + 1 = previewChecksBeforeCatalog ∧
    forall r, r ∈ after -> r.full = false

/-- The PREVIEW checks since the last FULL result. -/
def previewsSinceFull (results : List PremiumResult) : Nat :=
  (results.reverse.takeWhile fun r => !r.full).countP PremiumResult.previewed

/-- Every decision of {lit}`note_preview_check` was the right one. -/
def PremiumWorld.Judged (s : PremiumWorld) : Prop :=
  forall v, v ∈ s.verdicts -> (v.moved = true <-> PreviewsInARow v.results)

/-- A FULL result arrives: from traffic, also when the call returns early, or
from a manual check. -/
def PremiumWorld.FullArrives (s : PremiumWorld) : PremiumAction -> Prop
  | .manualCheck status _ => status = premiumStatusFull
  | .readConfirm _ => s.account.premiumStatus = premiumStatusFull
  | .writeConfirm _ => True
  | _ => False

instance (s : PremiumWorld) (a : PremiumAction) : Decidable (s.FullArrives a) :=
  match a with
  | .manualCheck status _ => inferInstanceAs (Decidable (status = premiumStatusFull))
  | .readConfirm _ =>
      inferInstanceAs (Decidable (s.account.premiumStatus = premiumStatusFull))
  | .writeConfirm _ => isTrue trivial
  | .beginCheck .. => isFalse id
  | .skipCheck => isFalse id
  | .recordCheck .. => isFalse id
  | .countCheck => isFalse id
  | .flagCatalog _ => isFalse id
  | .clearStreak => isFalse id
  | .startConfirm _ => isFalse id
  | .trafficPreview => isFalse id
  | .markPreviewOnly _ => isFalse id

/-- No FULL result arrives between the record of a PREVIEW check and the end of
the decision on it. -/
def PremiumWorld.Undisturbed (s : PremiumWorld) (a : PremiumAction) : Prop :=
  s.check = .recorded ∨ s.check = .moving -> ¬ s.FullArrives a

instance (s : PremiumWorld) (a : PremiumAction) : Decidable (s.Undisturbed a) :=
  inferInstanceAs (Decidable (_ -> _))

/-!
## Counting back to the last FULL result
-/

section

variable {results : List PremiumResult} {r : PremiumResult}

theorem not_full_of_previewed (h : r.previewed = true) : r.full = false := by
  unfold PremiumResult.previewed at h
  have hstatus : r.status = premiumStatusPreview := by simp_all
  unfold PremiumResult.full
  rw [hstatus]
  decide

theorem previewed_eq_conclusive (h : r.full = false) :
    r.previewed = r.conclusive := by
  unfold PremiumResult.full at h
  unfold PremiumResult.previewed PremiumResult.conclusive
  rw [h, Bool.or_false]

theorem previewsSinceFull_append_full (h : r.full = true) :
    previewsSinceFull (results ++ [r]) = 0 := by
  unfold previewsSinceFull
  rw [List.reverse_append]
  simp [h]

theorem previewsSinceFull_append (h : r.full = false) :
    previewsSinceFull (results ++ [r]) =
      previewsSinceFull results + if r.previewed = true then 1 else 0 := by
  unfold previewsSinceFull
  rw [List.reverse_append, List.reverse_singleton, List.singleton_append,
    List.takeWhile_cons, h, Bool.not_false, if_pos rfl, List.countP_cons]

/-- A list with more than a number of hits can be cut at one that exactly that
many follow. -/
theorem exists_cut_of_lt_countP {α : Type} {p : α -> Bool} {l : List α} {n : Nat}
    (h : n < l.countP p) :
    exists before x after, l = before ++ x :: after ∧ p x = true ∧
      after.countP p = n := by
  induction l with
  | nil =>
      cases h
  | cons x rest ih =>
      by_cases hrest : n < rest.countP p
      · rcases ih hrest with ⟨before, y, after, heq, hy, hafter⟩
        exact ⟨x :: before, y, after, by rw [heq]; rfl, hy, hafter⟩
      · rw [List.countP_cons] at h
        have hx : p x = true := by
          by_contra hx
          rw [if_neg hx] at h
          exact hrest h
        rw [if_pos hx] at h
        exact ⟨[], x, rest, rfl, hx, by omega⟩

theorem previewsInARow_iff :
    PreviewsInARow results <->
      previewChecksBeforeCatalog ≤ (previewsSinceFull results : Int) := by
  constructor
  · intro h
    rcases h with ⟨before, first, after, heq, hfirst, hcount, hafter⟩
    have hcut : forall x, x ∈ after.reverse ++ [first] -> (!x.full) = true := by
      intro x hx
      rcases List.mem_append.mp hx with hx | hx
      · rw [hafter x (List.mem_reverse.mp hx)]
        rfl
      · rw [List.mem_singleton.mp hx, not_full_of_previewed hfirst]
        rfl
    have hsame : after.countP PremiumResult.previewed =
        after.countP PremiumResult.conclusive := by
      apply List.countP_congr
      intro x hx
      rw [previewed_eq_conclusive (hafter x hx)]
    unfold previewsSinceFull
    rw [heq, List.reverse_append, List.reverse_cons,
      List.takeWhile_append_of_pos hcut, List.countP_append, List.countP_append,
      List.countP_reverse, List.countP_singleton, if_pos hfirst, hsame]
    omega
  · intro h
    have hthree : (2 : Nat) < previewsSinceFull results := by
      unfold previewChecksBeforeCatalog at h
      omega
    unfold previewsSinceFull at hthree
    have hsplit : results = (results.reverse.dropWhile fun r => !r.full).reverse ++
        (results.reverse.takeWhile fun r => !r.full).reverse := by
      rw [← List.reverse_append, List.takeWhile_append_dropWhile,
        List.reverse_reverse]
    rw [← List.countP_reverse] at hthree
    rcases exists_cut_of_lt_countP hthree with
      ⟨before, first, after, heq, hfirst, hcount⟩
    have hnone : forall x, x ∈ after -> x.full = false := by
      intro x hx
      have hmem : x ∈ (results.reverse.takeWhile fun r => !r.full).reverse := by
        rw [heq]
        simp [hx]
      have hpos := List.all_eq_true.mp List.all_takeWhile x
        (List.mem_reverse.mp hmem)
      simpa using hpos
    refine ⟨(results.reverse.dropWhile fun r => !r.full).reverse ++ before, first,
      after, ?_, hfirst, ?_, hnone⟩
    · rw [List.append_assoc, ← heq]
      exact hsplit
    · have hsame : after.countP PremiumResult.previewed =
          after.countP PremiumResult.conclusive := by
        apply List.countP_congr
        intro x hx
        rw [previewed_eq_conclusive (hnone x hx)]
      rw [← hsame, hcount]
      rfl

end

/-!
## The streak follows the results
-/

namespace PremiumWorld

/-- A PREVIEW result that is recorded and not yet counted. -/
def uncounted (s : PremiumWorld) : Int :=
  if s.check = .recorded then 1 else 0

theorem uncounted_of_ne {s : PremiumWorld} (h : s.check ≠ .recorded) :
    s.uncounted = 0 :=
  if_neg h

theorem uncounted_of_recorded {s : PremiumWorld} (h : s.check = .recorded) :
    s.uncounted = 1 :=
  if_pos h

/-- The counter holds the PREVIEW checks since the last FULL result, and a FULL
status stands only over an empty counter. -/
structure Tracked (s : PremiumWorld) : Prop where
  judged : s.Judged
  counted : s.account.isCatalog = false ->
    s.account.previewStreak + s.uncounted = previewsSinceFull s.results
  full : s.account.isCatalog = false ->
    s.account.premiumStatus = premiumStatusFull ->
      s.account.previewStreak = 0 ∧ s.check ≠ .recorded ∧ s.check ≠ .moving
  third : s.check = .moving ->
    previewChecksBeforeCatalog ≤ (previewsSinceFull s.results : Int)
  busy : s.check ≠ .idle -> s.check ≠ .moved -> s.account.isCatalog = false
  moved : s.check = .moved -> s.account.isCatalog = true

variable {s s' : PremiumWorld}

/-- A FULL result that meets no decision empties the counter. -/
theorem Tracked.of_full (h : s.Tracked) {r : PremiumResult} (hr : r.full = true)
    (hquiet : s.check ≠ .recorded ∧ s.check ≠ .moving)
    (hstreak : s.account.isCatalog = false -> s'.account.previewStreak = 0)
    (hcatalog : s'.account.isCatalog = s.account.isCatalog)
    (hcheck : s'.check = s.check) (hverdicts : s'.verdicts = s.verdicts)
    (hresults : s'.results = s.results ++ [r]) : s'.Tracked where
  judged := by
    unfold Judged
    rw [hverdicts]
    exact h.judged
  counted := by
    rw [hcatalog]
    intro hplayback
    unfold uncounted
    rw [hstreak hplayback, hcheck, if_neg hquiet.left, hresults,
      previewsSinceFull_append_full hr]
    rfl
  full := by
    rw [hcatalog, hcheck]
    intro hplayback _
    exact ⟨hstreak hplayback, hquiet⟩
  third := by
    rw [hcheck]
    intro hmoving
    exact absurd hmoving hquiet.right
  busy := by
    rw [hcheck, hcatalog]
    exact h.busy
  moved := by
    rw [hcheck, hcatalog]
    exact h.moved

/-- Whatever touches neither the counter nor the decision. -/
theorem Tracked.of_same (h : s.Tracked)
    (hstreak : s'.account.previewStreak = s.account.previewStreak)
    (hstatus : s'.account.premiumStatus = s.account.premiumStatus ∨
      s'.account.premiumStatus ≠ premiumStatusFull)
    (hcatalog : s'.account.isCatalog = s.account.isCatalog)
    (hcheck : s'.check = s.check) (hverdicts : s'.verdicts = s.verdicts)
    (hsince : previewsSinceFull s'.results = previewsSinceFull s.results) :
    s'.Tracked where
  judged := by
    unfold Judged
    rw [hverdicts]
    exact h.judged
  counted := by
    unfold uncounted
    rw [hcatalog, hstreak, hcheck, hsince]
    exact h.counted
  full := by
    rw [hcatalog, hcheck, hstreak]
    intro hplayback hfull
    rcases hstatus with hsame | hother
    · rw [hsame] at hfull
      exact h.full hplayback hfull
    · exact absurd hfull hother
  third := by
    rw [hcheck, hsince]
    exact h.third
  busy := by
    rw [hcheck, hcatalog]
    exact h.busy
  moved := by
    rw [hcheck, hcatalog]
    exact h.moved

theorem full_setPremium {status : String} (now : I64) (a : AccountState)
    (h : status = premiumStatusFull) :
    (a.setPremium status now).previewStreak = 0 := by
  show (if status = premiumStatusFull then 0 else a.previewStreak) = 0
  rw [if_pos h]

theorem previewStreak_setPremium {status : String} (now : I64) (a : AccountState)
    (h : status ≠ premiumStatusFull) :
    (a.setPremium status now).previewStreak = a.previewStreak := by
  show (if status = premiumStatusFull then 0 else a.previewStreak) = a.previewStreak
  rw [if_neg h]

/-- A check that is given up. -/
theorem Tracked.skip (h : s.Tracked) (hcheck : s.check = .probing) :
    Tracked { s with check := .idle } where
  judged := h.judged
  counted := by
    intro hplayback
    have hbefore : s.uncounted = 0 := uncounted_of_ne (by rw [hcheck]; decide)
    have hafter : uncounted { s with check := .idle } = 0 :=
      uncounted_of_ne PremiumCheck.noConfusion
    rw [hafter, ← hbefore]
    exact h.counted hplayback
  full := fun hplayback hfull =>
    ⟨(h.full hplayback hfull).left, PremiumCheck.noConfusion,
      PremiumCheck.noConfusion⟩
  third := PremiumCheck.noConfusion
  busy := fun hidle => absurd rfl hidle
  moved := PremiumCheck.noConfusion

theorem Tracked.recordPreview (h : s.Tracked) (hcheck : s.check = .probing)
    (now : I64) : (s.recordCheck premiumStatusPreview now).Tracked := by
  have hplayback : s.account.isCatalog = false :=
    h.busy (by rw [hcheck]; decide) (by rw [hcheck]; decide)
  have hother : premiumStatusPreview ≠ premiumStatusFull := by decide
  have hcounted := h.counted hplayback
  rw [uncounted_of_ne (by rw [hcheck]; decide)] at hcounted
  have hrecorded : (s.recordCheck premiumStatusPreview now).check = .recorded := by
    unfold PremiumWorld.recordCheck
    rw [if_pos rfl]
  constructor
  · exact h.judged
  · intro _
    rw [uncounted_of_recorded hrecorded]
    show (s.account.setPremium premiumStatusPreview now).previewStreak + 1 =
      (previewsSinceFull (s.results ++ [⟨.automatic, premiumStatusPreview⟩]) : Int)
    rw [previewStreak_setPremium now _ hother,
      previewsSinceFull_append (by decide), if_pos (by decide)]
    omega
  · intro _ hfull
    exact absurd hfull hother
  · rw [hrecorded]
    exact PremiumCheck.noConfusion
  · intro _ _
    exact hplayback
  · rw [hrecorded]
    exact PremiumCheck.noConfusion

theorem Tracked.recordCheck (h : s.Tracked) (hcheck : s.check = .probing)
    (status : String) (now : I64) : (s.recordCheck status now).Tracked := by
  by_cases hpreview : status = premiumStatusPreview
  · rw [hpreview]
    exact h.recordPreview hcheck now
  · have hidle : (s.recordCheck status now).check = .idle := if_neg hpreview
    by_cases hfull : status = premiumStatusFull
    · exact (h.skip hcheck).of_full (decide_eq_true hfull)
        ⟨PremiumCheck.noConfusion, PremiumCheck.noConfusion⟩
        (fun _ => full_setPremium now _ hfull) rfl hidle rfl rfl
    · refine (h.skip hcheck).of_same (previewStreak_setPremium now _ hfull)
        (Or.inr hfull) rfl hidle rfl ?_
      have hother : ¬ PremiumResult.previewed ⟨.automatic, status⟩ = true := by
        unfold PremiumResult.previewed
        simp [hpreview]
      show previewsSinceFull (s.results ++ [⟨.automatic, status⟩]) = _
      rw [previewsSinceFull_append (decide_eq_false hfull), if_neg hother,
        Nat.add_zero]

theorem Tracked.countCheck (h : s.Tracked) (hcheck : s.check = .recorded) :
    s.countCheck.Tracked := by
  have hplayback : s.account.isCatalog = false :=
    h.busy (by rw [hcheck]; decide) (by rw [hcheck]; decide)
  have hcounted := h.counted hplayback
  rw [uncounted_of_recorded hcheck] at hcounted
  have hstreak : s.account.countPreview.previewStreak =
      s.account.previewStreak + 1 := rfl
  have hstatus : s.account.premiumStatus ≠ premiumStatusFull := by
    intro hfull
    exact (h.full hplayback hfull).right.left hcheck
  unfold PremiumWorld.countCheck
  dsimp only
  split
  · rename_i hfew
    constructor
    · intro v hv
      rcases List.mem_append.mp hv with hold | hnew
      · exact h.judged v hold
      · rw [List.mem_singleton.mp hnew]
        refine iff_of_false Bool.false_ne_true ?_
        show ¬ PreviewsInARow s.results
        rw [previewsInARow_iff]
        omega
    · intro _
      rw [uncounted_of_ne PremiumCheck.noConfusion, Int.add_zero]
      exact hcounted
    · intro _ hfull
      exact absurd hfull hstatus
    · exact PremiumCheck.noConfusion
    · intro hidle
      exact absurd rfl hidle
    · exact PremiumCheck.noConfusion
  · rename_i hmany
    have hthird :
        previewChecksBeforeCatalog ≤ (previewsSinceFull s.results : Int) := by
      omega
    constructor
    · exact h.judged
    · intro _
      rw [uncounted_of_ne PremiumCheck.noConfusion, Int.add_zero]
      exact hcounted
    · intro _ hfull
      exact absurd hfull hstatus
    · intro _
      exact hthird
    · intro _ _
      exact hplayback
    · exact PremiumCheck.noConfusion

theorem Tracked.flagCatalog (h : s.Tracked) (hcheck : s.check = .moving)
    (now : I64) : (s.flagCatalog now).Tracked where
  judged := by
    intro v hv
    rcases List.mem_append.mp hv with hold | hnew
    · exact h.judged v hold
    · rw [List.mem_singleton.mp hnew]
      exact iff_of_true rfl (previewsInARow_iff.mpr (h.third hcheck))
  counted := fun hplayback => Bool.noConfusion hplayback
  full := fun hplayback => Bool.noConfusion hplayback
  third := PremiumCheck.noConfusion
  busy := fun _ hmoved => absurd rfl hmoved
  moved := fun _ => rfl

theorem Tracked.clearStreak (h : s.Tracked) (hcheck : s.check = .moved) :
    Tracked { s with account := s.account.clearPreviews, check := .idle } where
  judged := h.judged
  counted := fun hplayback =>
    absurd (h.moved hcheck) (Bool.eq_false_iff.mp hplayback)
  full := fun hplayback =>
    absurd (h.moved hcheck) (Bool.eq_false_iff.mp hplayback)
  third := PremiumCheck.noConfusion
  busy := fun hidle => absurd rfl hidle
  moved := PremiumCheck.noConfusion

theorem Tracked.manualCheck (h : s.Tracked) (status : String) (now : I64)
    (hquiet : status = premiumStatusFull ->
      s.check ≠ .recorded ∧ s.check ≠ .moving) :
    Tracked
      { s with
        account := s.account.setPremium status now
        results := s.results ++ [⟨.manual, status⟩] } := by
  by_cases hfull : status = premiumStatusFull
  · exact h.of_full (decide_eq_true hfull) (hquiet hfull)
      (fun _ => full_setPremium now _ hfull) rfl rfl rfl rfl
  · refine h.of_same (previewStreak_setPremium now _ hfull) (Or.inr hfull) rfl rfl
      rfl ?_
    show previewsSinceFull (s.results ++ [⟨.manual, status⟩]) = _
    rw [previewsSinceFull_append (decide_eq_false hfull)]
    rfl

/-- What one call does to the counter, unless a FULL result disturbs a
decision. -/
theorem Tracked.step {a : PremiumAction} (h : s.Tracked)
    (hundisturbed : s.Undisturbed a) (hstep : premiumSystem.step s a = some s') :
    s'.Tracked := by
  have hquiet : s.FullArrives a -> s.check ≠ .recorded ∧ s.check ≠ .moving := by
    intro harrives
    constructor
    · exact fun hrecorded => hundisturbed (Or.inl hrecorded) harrives
    · exact fun hmoving => hundisturbed (Or.inr hmoving) harrives
  cases a with
  | beginCheck now loopStartedAt =>
      simp only [premiumSystem] at hstep
      split at hstep
      · rename_i hdue
        cases hstep
        have hplayback : s.account.isCatalog = false := by
          by_contra hcatalog
          have hnever := fullCheckDue_of_isCatalog
            (Bool.eq_true_of_not_eq_false hcatalog) now loopStartedAt
          rw [hdue.right] at hnever
          cases hnever
        have hbefore : s.uncounted = 0 :=
          uncounted_of_ne (by rw [hdue.left]; decide)
        constructor
        · exact h.judged
        · intro _
          rw [uncounted_of_ne PremiumCheck.noConfusion, ← hbefore]
          exact h.counted hplayback
        · intro _ hfull
          exact ⟨(h.full hplayback hfull).left, PremiumCheck.noConfusion,
            PremiumCheck.noConfusion⟩
        · exact PremiumCheck.noConfusion
        · intro _ _
          exact hplayback
        · exact PremiumCheck.noConfusion
      · cases hstep
  | skipCheck =>
      simp only [premiumSystem] at hstep
      split at hstep
      · rename_i hcheck
        cases hstep
        exact h.skip hcheck
      · cases hstep
  | recordCheck status now =>
      simp only [premiumSystem] at hstep
      split at hstep
      · rename_i hcheck
        cases hstep
        exact h.recordCheck hcheck status now
      · cases hstep
  | countCheck =>
      simp only [premiumSystem] at hstep
      split at hstep
      · rename_i hcheck
        cases hstep
        exact h.countCheck hcheck
      · cases hstep
  | flagCatalog now =>
      simp only [premiumSystem] at hstep
      split at hstep
      · rename_i hcheck
        cases hstep
        exact h.flagCatalog hcheck now
      · cases hstep
  | clearStreak =>
      simp only [premiumSystem] at hstep
      split at hstep
      · rename_i hcheck
        cases hstep
        exact h.clearStreak hcheck
      · cases hstep
  | manualCheck status now =>
      cases hstep
      exact h.manualCheck status now hquiet
  | startConfirm now =>
      cases hstep
      exact h.of_same rfl (Or.inl rfl) rfl rfl rfl rfl
  | readConfirm i =>
      simp only [premiumSystem] at hstep
      split at hstep
      · rename_i now _
        cases hstep
        by_cases hfull : s.account.premiumStatus = premiumStatusFull
        · unfold PremiumWorld.readConfirm
          rw [if_pos hfull]
          exact h.of_full (r := ⟨.traffic, premiumStatusFull⟩) (by decide)
            (hquiet hfull) (fun hplayback => (h.full hplayback hfull).left)
            rfl rfl rfl rfl
        · unfold PremiumWorld.readConfirm
          rw [if_neg hfull]
          exact h.of_same rfl (Or.inl rfl) rfl rfl rfl rfl
      · cases hstep
  | writeConfirm i =>
      simp only [premiumSystem] at hstep
      split at hstep
      · cases hstep
        exact h.of_full (r := ⟨.traffic, premiumStatusFull⟩) (by decide)
          (hquiet trivial) (fun _ => rfl) rfl rfl rfl rfl
      · cases hstep
  | trafficPreview =>
      cases hstep
      unfold PremiumWorld.trafficPreview
      dsimp only
      split
      · exact h.of_same rfl (Or.inl rfl) rfl rfl rfl rfl
      · exact h.of_same rfl (Or.inl rfl) rfl rfl rfl rfl
  | markPreviewOnly now =>
      simp only [premiumSystem] at hstep
      split at hstep
      · cases hstep
      · cases hstep
        have hmarked : premiumStatusPreview ≠ premiumStatusFull := by decide
        exact h.of_same rfl (Or.inr hmarked) rfl rfl rfl rfl

/-- No call is under way, and the counter holds the PREVIEW checks since the
last FULL result known. -/
structure Start (s : PremiumWorld) : Prop where
  idle : s.check = .idle
  verdicts : s.verdicts = []
  counted : s.account.previewStreak = previewsSinceFull s.results
  full : s.account.premiumStatus = premiumStatusFull -> s.account.previewStreak = 0

theorem Start.tracked (h : s.Start) : s.Tracked where
  judged := by
    unfold Judged
    rw [h.verdicts]
    intro v hv
    cases hv
  counted := by
    intro _
    rw [uncounted_of_ne (by rw [h.idle]; decide), Int.add_zero]
    exact h.counted
  full := by
    intro _ hfull
    rw [h.idle]
    exact ⟨h.full hfull, PremiumCheck.noConfusion, PremiumCheck.noConfusion⟩
  third := by
    rw [h.idle]
    exact PremiumCheck.noConfusion
  busy := fun hbusy => absurd h.idle hbusy
  moved := by
    rw [h.idle]
    exact PremiumCheck.noConfusion

/-- Where no FULL result arrives during a decision, an account is moved exactly
after three PREVIEW checks in a row. -/
theorem judged_of_undisturbed (s s' : PremiumWorld) (actions : List PremiumAction)
    (hstart : s.Start) (hrun : premiumSystem.run s actions = some s')
    (hundisturbed : premiumSystem.Along Undisturbed s actions) : s'.Judged := by
  have htracked : s'.Tracked :=
    System.run_invariant_along (I := Tracked)
      (fun _ _ _ h hP hstep => h.step hP hstep) hstart.tracked hundisturbed hrun
  exact htracked.judged

/-- A second of the clock. -/
def second (n : Fin 1000000) : I64 := ⟨n, by omega, by omega⟩

/-- An account that has never been checked. -/
def unchecked : PremiumWorld where
  account := AccountState.new "a" "" "c" "s" "r" none true ""
  check := .idle
  confirming := []
  marking := 0
  results := []
  verdicts := []

/-- Three PREVIEW checks; the third is counted and about to move the account. -/
def threePreviews : List PremiumAction :=
  [.beginCheck (second 10000) 0, .recordCheck premiumStatusPreview (second 10000),
    .countCheck,
    .beginCheck (second 20000) 0, .recordCheck premiumStatusPreview (second 20000),
    .countCheck,
    .beginCheck (second 30000) 0, .recordCheck premiumStatusPreview (second 30000),
    .countCheck]

theorem unchecked_start : unchecked.Start where
  idle := rfl
  verdicts := rfl
  counted := rfl
  full := fun _ => rfl

theorem judged_of_undisturbed_threePreviews :
    exists s', unchecked.Start ∧
      premiumSystem.run unchecked (threePreviews ++ [.flagCatalog (second 30001)]) =
        some s' ∧
      premiumSystem.Along Undisturbed unchecked
        (threePreviews ++ [.flagCatalog (second 30001)]) ∧
      s'.Judged :=
  ⟨_, unchecked_start, rfl, by decide,
    judged_of_undisturbed unchecked _
      (threePreviews ++ [PremiumAction.flagCatalog (second 30001)]) unchecked_start rfl
      (by decide)⟩

/-- A request is answered FULL while the third check waits to set the flag: the
streak is cleared, and the account is moved all the same. -/
def fullBeforeFlag : List PremiumAction :=
  threePreviews ++
    [PremiumAction.startConfirm (second 30001), .readConfirm 0, .writeConfirm 0,
      .flagCatalog (second 30002)]

theorem not_judged_fullBeforeFlag :
    ¬ forall (s s' : PremiumWorld) (actions : List PremiumAction), s.Start ->
      premiumSystem.run s actions = some s' -> s'.Judged := by
  intro h
  have hjudged := h unchecked _ fullBeforeFlag unchecked_start rfl
  have hmoved := (hjudged _ (List.mem_of_getLast? rfl)).mp rfl
  exact absurd (previewsInARow_iff.mp hmoved) (by decide)

end PremiumWorld

end HifiApi
