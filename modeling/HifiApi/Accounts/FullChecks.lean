import HifiApi.Tokens.Manager

/-!
# FULL checks

When an account is due for the automatic check whether its tracks come back
FULL, and how many PREVIEW answers it takes to act on them.
-/

namespace HifiApi

/-- {lit}`PREVIEW_CHECKS_BEFORE_CATALOG` -/
def previewChecksBeforeCatalog : Int := 3

def fullCheckIntervalSecs : Int := 60 * 60
def fullCheckInitialSpreadSecs : Int := 5 * 60
def fullCheckRepeatSpreadSecs : Int := 15 * 60

/-- {lit}`account_spread_secs`: a share of the window that depends on the id. -/
def accountSpreadSecs (accountId : String) (windowSecs : Int) : Int :=
  let hash := accountId.toUTF8.data.toList.foldl
    (fun (hash : UInt64) byte => hash * 0x100000001b3 ^^^ byte.toUInt64)
    0xcbf29ce484222325
  (hash.toNat % (max windowSecs 1).toNat : Nat)

/-- {lit}`full_check_due` -/
def fullCheckDue (a : AccountState) (now : I64) (loopStartedAt : Int) : Bool :=
  if !a.isActive || a.isCatalog ||
      (AccountManager.rateLimitRemaining now a).isSome then
    false
  else
    let checkedAt := a.premiumCheckedAt
    let dueAt :=
      if 0 < checkedAt then
        checkedAt + fullCheckIntervalSecs +
          accountSpreadSecs a.id fullCheckRepeatSpreadSecs
      else
        loopStartedAt + accountSpreadSecs a.id fullCheckInitialSpreadSecs
    decide (dueAt ≤ now.val)

/-- {lit}`TRAFFIC_PREVIEWS_BEFORE_PREVIEW_ONLY` -/
def trafficPreviewsBeforePreviewOnly : Nat := 10

/-- The result of a FULL answer. -/
def premiumStatusFull : String := "premium"

/-- The result of a PREVIEW answer. -/
def premiumStatusPreview : String := "preview-only"

/-- {lit}`set_premium`: only a confirmed FULL result ends a PREVIEW streak. -/
def AccountState.setPremium (status : String) (now : I64) (a : AccountState) :
    AccountState :=
  { a with
    premiumStatus := status
    premiumCheckedAt := now.val
    trafficPreviewStreak :=
      if status = premiumStatusFull then 0 else a.trafficPreviewStreak
    previewStreak := if status = premiumStatusFull then 0 else a.previewStreak }

/-- What {lit}`confirm_full` writes unless it returns early. -/
def AccountState.confirmFull (now : I64) (a : AccountState) : AccountState :=
  { a with
    premiumStatus := premiumStatusFull
    premiumCheckedAt := now.val
    previewStreak := 0 }

/-- The mark of {lit}`note_traffic_preview`. -/
def AccountState.markPreviewOnly (now : I64) (a : AccountState) : AccountState :=
  { a with
    premiumStatus := premiumStatusPreview
    premiumCheckedAt := now.val }

/-- One more PREVIEW answer of an automatic check. -/
def AccountState.countPreview (a : AccountState) : AccountState :=
  { a with previewStreak := a.previewStreak + 1 }

def AccountState.clearPreviews (a : AccountState) : AccountState :=
  { a with previewStreak := 0 }

theorem countPreview_id (a : AccountState) : a.countPreview.id = a.id := rfl

theorem clearPreviews_id (a : AccountState) : a.clearPreviews.id = a.id := rfl

/-- What decides whether a check is due. -/
def AccountState.checkFields (a : AccountState) :
    String × Bool × Bool × Int × Int :=
  (a.id, a.isActive, a.isCatalog, a.rateLimitedUntil, a.premiumCheckedAt)

theorem fullCheckDue_congr {a b : AccountState}
    (h : a.checkFields = b.checkFields) (now : I64) (loopStartedAt : Int) :
    fullCheckDue a now loopStartedAt = fullCheckDue b now loopStartedAt := by
  simp only [AccountState.checkFields, Prod.mk.injEq] at h
  rcases h with ⟨hid, hactive, hcatalog, hpaused, hchecked⟩
  unfold fullCheckDue AccountManager.rateLimitRemaining
  rw [hid, hactive, hcatalog, hpaused, hchecked]

/-- A catalog account is never checked. -/
theorem fullCheckDue_of_isCatalog {a : AccountState} (h : a.isCatalog = true)
    (now : I64) (loopStartedAt : Int) :
    fullCheckDue a now loopStartedAt = false := by
  unfold fullCheckDue
  rw [if_pos]
  simp [h]

end HifiApi
