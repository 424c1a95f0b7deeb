import HifiApi.Accounts.FullChecks
import HifiApi.Lib.Pacing
import HifiApi.Lib.System
import HifiApi.Tokens.Cooldown

/-!
# The healing loop

A pass of the loop comes to each account: it may switch it off, refresh its token,
check whether its tracks come back FULL and ask Tidal for its subscription.  The
pass waits between these, and other tasks write to the same record meanwhile.  The
alerts of a pass go to the notifier and are left out.
-/

namespace HifiApi

def subscriptionCheckIntervalSecs : Int := 24 * 60 * 60
def subscriptionInitialSpreadSecs : Int := 10 * 60
def subscriptionRepeatSpreadSecs : Int := 60 * 60

/-- A failed check is retried after this long. -/
def subscriptionRetrySecs : Int := 60 * 60

/-- A fresh token also checks the subscription, unless it was checked this recently. -/
def subscriptionAfterRefreshSecs : Int := 60 * 60

/-- {lit}`subscription_check_due` -/
def subscriptionCheckDue (a : AccountState) (now : I64) (loopStartedAt : Int) : Bool :=
  if !a.isActive || a.isCatalog || (AccountManager.rateLimitRemaining now a).isSome then
    false
  else
    let checkedAt := a.subscriptionCheckedAt
    let failedAt := a.subscriptionErrorAt
    let dueAt :=
      if 0 < failedAt then
        failedAt + subscriptionRetrySecs
      else if 0 < checkedAt then
        checkedAt + subscriptionCheckIntervalSecs +
          accountSpreadSecs a.id subscriptionRepeatSpreadSecs
      else
        loopStartedAt + accountSpreadSecs a.id subscriptionInitialSpreadSecs
    decide (dueAt ≤ now.val)

/-- {lit}`subscription_is_free` -/
def subscriptionIsFree (subscription : Value) : Bool :=
  let plan :=
    ((subscription.index "subscription").index "type").asStr <|>
      (subscription.index "type").asStr
  decide ((subscription.index "premiumAccess").asBool ≠ some true) &&
    plan.any fun plan => decide (plan.toList.map Char.toUpper = "FREE".toList)

namespace AccountState

/-- {lit}`store_subscription` in memory -/
def storeSubscription (subscription : Value) (checkedAt : I64) (a : AccountState) :
    AccountState :=
  { a with
    subscription := some subscription
    subscriptionError := none
    subscriptionErrorAt := 0
    subscriptionCheckedAt := checkedAt.val }

/-- {lit}`store_subscription_error` in memory -/
def storeSubscriptionError (error : String) (failedAt : I64) (a : AccountState) :
    AccountState :=
  { a with
    subscriptionError := some error
    subscriptionErrorAt := failedAt.val }

/-- What {lit}`apply_subscription` does to the record. -/
def applySubscription (subscription : Value) (checkedAt now : I64) (a : AccountState) :
    AccountState :=
  let a := a.storeSubscription subscription checkedAt
  if subscriptionIsFree subscription && !a.isCatalog then
    a.setAccountCatalog true now
  else
    a

/-- What {lit}`note_preview_check` does to the record, whose flag SQLite may refuse. -/
def notePreviewCheck (now : I64) (saved : Bool) (a : AccountState) : AccountState :=
  let a := a.countPreview
  if a.previewStreak < previewChecksBeforeCatalog then
    a
  else
    let a := a.setAccountCatalog true now
    if saved then a.clearPreviews else a

end AccountState

namespace Autoheal

/-!
## One pass over one account
-/

/-- What a pass has found due.  It is {lit}`whole` while the account could be
checked when it was looked at and nothing that was due has been skipped. -/
structure Pass where
  now : I64
  refresh : Bool
  full : Bool
  subscription : Bool
  whole : Bool

inductive Stage where
  | idle
  | sleeping (p : Pass)
  | refreshing (p : Pass)
  | toCheck (p : Pass)
  | probing (p : Pass) (since : I64)
  | toAsk (p : Pass)
  | asking (p : Pass) (now : I64)

/-- The record of an account, the clock, and the pass that has come to it. -/
structure World where
  account : AccountState
  now : I64
  loopStartedAt : I64
  stage : Stage

inductive Action where
  | elapse (now : I64)
  | pass (maxSecs : Int) (saved : Bool)
  | wake
  | refreshed (ok : Bool)
  | check
  | probed (status : String) (saved : Bool)
  | ask
  | answered (result : Except String Value)
  /-- A check by hand, whose answer is kept under a time of its own. -/
  | subscribed (subscription : Value) (checkedAt : I64)
  | subscriptionFailed (error : String) (failedAt : I64)
  /-- Anything else that happens to the record. -/
  | others (a : AccountState)

/-- What a run notes: a FULL check or a question for the subscription that is
started, and a whole pass under the time it was decided at. -/
inductive Mark where
  | probed (t : Int)
  | asked (t : Int)
  | whole (t : Int)

namespace World

/-- What the pass finds due, with the record as it is after the switch. -/
def decided (w : World) (a : AccountState) : Pass :=
  let cooling := decide (w.now.val < a.healNextRetry)
  let limited := (AccountManager.rateLimitRemaining w.now a).isSome
  { now := w.now
    refresh := TokenManager.refreshDue w.now w.account
    full := !cooling && !limited && fullCheckDue a w.now w.loopStartedAt.val
    subscription := !cooling && !limited && subscriptionCheckDue a w.now w.loopStartedAt.val
    whole := !cooling && !limited && a.isActive && !a.isCatalog }

def begin (w : World) (a : AccountState) : World × List Mark :=
  let p := w.decided a
  if !p.refresh && !p.full && !p.subscription then
    ({ w with account := a }, if p.whole then [.whole p.now.val] else [])
  else
    ({ w with account := a, stage := .sleeping p }, [])

/-- The pass reads the switches first; where SQLite refuses the switch of
{lit}`disable_after_auth_failures` it goes on. -/
def pass (w : World) (maxSecs : Int) (saved : Bool) : World × List Mark :=
  if !w.account.isActive && !w.account.autoDisabled then
    (w, [])
  else
    match w.account.disableAfterAuthFailures maxSecs w.now with
    | none => w.begin w.account
    | some a => if saved then ({ w with account := a }, []) else w.begin a

/-- After the refresh: a fresh token also checks the subscription. -/
def refreshed (w : World) (p : Pass) : World :=
  let lastAttempt := max w.account.subscriptionCheckedAt w.account.subscriptionErrorAt
  let due :=
    decide (subscriptionAfterRefreshSecs ≤ p.now.val - lastAttempt) && !w.account.isCatalog
  { w with
    account := (w.account.setSystemDisabled false w.now).getD w.account
    stage := .toCheck { p with subscription := p.subscription || due } }

def check (w : World) (p : Pass) : World × List Mark :=
  if p.full && w.account.isActive &&
      (AccountManager.rateLimitRemaining w.now w.account).isNone then
    ({ w with stage := .probing p w.now }, [.probed w.now.val])
  else
    ({ w with stage := .toAsk { p with whole := p.whole && !p.full } }, [])

def probed (w : World) (p : Pass) (status : String) (saved : Bool) : World :=
  let a := w.account.setPremium status w.now
  { w with
    account := if status = premiumStatusPreview then a.notePreviewCheck w.now saved else a
    stage := .toAsk p }

def ask (w : World) (p : Pass) : World × List Mark :=
  if p.subscription && w.account.isActive then
    ({ w with stage := .asking p w.now }, [.asked w.now.val])
  else
    ({ w with stage := .idle },
      if p.whole && !p.subscription then [.whole p.now.val] else [])

def answered (w : World) (p : Pass) (since : I64) (result : Except String Value) :
    World × List Mark :=
  ({ w with
      account :=
        match result with
        | .ok subscription => w.account.applySubscription subscription since w.now
        | .error error => w.account.storeSubscriptionError error since
      stage := .idle },
    if p.whole then [.whole p.now.val] else [])

/-- What the checks read of a record: its name, its times and its answers. -/
def checkTimes (a : AccountState) : String × Int × Int :=
  (a.id, a.subscriptionCheckedAt, a.subscriptionErrorAt)

/-- An action with what the run notes of it. -/
def turn (w : World) : Action -> Option (World × List Mark)
  | .elapse now => if w.now ≤ now then some ({ w with now := now }, []) else none
  | .pass maxSecs saved =>
      match w.stage with
      | .idle => some (w.pass maxSecs saved)
      | _ => none
  | .wake =>
      match w.stage with
      | .sleeping p =>
          some ({ w with stage := if p.refresh then .refreshing p else .toCheck p }, [])
      | _ => none
  | .refreshed ok =>
      match w.stage with
      | .refreshing p =>
          some (if ok then w.refreshed p else { w with stage := .idle }, [])
      | _ => none
  | .check =>
      match w.stage with
      | .toCheck p => some (w.check p)
      | _ => none
  | .probed status saved =>
      match w.stage with
      | .probing p _ => some (w.probed p status saved, [])
      | _ => none
  | .ask =>
      match w.stage with
      | .toAsk p => some (w.ask p)
      | _ => none
  | .answered result =>
      match w.stage with
      | .asking p since => some (w.answered p since result)
      | _ => none
  | .subscribed subscription checkedAt =>
      some
        ({ w with account := w.account.applySubscription subscription checkedAt w.now }, [])
  | .subscriptionFailed error failedAt =>
      some ({ w with account := w.account.storeSubscriptionError error failedAt }, [])
  | .others a =>
      if checkTimes a = checkTimes w.account then
        some ({ w with account := a }, [])
      else
        none

def system : System World Action := ⟨fun w a => (w.turn a).map Prod.fst⟩

def marks (w : World) (a : Action) : List Mark := ((w.turn a).map Prod.snd).getD []

end World

end Autoheal

end HifiApi
