import HifiApi.Accounts.LeaseSpec
import Mathlib.Data.List.Induction

/-!
# The readiness of accounts

What the overview and the cards of the accounts show, the counts of it, and the size of
the playback pool.  They are computed apart from the choice of an account, and agree
with it.
-/

namespace HifiApi

/-- {lit}`LIVE_PROBE_MAX_AGE_SECS` -/
def liveProbeMaxAgeSecs : Int := 8 * 60 * 60

inductive TokenStatus where
  | missing
  | expired
  | rejected
  | valid
  deriving DecidableEq

inductive Readiness where
  | disabled
  | noToken
  | rateLimited
  | needsCheck
  | previewOnly
  | ready
  deriving DecidableEq

structure AccountAvailability where
  state : Readiness
  token : TokenStatus
  fullCheckFresh : Bool
  metadataReady : Bool

namespace AccountState

def tokenStatus (now : I64) (a : AccountState) : TokenStatus :=
  match a.accessToken.filter (· ≠ "") with
  | none => .missing
  | some token =>
      if a.rejectedAccessToken = some token then .rejected
      else if a.tokenExpiresAt ≤ now.val then .expired
      else .valid

def fullCheckFresh (now : I64) (a : AccountState) : Bool :=
  0 < a.premiumCheckedAt ∧ now.val - liveProbeMaxAgeSecs ≤ a.premiumCheckedAt

def readiness (now : I64) (a : AccountState) : Readiness :=
  if a.isActive = false then .disabled
  else if a.tokenStatus now ≠ .valid then .noToken
  else if now.val < a.rateLimitedUntil then .rateLimited
  else if a.isCatalog then .ready
  else if a.premiumStatus = "preview-only" ∧ a.fullCheckFresh now then .previewOnly
  else if a.premiumStatus ≠ "premium" ∨ a.fullCheckFresh now = false then .needsCheck
  else .ready

def accountAvailability (now : I64) (a : AccountState) : AccountAvailability where
  state := a.readiness now
  token := a.tokenStatus now
  fullCheckFresh := a.fullCheckFresh now
  metadataReady :=
    a.isActive && !decide (now.val < a.rateLimitedUntil) &&
      decide (a.tokenStatus now = .valid)

end AccountState

structure ReadinessCounts where
  total : Nat
  enabled : Nat
  ready : Nat
  disabled : Nat
  noToken : Nat
  rateLimited : Nat
  needsCheck : Nat
  previewOnly : Nat
  metadataReady : Nat
  deriving DecidableEq

namespace ReadinessCounts

def zero : ReadinessCounts := ⟨0, 0, 0, 0, 0, 0, 0, 0, 0⟩

/-- {lit}`include` -/
def including (c : ReadinessCounts) (v : AccountAvailability) : ReadinessCounts :=
  let c :=
    { c with
      total := c.total + 1
      enabled := c.enabled + if v.state = Readiness.disabled then 0 else 1
      metadataReady := c.metadataReady + if v.metadataReady then 1 else 0 }
  match v.state with
  | .ready => { c with ready := c.ready + 1 }
  | .disabled => { c with disabled := c.disabled + 1 }
  | .noToken => { c with noToken := c.noToken + 1 }
  | .rateLimited => { c with rateLimited := c.rateLimited + 1 }
  | .needsCheck => { c with needsCheck := c.needsCheck + 1 }
  | .previewOnly => { c with previewOnly := c.previewOnly + 1 }

/-- The accounts that are shown with a token and no pause. -/
def usable (c : ReadinessCounts) : Nat :=
  c.ready + c.needsCheck + c.previewOnly

end ReadinessCounts

/-- The counts of the overview: all accounts, the playback pool, and the rest. -/
structure AccountReadiness where
  account : ReadinessCounts
  playback : ReadinessCounts
  catalog : ReadinessCounts

namespace AccountReadiness

def zero : AccountReadiness := ⟨.zero, .zero, .zero⟩

def note (now : I64) (r : AccountReadiness) (a : AccountState) : AccountReadiness :=
  let availability := a.accountAvailability now
  let r := { r with account := r.account.including availability }
  if a.isCatalog then { r with catalog := r.catalog.including availability }
  else { r with playback := r.playback.including availability }

/-- The part of {lit}`get_stats` that counts. -/
def ofAccounts (now : I64) (accounts : List AccountState) : AccountReadiness :=
  accounts.foldl (note now) zero

end AccountReadiness

/-- Accounts of the pool that can serve a request right now, and at least one. -/
def AccountManager.playbackSlots (now : I64) (accounts : List AccountState) : Nat :=
  max (accounts.countP fun a =>
    !a.isCatalog && a.isActive && (rateLimitRemaining now a).isNone &&
      a.hasUsableToken now) 1

/-!
## One account
-/

/-- The order in which a request for playback prefers accounts with a token. -/
def Readiness.tier : Readiness -> Nat
  | ready => 0
  | needsCheck => 1
  | previewOnly => 2
  | _ => 3

namespace AccountState

variable {now : I64} {a : AccountState}

theorem rateLimitRemaining_eq_none :
    AccountManager.rateLimitRemaining now a = none <-> a.rateLimitedUntil ≤ now.val := by
  unfold AccountManager.rateLimitRemaining I64.saturate
  dsimp only
  constructor
  · intro h
    split at h
    · cases h
    · omega
  · intro h
    rw [if_neg]
    omega

theorem tokenStatus_eq_valid : a.tokenStatus now = .valid <-> a.hasUsableToken now = true := by
  unfold tokenStatus hasUsableToken
  cases a.accessToken with
  | none =>
      simp
  | some token =>
      by_cases hempty : token = ""
      · simp [Option.filter, hempty]
      · by_cases hrejected : a.rejectedAccessToken = some token
        · simp [Option.filter, hempty, hrejected]
        · by_cases hexpired : a.tokenExpiresAt ≤ now.val
          · simp [Option.filter, hempty, hrejected, hexpired]
          · simp [Option.filter, hempty, hrejected, hexpired, Int.not_le.mp hexpired]

/-- What is shown as ready for metadata is on, with a token and no pause. -/
theorem metadataReady_eq : (a.accountAvailability now).metadataReady =
    (a.isActive && (AccountManager.rateLimitRemaining now a).isNone &&
      a.hasUsableToken now) := by
  have hpause : (!decide (now.val < a.rateLimitedUntil)) =
      (AccountManager.rateLimitRemaining now a).isNone := by
    rw [Bool.eq_iff_iff, Option.isNone_iff_eq_none, rateLimitRemaining_eq_none]
    simp
  have htoken : decide (a.tokenStatus now = .valid) = a.hasUsableToken now := by
    rw [Bool.eq_iff_iff, decide_eq_true_iff, tokenStatus_eq_valid]
  rw [accountAvailability, hpause, htoken]

/-- An account that is on and has a token is shown by its pause, and without one by
its last check. -/
theorem readiness_cases :
    (a.readiness now = .disabled <-> a.isActive = false) ∧
    (a.readiness now = .noToken <-> a.isActive = true ∧ a.hasUsableToken now = false) ∧
    (a.readiness now = .rateLimited <->
      a.isActive = true ∧ a.hasUsableToken now = true ∧ now.val < a.rateLimitedUntil) ∧
    ((a.accountAvailability now).metadataReady = true <->
      a.readiness now = .ready ∨ a.readiness now = .needsCheck ∨
        a.readiness now = .previewOnly) := by
  have htoken : a.tokenStatus now = .valid <-> a.hasUsableToken now = true :=
    tokenStatus_eq_valid
  simp only [accountAvailability, Bool.and_eq_true, decide_eq_true_iff, Bool.not_eq_true',
    <- htoken, <- Bool.not_eq_true]
  unfold readiness
  by_cases hactive : a.isActive = true
  · by_cases hvalid : a.tokenStatus now = .valid
    · by_cases hpaused : now.val < a.rateLimitedUntil
      · simp [hactive, hvalid, hpaused]
      · simp only [hactive, hvalid, hpaused]
        split_ifs <;> simp_all
    · simp [hactive, hvalid]
  · simp [hactive]

theorem shown_of_metadataReady (h : (a.accountAvailability now).metadataReady = true) :
    a.isActive = true ∧ a.tokenStatus now = .valid ∧ ¬ now.val < a.rateLimitedUntil := by
  simp only [accountAvailability, Bool.and_eq_true, decide_eq_true_iff, Bool.not_eq_true',
    decide_eq_false_iff_not] at h
  exact ⟨h.left.left, h.right, h.left.right⟩

/-- The tier of a lease is the one that is shown. -/
theorem fullTier_of_metadataReady (hcatalog : a.isCatalog = false)
    (h : (a.accountAvailability now).metadataReady = true) :
    a.fullTier now = (a.readiness now).tier := by
  rcases shown_of_metadataReady h with ⟨hactive, hvalid, hpause⟩
  have hshown : a.readiness now =
      if a.premiumStatus = "preview-only" ∧ a.fullCheckFresh now then .previewOnly
      else if a.premiumStatus ≠ "premium" ∨ a.fullCheckFresh now = false then .needsCheck
      else .ready := by
    simp [readiness, hactive, hvalid, hpause, hcatalog]
  rw [hshown]
  unfold fullTier
  by_cases hstale : a.premiumCheckedAt ≤ 0 ∨ a.premiumCheckedAt < now.val - 8 * 60 * 60
  · have hfresh : a.fullCheckFresh now = false := by
      apply decide_eq_false
      unfold liveProbeMaxAgeSecs
      omega
    rw [if_pos hstale]
    simp [hfresh, Readiness.tier]
  · have hfresh : a.fullCheckFresh now = true := by
      apply decide_eq_true
      unfold liveProbeMaxAgeSecs
      omega
    rw [if_neg hstale]
    by_cases hpremium : a.premiumStatus = "premium"
    · simp [hpremium, hfresh, Readiness.tier]
    · by_cases hpreview : a.premiumStatus = "preview-only"
      · simp [hpreview, hfresh, Readiness.tier]
      · simp [hpremium, hpreview, Readiness.tier]

end AccountState

/-!
## The counts
-/

namespace ReadinessCounts

/-- Every account is counted in one state, and the ready ones are those with a token and
no pause. -/
structure Balanced (c : ReadinessCounts) : Prop where
  total : c.total = c.ready + c.disabled + c.noToken + c.rateLimited + c.needsCheck +
    c.previewOnly
  enabled : c.enabled + c.disabled = c.total
  metadataReady : c.metadataReady = c.usable

theorem Balanced.including {c : ReadinessCounts} (h : c.Balanced) (now : I64)
    (a : AccountState) : (c.including (a.accountAvailability now)).Balanced := by
  rcases h with ⟨htotal, henabled, hready⟩
  have hmetadata := (@AccountState.readiness_cases now a).right.right.right
  have hstate : (a.accountAvailability now).state = a.readiness now := rfl
  unfold usable at hready
  cases hshown : a.readiness now with
  | _ =>
      rw [hshown] at hmetadata hstate
      simp only [reduceCtorEq, or_false, false_or, or_self, iff_true, iff_false] at hmetadata
      constructor
      · simp only [ReadinessCounts.including, hstate]
        omega
      · simp only [ReadinessCounts.including, hstate, reduceCtorEq, if_true, if_false]
        omega
      · simp only [ReadinessCounts.including, hstate, hmetadata, usable, if_true, if_false,
          Bool.false_eq_true]
        omega

def plus (c d : ReadinessCounts) : ReadinessCounts where
  total := c.total + d.total
  enabled := c.enabled + d.enabled
  ready := c.ready + d.ready
  disabled := c.disabled + d.disabled
  noToken := c.noToken + d.noToken
  rateLimited := c.rateLimited + d.rateLimited
  needsCheck := c.needsCheck + d.needsCheck
  previewOnly := c.previewOnly + d.previewOnly
  metadataReady := c.metadataReady + d.metadataReady

theorem plus_including (c d : ReadinessCounts) (v : AccountAvailability) :
    c.plus (d.including v) = (c.plus d).including v := by
  unfold plus including
  cases v.state with
  | _ =>
      simp only [Nat.add_assoc]

theorem including_plus (c d : ReadinessCounts) (v : AccountAvailability) :
    (c.including v).plus d = (c.plus d).including v := by
  unfold plus including
  cases v.state with
  | _ =>
      simp only [Nat.add_right_comm]

theorem total_including (c : ReadinessCounts) (v : AccountAvailability) :
    (c.including v).total = c.total + 1 := by
  unfold including
  cases v.state with
  | _ =>
      rfl

theorem metadataReady_including (c : ReadinessCounts) (v : AccountAvailability) :
    (c.including v).metadataReady = c.metadataReady + if v.metadataReady then 1 else 0 := by
  unfold including
  cases v.state with
  | _ =>
      rfl

end ReadinessCounts

namespace AccountReadiness

/-- What the counts say of the accounts they are of. -/
structure Tells (now : I64) (accounts : List AccountState) (r : AccountReadiness) : Prop where
  split : r.account = r.playback.plus r.catalog
  listed : r.account.total = accounts.length
  playback : r.playback.Balanced
  catalog : r.catalog.Balanced
  pool : r.playback.metadataReady = accounts.countP fun a =>
    !a.isCatalog && (a.accountAvailability now).metadataReady
  spare : r.catalog.metadataReady = accounts.countP fun a =>
    a.isCatalog && (a.accountAvailability now).metadataReady

variable {now : I64}

theorem tells_zero : zero.Tells now [] where
  split := rfl
  listed := rfl
  playback := ⟨rfl, rfl, rfl⟩
  catalog := ⟨rfl, rfl, rfl⟩
  pool := rfl
  spare := rfl

theorem Tells.note {accounts : List AccountState} {r : AccountReadiness}
    (h : r.Tells now accounts) (a : AccountState) :
    (note now r a).Tells now (accounts ++ [a]) := by
  unfold AccountReadiness.note
  dsimp only
  split
  · rename_i hcatalog
    constructor
    · dsimp only
      rw [h.split, ReadinessCounts.plus_including]
    · dsimp only
      rw [ReadinessCounts.total_including, h.listed, List.length_append]
      rfl
    · exact h.playback
    · exact h.catalog.including now a
    · dsimp only
      rw [h.pool, List.countP_append]
      simp [hcatalog]
    · dsimp only
      rw [ReadinessCounts.metadataReady_including, h.spare, List.countP_append,
        List.countP_singleton]
      simp [hcatalog]
  · rename_i hplayback
    constructor
    · dsimp only
      rw [h.split, ReadinessCounts.including_plus]
    · dsimp only
      rw [ReadinessCounts.total_including, h.listed, List.length_append]
      rfl
    · exact h.playback.including now a
    · exact h.catalog
    · dsimp only
      rw [ReadinessCounts.metadataReady_including, h.pool, List.countP_append,
        List.countP_singleton]
      simp [hplayback]
    · dsimp only
      rw [h.spare, List.countP_append]
      simp [hplayback]

theorem tells_ofAccounts (now : I64) (accounts : List AccountState) :
    (ofAccounts now accounts).Tells now accounts := by
  induction accounts using List.reverseRecOn with
  | nil =>
      exact tells_zero
  | append_singleton accounts a ih =>
      rw [ofAccounts, List.foldl_append]
      exact ih.note a

end AccountReadiness

/-!
## Leases
-/

namespace AccountState

variable {now : I64} {a : AccountState}

/-- It is shown with a token and no pause, or without a token that may be refreshed. -/
def ShownFit (now : I64) (a : AccountState) : Prop :=
  (a.accountAvailability now).metadataReady = true ∨
    a.readiness now = .noToken ∧ a.healNextRetry ≤ now.val

theorem shownFit_of_warm (hactive : a.isActive = true)
    (hunpaused : AccountManager.rateLimitRemaining now a = none)
    (hwarm : a.refreshCooldown now = none) : a.ShownFit now := by
  cases htoken : a.hasUsableToken now with
  | true =>
      left
      rw [metadataReady_eq, hactive, hunpaused, htoken]
      rfl
  | false =>
      right
      refine ⟨readiness_cases.right.left.mpr ⟨hactive, htoken⟩, ?_⟩
      unfold refreshCooldown at hwarm
      split at hwarm
      · rename_i hdue
        rw [htoken] at hdue
        exact hdue.resolve_right Bool.false_ne_true
      · cases hwarm

theorem warm_of_metadataReady (h : (a.accountAvailability now).metadataReady = true) :
    a.isActive = true ∧ AccountManager.rateLimitRemaining now a = none ∧
      a.refreshCooldown now = none := by
  rw [metadataReady_eq, Bool.and_eq_true, Bool.and_eq_true, Option.isNone_iff_eq_none] at h
  exact ⟨h.left.left, h.left.right, if_pos (Or.inr h.right)⟩

end AccountState

namespace AccountManager

theorem playbackSlots_eq (now : I64) (accounts : List AccountState) :
    playbackSlots now accounts =
      max (AccountReadiness.ofAccounts now accounts).playback.usable 1 := by
  have htells := AccountReadiness.tells_ofAccounts now accounts
  rw [<- htells.playback.metadataReady, htells.pool]
  unfold playbackSlots
  simp only [AccountState.metadataReady_eq, Bool.and_assoc]

theorem LeaseRequest.tier_le_of_rank_le {q : LeaseRequest} {a b : AccountState}
    (h : q.rank a ≤ q.rank b) : q.tier a ≤ q.tier b := by
  rcases Prod.Lex.toLex_le_toLex.mp h with hlt | heq
  · exact Nat.le_of_lt hlt
  · exact Nat.le_of_eq heq.left

/-- A request fails only if no account it could go to is shown fit. -/
theorem not_metadataReady_of_error {q : LeaseRequest} {cells : Nat -> AccountState}
    {roster : List Nat} {rrSeq : U64} {e : AppError}
    (h : tryLease q cells roster rrSeq = .error e) {p : Nat} (hp : p ∈ roster)
    (hcatalog : (cells p).isCatalog = false) (hid : (cells p).id ∉ q.excludeIds) :
    ((cells p).accountAvailability q.now).metadataReady = false := by
  rw [<- Bool.not_eq_true]
  intro hready
  rcases AccountState.warm_of_metadataReady hready with ⟨hactive, hunpaused, hwarm⟩
  have hserves : q.Serves (cells p) := ⟨hactive, hcatalog, hid, hunpaused, hwarm⟩
  have hspec := q.specified_tryLease cells roster rrSeq
  rw [h] at hspec
  by_cases hfree : exists p', p' ∈ roster ∧ q.Serves (cells p') ∧ q.Free (cells p')
  · rcases hspec.leases.mpr hfree with ⟨p', hok⟩
    cases hok
  · have hwaits := hspec.waits.mpr
      ⟨⟨p, hp, hserves⟩, fun p' hp' hs hf => hfree ⟨p', hp', hs, hf⟩⟩
    cases hwaits

theorem shownFit_of_slot {limit : Nat} {now : I64} {cells : Nat -> AccountState}
    {roster : List Nat} {catalogRr : U64} {p : Nat}
    (h : claimCatalogSlot limit now cells roster catalogRr = .slot p) :
    (cells p).ShownFit now := by
  have hserves := (claimCatalogSlot_eq_slot h).right.left
  simp only [servesCatalog, Bool.and_eq_true, Option.isNone_iff_eq_none] at hserves
  exact AccountState.shownFit_of_warm hserves.left.left.right hserves.left.right hserves.right

theorem not_metadataReady_of_unavailable {limit : Nat} {now : I64}
    {cells : Nat -> AccountState} {roster : List Nat} {catalogRr : U64}
    (h : claimCatalogSlot limit now cells roster catalogRr = .unavailable) {p : Nat}
    (hp : p ∈ roster) (hcatalog : (cells p).isCatalog = true) :
    ((cells p).accountAvailability now).metadataReady = false := by
  rw [<- Bool.not_eq_true]
  intro hready
  rcases AccountState.warm_of_metadataReady hready with ⟨hactive, hunpaused, hwarm⟩
  have hserves : servesCatalog now (cells p) = true := by
    simp [servesCatalog, hcatalog, hactive, hunpaused, hwarm]
  have hmem : p ∈ roster.filter fun p => servesCatalog now (cells p) :=
    List.mem_filter.mpr ⟨hp, hserves⟩
  unfold claimCatalogSlot at h
  dsimp only at h
  rw [if_neg (List.ne_nil_of_mem hmem)] at h
  split at h
  · cases h
  · cases h

/-- What the panel shows and the choice of accounts agree, as of one time and for every
roster: each account is counted once, in one state; the playback pool is as large as the
accounts shown with a token and no pause, and at least one; a request goes to an account
that is shown fit, for playback never to one that is shown worse than another it could
have gone to; and it fails only if none is shown fit.  The same holds of slots for
metadata. -/
theorem readiness_explains_choice (q : LeaseRequest) (cells : Nat -> AccountState)
    (roster : List Nat) (rrSeq catalogRr : U64) (limit : Nat) :
    (AccountReadiness.ofAccounts q.now (roster.map cells)).Tells q.now (roster.map cells) ∧
    playbackSlots q.now (roster.map cells) =
      max (AccountReadiness.ofAccounts q.now (roster.map cells)).playback.usable 1 ∧
    (forall p, tryLease q cells roster rrSeq = .ok (some p) ->
      (cells p).ShownFit q.now ∧
      (q.kind = .playback -> forall p', p' ∈ roster -> q.Serves (cells p') ->
        q.Free (cells p') -> (cells p).readiness q.now ≠ .noToken ->
        (cells p').readiness q.now ≠ .noToken ->
          ((cells p).readiness q.now).tier ≤ ((cells p').readiness q.now).tier)) ∧
    (forall e, tryLease q cells roster rrSeq = .error e ->
      forall p, p ∈ roster -> (cells p).isCatalog = false -> (cells p).id ∉ q.excludeIds ->
        ((cells p).accountAvailability q.now).metadataReady = false) ∧
    (forall p, claimCatalogSlot limit q.now cells roster catalogRr = .slot p ->
      (cells p).ShownFit q.now) ∧
    (claimCatalogSlot limit q.now cells roster catalogRr = .unavailable ->
      forall p, p ∈ roster -> (cells p).isCatalog = true ->
        ((cells p).accountAvailability q.now).metadataReady = false) := by
  refine ⟨AccountReadiness.tells_ofAccounts _ _, playbackSlots_eq _ _, ?_, ?_, ?_, ?_⟩
  · intro p h
    rcases (q.specified_tryLease cells roster rrSeq).least p h with
      ⟨_, hserves, _, hleast⟩
    have hfit := AccountState.shownFit_of_warm hserves.active hserves.unpaused hserves.warm
    refine ⟨hfit, ?_⟩
    intro hkind p' hp' hserves' hfree' hshown hshown'
    have hfit' := AccountState.shownFit_of_warm hserves'.active hserves'.unpaused hserves'.warm
    have hready := hfit.resolve_right fun hnone => hshown hnone.left
    have hready' := hfit'.resolve_right fun hnone => hshown' hnone.left
    have htier := LeaseRequest.tier_le_of_rank_le (hleast p' hp' hserves' hfree')
    unfold LeaseRequest.tier at htier
    rw [hkind] at htier
    dsimp only at htier
    rw [AccountState.fullTier_of_metadataReady hserves.playback hready,
      AccountState.fullTier_of_metadataReady hserves'.playback hready'] at htier
    exact htier
  · exact fun e h p hp hcatalog hid => not_metadataReady_of_error h hp hcatalog hid
  · exact fun p h => shownFit_of_slot h
  · exact fun h p hp hcatalog => not_metadataReady_of_unavailable h hp hcatalog

/-- An account with a token, by its last check. -/
def checkedAccount (id status : String) : AccountState :=
  { NewAccount.record ⟨id, id, "c", "s", id, none⟩ (.ofNat 1) with
    accessToken := some "t"
    tokenExpiresAt := 1000
    premiumCheckedAt := 50
    premiumStatus := status }

def oneFull (p : Nat) : AccountState :=
  if p = 0 then checkedAccount "a" "preview-only" else checkedAccount "b" "premium"

def playbackRequest : LeaseRequest :=
  ⟨[], .playback, ⟨1, 0, 0⟩, .ofNat 100, 100000, fun _ => 0⟩

theorem readiness_explains_choice_full :
    tryLease playbackRequest oneFull [0, 1] (.ofNat 0) = .ok (some 1) ∧
      (oneFull 1).ShownFit (.ofNat 100) ∧
      ((oneFull 1).readiness (.ofNat 100)).tier ≤ ((oneFull 0).readiness (.ofNat 100)).tier := by
  have hlease : tryLease playbackRequest oneFull [0, 1] (.ofNat 0) = .ok (some 1) := by
    rfl
  rcases (readiness_explains_choice playbackRequest oneFull [0, 1] (.ofNat 0) (.ofNat 0)
    1).right.right.left 1 hlease with ⟨hfit, htier⟩
  refine ⟨hlease, hfit, ?_⟩
  apply htier rfl 0
  · decide
  · exact LeaseRequest.usable_iff playbackRequest |>.mp (by decide)
  · exact LeaseRequest.admits_iff playbackRequest |>.mp (by decide)
  · decide
  · decide

end AccountManager

end HifiApi
