import HifiApi.Lib.Turns
import HifiApi.Tokens.Manager
import Mathlib.Data.Prod.Lex

/-!
# The choice of an account

How a request gets an account: the accounts that may serve it, their order, and
the counters that the choice moves.  The accounts are pointers into a memory of
records.  One reading of the clock serves a whole choice, and the time of last
use with the weight of recent errors, a floating point number, is an argument.
-/

namespace HifiApi

/-- What a pool lease is used for. -/
inductive LeaseKind where
  | playback
  | metadata
  deriving DecidableEq

/-- Limits a pool lease must respect; 0 turns each one off. -/
structure LeaseRules where
  concurrency : Nat
  restMs : Nat
  perHour : Nat

/-- One request in flight on a pool account. -/
structure PlaybackLease where
  account : Nat
  kind : LeaseKind
  restMs : Nat

inductive CatalogClaim where
  | slot (account : Nat)
  | busy
  | unavailable
  deriving DecidableEq

namespace AccountState

/-- Requests of any kind that this playback account is sending to Tidal. -/
def poolInflight (a : AccountState) : Nat :=
  a.playbackInflight + a.metadataInflight

def requestsLastHour (nowMs : Int) (a : AccountState) : Nat :=
  (a.hourPicks.dropWhile fun at_ => at_ ≤ nowMs - 3600000).length

/-- Confidence in full playback: 0 confirmed, 1 not checked lately, 2 recently
refused. -/
def fullTier (now : I64) (a : AccountState) : Nat :=
  if a.premiumCheckedAt ≤ 0 ∨ a.premiumCheckedAt < now.val - 8 * 60 * 60 then 1
  else if a.premiumStatus = "premium" then 0
  else if a.premiumStatus = "preview-only" then 2
  else 1

/-- A token Tidal accepts right now. -/
def hasUsableToken (now : I64) (a : AccountState) : Bool :=
  match a.accessToken with
  | none => false
  | some token =>
      token ≠ "" ∧ now.val < a.tokenExpiresAt ∧
        a.rejectedAccessToken ≠ some token

/-- Seconds until an account without a usable token may refresh again. -/
def refreshCooldown (now : I64) (a : AccountState) : Option Nat :=
  if a.healNextRetry ≤ now.val ∨ a.hasUsableToken now then none
  else some (a.healNextRetry - now.val).toNat

/-- A slot for metadata is free; a limit of 0 means unlimited. -/
def hasCatalogSlot (limit : Nat) (a : AccountState) : Bool :=
  limit = 0 ∨ a.catalogInflight < limit

/-- {lit}`note_selection` -/
def noteSelection (nowMs : Int) (a : AccountState) : AccountState :=
  { a with
    lastUsed := nowMs.tdiv 1000
    lastPickMs := nowMs
    requestCount := a.requestCount + 1
    hourPicks := a.hourPicks ++ [nowMs] }

end AccountState

namespace LeaseKind

def counter : LeaseKind -> AccountState -> Nat
  | playback, a => a.playbackInflight
  | metadata, a => a.metadataInflight

/-- The record with the counter of a kind moved. -/
def count (kind : LeaseKind) (f : Nat -> Nat) (a : AccountState) :
    AccountState :=
  match kind with
  | playback => { a with playbackInflight := f a.playbackInflight }
  | metadata => { a with metadataInflight := f a.metadataInflight }

@[simp] theorem counter_count (kind kind' : LeaseKind) (f : Nat -> Nat)
    (a : AccountState) :
    kind'.counter (kind.count f a) =
      if kind' = kind then f (kind'.counter a) else kind'.counter a := by
  cases kind <;> cases kind' <;> rfl

@[simp] theorem counter_noteSelection (kind : LeaseKind) (nowMs : Int)
    (a : AccountState) : kind.counter (a.noteSelection nowMs) = kind.counter a := by
  cases kind <;> rfl

@[simp] theorem count_id (kind : LeaseKind) (f : Nat -> Nat)
    (a : AccountState) : (kind.count f a).id = a.id := by
  cases kind <;> rfl

@[simp] theorem count_catalogInflight (kind : LeaseKind) (f : Nat -> Nat)
    (a : AccountState) : (kind.count f a).catalogInflight = a.catalogInflight := by
  cases kind <;> rfl

@[simp] theorem count_restUntilMs (kind : LeaseKind) (f : Nat -> Nat)
    (a : AccountState) : (kind.count f a).restUntilMs = a.restUntilMs := by
  cases kind <;> rfl

end LeaseKind

namespace AccountManager

/-- Strikes against an account that rests after recent 429s. -/
def rateLimitHeat (now : I64) (a : AccountState) : Nat :=
  if a.rateLimitedUntil ≤ 0 ∨ 30 * 60 < now.val - a.rateLimitedUntil then 0
  else a.rateLimitStrikes

/-- {lit}`lease_kind` on the record. -/
def leaseKind (kind : LeaseKind) (nowMs : Int) (a : AccountState) :
    AccountState :=
  (kind.count (· + 1) a).noteSelection nowMs

/-- What {lit}`try_lease` is asked, and what it reads. -/
structure LeaseRequest where
  excludeIds : List String
  kind : LeaseKind
  rules : LeaseRules
  now : I64
  nowMs : Int
  /-- {lit}`effective_last_use` of an account. -/
  lastUse : AccountState -> Int

namespace LeaseRequest

variable (q : LeaseRequest)

/-- An account of the playback pool. -/
def pools (a : AccountState) : Bool :=
  a.isActive && !a.isCatalog

def excludes (a : AccountState) : Bool :=
  decide (a.id ∈ q.excludeIds)

/-- An account that may serve the request, at once or later. -/
def usable (a : AccountState) : Bool :=
  pools a && (rateLimitRemaining q.now a).isNone &&
    (a.refreshCooldown q.now).isNone && !q.excludes a

/-- The limits let the account serve the request now. -/
def admits (a : AccountState) : Bool :=
  (q.rules.concurrency = 0 ∨ a.poolInflight < q.rules.concurrency) ∧
    a.restUntilMs ≤ q.nowMs ∧
    (q.rules.perHour = 0 ∨ a.requestsLastHour q.nowMs < q.rules.perHour)

/-- The shortest pause of an account that is not excluded. -/
def shortestPause (accounts : List AccountState) : Option Nat :=
  ((accounts.filter fun a => pools a && !q.excludes a).filterMap
    (rateLimitRemaining q.now)).min?

def shortestCooldown (accounts : List AccountState) : Option Nat :=
  ((accounts.filter fun a =>
    pools a && (rateLimitRemaining q.now a).isNone).filterMap
      (AccountState.refreshCooldown q.now)).min?

def tier (a : AccountState) : Nat :=
  match q.kind with
  | .playback => a.fullTier q.now
  | .metadata => 0

/-- What the choice goes by: full playback, requests in flight, recent 429s,
and last use. -/
def rank (a : AccountState) : Nat ×ₗ Nat ×ₗ Nat ×ₗ Int :=
  toLex (q.tier a,
    toLex (a.poolInflight, toLex (rateLimitHeat q.now a, q.lastUse a)))

/-- Of two equal accounts the one with fewer strikes comes first. -/
theorem heat_le_of_rank_le {a b : AccountState} (h : q.rank a ≤ q.rank b)
    (htier : q.tier b = q.tier a) (hpool : b.poolInflight = a.poolInflight) :
    rateLimitHeat q.now a ≤ rateLimitHeat q.now b := by
  unfold rank at h
  rw [htier, hpool, Prod.Lex.toLex_le_toLex] at h
  rcases h with hlt | heq
  · exact absurd hlt (lt_irrefl _)
  · rcases Prod.Lex.toLex_le_toLex.mp heq.right with hlt | hrest
    · exact absurd hlt (lt_irrefl _)
    · rcases Prod.Lex.toLex_le_toLex.mp hrest.right with hless | hsame
      · exact le_of_lt hless
      · exact le_of_eq hsame.left

end LeaseRequest

/-- {lit}`try_lease` up to the lease: the pointer of the account it takes. -/
def tryLease (q : LeaseRequest) (cells : Nat -> AccountState)
    (roster : List Nat) (rrSeq : U64) : Except AppError (Option Nat) :=
  if roster = [] then
    .error (.internal
      "No Tidal credentials available; add an account via the admin panel")
  else
    let usable := roster.filter fun p => q.usable (cells p)
    let eligible := usable.filter fun p => q.admits (cells p)
    if eligible = [] ∧ usable ≠ [] then .ok none
    else if eligible = [] then
      match q.shortestPause (roster.map cells) with
      | some seconds => .error (.rateLimited seconds)
      | none =>
          match q.shortestCooldown (roster.map cells) with
          | some seconds =>
              .error (.serviceUnavailableRetry
                "All accounts are waiting for a token refresh" seconds)
          | none =>
              .error (.serviceUnavailable
                "All accounts are inactive or have expired tokens")
    else
      .ok (Turns.order (fun p => q.rank (cells p)) rrSeq.val eligible).head?

/-- A catalog account that can be asked now. -/
def servesCatalog (now : I64) (a : AccountState) : Bool :=
  a.isCatalog && a.isActive && (rateLimitRemaining now a).isNone &&
    (a.refreshCooldown now).isNone

/-- {lit}`claim_catalog_slot` up to the claim. -/
def claimCatalogSlot (limit : Nat) (now : I64) (cells : Nat -> AccountState)
    (roster : List Nat) (catalogRr : U64) : CatalogClaim :=
  let catalog := roster.filter fun p => servesCatalog now (cells p)
  if catalog = [] then .unavailable
  else
    match (Turns.order (fun p => rateLimitHeat now (cells p)) catalogRr.val
        catalog).find? fun p => (cells p).hasCatalogSlot limit with
    | some p => .slot p
    | none => .busy

/-!
## What is chosen
-/

section Choice

variable {q : LeaseRequest} {cells : Nat -> AccountState} {roster : List Nat}
  {rrSeq catalogRr : U64} {limit : Nat} {now : I64} {p : Nat}

/-- A lease goes to an account of the lowest rank among those that may serve
the request now. -/
theorem tryLease_eq_some (h : tryLease q cells roster rrSeq = .ok (some p)) :
    p ∈ roster ∧ q.usable (cells p) = true ∧ q.admits (cells p) = true ∧
      forall p', p' ∈ roster -> q.usable (cells p') = true ->
        q.admits (cells p') = true -> q.rank (cells p) ≤ q.rank (cells p') := by
  unfold tryLease at h
  split at h
  · cases h
  · dsimp only at h
    split at h
    · cases h
    · split at h
      · split at h
        · cases h
        · split at h <;> cases h
      · have hhead := Except.ok.inj h
        have hmem := Turns.mem_of_head? hhead
        rw [List.mem_filter, List.mem_filter] at hmem
        refine ⟨hmem.left.left, hmem.left.right, hmem.right, ?_⟩
        intro p' hp' husable hadmits
        apply Turns.rank_le_of_head? hhead
        exact List.mem_filter.mpr ⟨List.mem_filter.mpr ⟨hp', husable⟩, hadmits⟩

/-- A catalog slot is one of the account with the fewest strikes among those
with a free slot. -/
theorem claimCatalogSlot_eq_slot
    (h : claimCatalogSlot limit now cells roster catalogRr = .slot p) :
    p ∈ roster ∧ servesCatalog now (cells p) = true ∧
      (cells p).hasCatalogSlot limit = true ∧
      forall p', p' ∈ roster -> servesCatalog now (cells p') = true ->
        (cells p').hasCatalogSlot limit = true ->
        rateLimitHeat now (cells p) ≤ rateLimitHeat now (cells p') := by
  unfold claimCatalogSlot at h
  dsimp only at h
  split at h
  · cases h
  · split at h
    · rename_i found hfind
      cases h
      have hmem := Turns.mem_order.mp (List.mem_of_find?_eq_some hfind)
      rw [List.mem_filter] at hmem
      have hfound := List.find?_some hfind
      refine ⟨hmem.left, hmem.right, hfound, ?_⟩
      intro p' hp' hserves hslot
      exact Turns.rank_le_of_find? hfind
        (List.mem_filter.mpr ⟨hp', hserves⟩) hslot
    · cases h

end Choice

end AccountManager

end HifiApi
