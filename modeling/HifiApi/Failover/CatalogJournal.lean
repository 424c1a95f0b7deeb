import HifiApi.Failover.Bounded
import HifiApi.Failover.Catalog

/-!
# The journal of a metadata request

What the bounds of a metadata request are about: the credentials tried since the
first 429 of a catalog call, and what they have come to.  It holds the journal of the
failover over the pool, and what the watch of that failover lets pass is within
these bounds too.
-/

namespace HifiApi

open Prog TidalCall

/-- The journal of a metadata request. -/
structure CatalogJournal where
  /-- The first 429 that a catalog call has returned. -/
  limited : Option AppError
  /-- The credentials tried since: catalog accounts and accounts of the pool. -/
  since : Nat
  /-- The catalog accounts claimed. -/
  claims : Nat
  /-- What the attempt after the 429 has come to. -/
  settled : Option (Except AppError Value)
  pool : FailoverJournal

namespace CatalogJournal

def start : CatalogJournal := ⟨none, 0, 0, none, .start⟩

def tried (g : CatalogJournal) : CatalogJournal :=
  { g with since := if g.limited.isSome then g.since + 1 else g.since }

def claimed (g : CatalogJournal) : CatalogJournal :=
  { g.tried with claims := g.claims + 1 }

def onPool (c : TidalCall) (answer : Answer c) (g : CatalogJournal) : CatalogJournal :=
  { g with pool := g.pool.note c answer }

/-- A catalog call has returned. -/
def returned (result : Except AppError Value) (g : CatalogJournal) : CatalogJournal :=
  match g.limited, result with
  | some _, _ => { g with settled := some result }
  | none, .error e => if e.isRateLimited then { g with limited := some e } else g
  | none, .ok _ => g

/-- The pool has answered; an empty pool leaves the 429 as it was. -/
def poolAnswered (result : Except AppError Value) (g : CatalogJournal) :
    CatalogJournal :=
  match g.limited with
  | some previous => { g with settled := some (afterLimited previous result) }
  | none => g

/-- What is written down of a call. -/
def note (g : CatalogJournal) : (c : TidalCall) -> Answer c -> CatalogJournal
  | claimCatalogSlot _, .slot _ => g.claimed
  | lease a, answer => g.tried.onPool (lease a) answer
  | leasePoolAccount excludeIds kind, .ok a =>
      g.tried.onPool (leasePoolAccount excludeIds kind) (.ok a)
  | catalogReturned result, _ => g.returned result
  | poolReturned result, _ => g.poolAnswered result
  | c, answer => g.onPool c answer

/-- The journal after a trace. -/
def after (trace : List TidalEvent) : CatalogJournal :=
  trace.foldl (fun g e => g.note e.call e.answer) start

/-!
## What is claimed
-/

structure Bounded (g : CatalogJournal) : Prop where
  since : g.since ≤ 1
  claims : g.claims ≤ 2
  fallbacks : forall k, g.pool.sinceLimited = some k -> k ≤ rateLimitFallbacks

/-- A further account of the pool is within the bounds. -/
structure MayLease (g : CatalogJournal) : Prop where
  fresh : g.limited.isSome = true -> g.since = 0
  fallbacks : forall k, g.pool.sinceLimited = some k -> k < rateLimitFallbacks

/-- A further catalog account is within the bounds. -/
structure MayClaim (g : CatalogJournal) : Prop where
  fresh : g.limited.isSome = true -> g.since = 0
  claims : g.claims < 2

/-- The call itself is within the bounds. -/
def Allows (g : CatalogJournal) : TidalCall -> Prop
  | claimCatalogSlot _ => g.MayClaim
  | lease _ | leasePoolAccount _ _ => g.MayLease
  | _ => True

/-- Nothing is called once the attempt after a 429 has come to its end. -/
def May (g : CatalogJournal) (c : TidalCall) : Prop := g.settled = none ∧ g.Allows c

/-- The watch of a metadata request. -/
def watch : Watch Answer CatalogJournal where
  may := May
  hears _ _ _ := True
  note := note

/-!
## What a call keeps
-/

section Steps

variable {g : CatalogJournal}

theorem start_bounded : start.Bounded where
  since := Nat.zero_le _
  claims := Nat.zero_le _
  fallbacks := fun _ h => nomatch h

theorem tried_since (hfresh : g.limited.isSome = true -> g.since = 0)
    (h : g.since ≤ 1) : g.tried.since ≤ 1 := by
  show (if g.limited.isSome then g.since + 1 else g.since) ≤ 1
  split
  · rename_i hlimited
    rw [hfresh hlimited]
  · exact h

/-- A lease counts among the leases since the first 429 of the pool. -/
theorem leased_fallbacks {pool : FailoverJournal}
    (h : forall k, pool.sinceLimited = some k -> k < rateLimitFallbacks)
    (excludeIds : List String) (id : String) :
    forall k, ((pool.missing excludeIds).leased id).sinceLimited = some k ->
      k ≤ rateLimitFallbacks := by
  intro k hk
  rcases Option.map_eq_some_iff.mp hk with ⟨before, hbefore, rfl⟩
  exact h before hbefore

/-- A call that leases nothing leaves the leases since the first 429, or is the
first 429. -/
theorem metIf_fallbacks {pool : FailoverJournal}
    (h : forall k, pool.sinceLimited = some k -> k ≤ rateLimitFallbacks)
    (limited : Bool) :
    forall k, (pool.metIf limited).sinceLimited = some k -> k ≤ rateLimitFallbacks := by
  intro k hk
  rcases Failover.metIf_eq hk with hzero | hbefore
  · rw [hzero]
    exact Nat.zero_le _
  · exact h k hbefore

theorem returned_ok (hnone : g.limited = none) (data : Value) :
    g.returned (.ok data) = g := by
  unfold CatalogJournal.returned
  rw [hnone]

theorem returned_error (hnone : g.limited = none) (e : AppError) :
    g.returned (.error e) =
      if e.isRateLimited then { g with limited := some e } else g := by
  unfold CatalogJournal.returned
  rw [hnone]

theorem returned_again {e : AppError} (hlimited : g.limited = some e)
    (result : Except AppError Value) :
    g.returned result = { g with settled := some result } := by
  unfold CatalogJournal.returned
  rw [hlimited]

theorem Bounded.returned (h : g.Bounded) (result : Except AppError Value) :
    (g.returned result).Bounded := by
  unfold CatalogJournal.returned
  split
  · exact ⟨h.since, h.claims, h.fallbacks⟩
  · split
    · exact ⟨h.since, h.claims, h.fallbacks⟩
    · exact h
  · exact h

theorem Bounded.poolAnswered (h : g.Bounded) (result : Except AppError Value) :
    (g.poolAnswered result).Bounded := by
  unfold CatalogJournal.poolAnswered
  split
  · exact ⟨h.since, h.claims, h.fallbacks⟩
  · exact h

/-- What a call that may be made keeps. -/
theorem Bounded.note (h : g.Bounded) {c : TidalCall} {answer : Answer c}
    (hmay : g.Allows c) : (g.note c answer).Bounded := by
  cases c with
  | claimCatalogSlot limit =>
      cases answer with
      | slot a => exact ⟨tried_since hmay.fresh h.since, hmay.claims, h.fallbacks⟩
      | busy => exact h
      | unavailable => exact h
  | lease a =>
      exact ⟨tried_since hmay.fresh h.since, h.claims,
        leased_fallbacks hmay.fallbacks [] a.id⟩
  | leasePoolAccount excludeIds kind =>
      cases answer with
      | ok a =>
          exact ⟨tried_since hmay.fresh h.since, h.claims,
            leased_fallbacks hmay.fallbacks excludeIds a.id⟩
      | error e => exact ⟨h.since, h.claims, h.fallbacks⟩
  | catalogReturned result => exact h.returned result
  | poolReturned result => exact h.poolAnswered result
  | playbackCount => exact ⟨h.since, h.claims, fun _ hk => nomatch hk⟩
  | rateLimitRemaining a =>
      exact ⟨h.since, h.claims, metIf_fallbacks h.fallbacks _⟩
  | getToken a => exact ⟨h.since, h.claims, metIf_fallbacks h.fallbacks _⟩
  | refreshAfterUnauthorized a token =>
      exact ⟨h.since, h.claims, metIf_fallbacks h.fallbacks _⟩
  | send a url params token =>
      have hsent : forall k, g.pool.sent.sinceLimited = some k ->
          k ≤ rateLimitFallbacks := h.fallbacks
      exact ⟨h.since, h.claims, metIf_fallbacks hsent _⟩
  | sendLicense a method contentType body token =>
      have hsent : forall k, g.pool.sent.sinceLimited = some k ->
          k ≤ rateLimitFallbacks := h.fallbacks
      exact ⟨h.since, h.claims, metIf_fallbacks hsent _⟩
  | _ => exact h

end Steps

end CatalogJournal

/-!
## The pool
-/

/-- The journal of a metadata request, while the pool is asked. -/
structure OnPool (g : CatalogJournal) (pool : FailoverJournal) (g' : CatalogJournal) :
    Prop where
  journal : g'.pool = pool
  limited : g'.limited = g.limited
  settled : g'.settled = none
  since : g.limited.isSome = true -> g'.since = pool.leases.length

section Pool

variable {g g' : CatalogJournal} {pool : FailoverJournal} {q : PoolRequest}

theorem sent_length (pool : FailoverJournal) :
    pool.sent.leases.length = pool.leases.length := by
  unfold FailoverJournal.sent
  cases pool.leases with
  | nil => rfl
  | cons l rest => rfl

/-- A call that leases nothing. -/
theorem OnPool.other (h : OnPool g pool g') {c : TidalCall} {answer : Answer c}
    (hnote : g'.note c answer = g'.onPool c answer)
    (hleases : (pool.note c answer).leases.length = pool.leases.length) :
    OnPool g (pool.note c answer) (g'.note c answer) := by
  rw [hnote]
  constructor
  · show g'.pool.note c answer = _
    rw [h.journal]
  · exact h.limited
  · exact h.settled
  · intro hlimited
    rw [hleases]
    exact h.since hlimited

theorem OnPool.leased (h : OnPool g pool g') {c : TidalCall} {answer : Answer c}
    (hnote : g'.note c answer = g'.tried.onPool c answer)
    (hleases : (pool.note c answer).leases.length = pool.leases.length + 1) :
    OnPool g (pool.note c answer) (g'.note c answer) := by
  rw [hnote]
  constructor
  · show g'.pool.note c answer = _
    rw [h.journal]
  · exact h.limited
  · exact h.settled
  · intro hlimited
    show (if g'.limited.isSome then g'.since + 1 else g'.since) = _
    rw [h.limited, if_pos hlimited, h.since hlimited, hleases]

/-- What the watch of a failover lets pass. -/
theorem OnPool.note (h : OnPool g pool g') {c : TidalCall} {answer : Answer c}
    (hmay : (poolWatch q).may pool c) :
    OnPool g (pool.note c answer) (g'.note c answer) := by
  cases c with
  | claimCatalogSlot | catalogReturned | poolReturned => exact hmay.elim
  | playbackCount =>
      apply h.other rfl
      exact (congrArg List.length hmay).symm
  | lease a => exact h.leased rfl rfl
  | leasePoolAccount excludeIds kind =>
      cases answer with
      | ok a => exact h.leased rfl rfl
      | error e => exact h.other rfl rfl
  | rateLimitRemaining a =>
      exact h.other rfl (congrArg List.length (Failover.metIf_leases pool _).right)
  | getToken a =>
      exact h.other rfl (congrArg List.length (Failover.metIf_leases pool _).right)
  | refreshAfterUnauthorized a token =>
      exact h.other rfl (congrArg List.length (Failover.metIf_leases pool _).right)
  | send a url params token =>
      apply h.other rfl
      exact (congrArg List.length (Failover.metIf_leases _ _).right).trans
        (sent_length pool)
  | sendLicense a method contentType body token =>
      apply h.other rfl
      exact (congrArg List.length (Failover.metIf_leases _ _).right).trans
        (sent_length pool)
  | _ => exact h.other rfl rfl

/-- With a single account to try, another lease is the first one. -/
theorem OnPool.mayLease (h : OnPool g pool g') {excludeIds : List String}
    {limit : Option Nat} (hlimit : g.limited.isSome = true -> limit = some 1)
    (hmay : pool.MayLease limit excludeIds) : g'.MayLease := by
  constructor
  · intro hlimited
    rw [h.limited] at hlimited
    rw [h.since hlimited]
    have hroom := hmay.room
    rw [hlimit hlimited] at hroom
    have hone : pool.room (some 1) ≤ 1 := Nat.min_le_right _ _
    omega
  · rw [h.journal]
    exact hmay.fallbacks

theorem OnPool.may (h : OnPool g pool g') {c : TidalCall}
    (hlimit : g.limited.isSome = true -> q.accountLimit = some 1)
    (hmay : (poolWatch q).may pool c) : g'.May c := by
  constructor
  · exact h.settled
  · cases c with
    | claimCatalogSlot => exact hmay.elim
    | lease a => exact h.mayLease hlimit hmay
    | leasePoolAccount excludeIds kind => exact h.mayLease hlimit hmay
    | _ => trivial

end Pool

end HifiApi
