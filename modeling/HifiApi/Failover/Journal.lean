import HifiApi.Failover.Calls

/-!
# The journal of a failover

What the bounds of a failover are about: the leases of a request with the requests
sent on each of them, and the leases since the first 429.  The bounds hold at every
point of a run.
-/

namespace HifiApi

open TidalCall

/-- The journal of a request to the pool, which begins with the number of
accounts. -/
structure FailoverJournal where
  count : Nat
  /-- The leased accounts, the newest first, with the requests sent on each. -/
  leases : List (String × Nat)
  /-- The leases after the first 429. -/
  sinceLimited : Option Nat
  /-- Accounts that have been leased and were not excluded from a later lease. -/
  missed : List String

namespace FailoverJournal

def start : FailoverJournal := ⟨0, [], none, []⟩

def leased (id : String) (g : FailoverJournal) : FailoverJournal :=
  { g with
    leases := (id, 0) :: g.leases
    sinceLimited := g.sinceLimited.map (· + 1) }

def met (g : FailoverJournal) : FailoverJournal :=
  { g with sinceLimited := g.sinceLimited.or (some 0) }

def metIf (limited : Bool) (g : FailoverJournal) : FailoverJournal :=
  if limited then g.met else g

/-- A request on the account that has been leased last. -/
def sent (g : FailoverJournal) : FailoverJournal :=
  { g with
    leases :=
      match g.leases with
      | [] => []
      | (id, sends) :: rest => (id, sends + 1) :: rest }

def missing (excludeIds : List String) (g : FailoverJournal) : FailoverJournal :=
  { g with
    missed := g.missed ++
      (g.leases.map Prod.fst).filter fun id => decide (id ∉ excludeIds) }

/-- What is written down of a call. -/
def note (g : FailoverJournal) : (c : TidalCall) -> Answer c -> FailoverJournal
  | playbackCount, count => ⟨count, [], none, []⟩
  | rateLimitRemaining a, remaining =>
      g.metIf ((rateLimitRemaining a).isPause remaining)
  | lease a, _ => (g.missing []).leased a.id
  | leasePoolAccount excludeIds _, .ok a => (g.missing excludeIds).leased a.id
  | leasePoolAccount excludeIds _, .error _ => g.missing excludeIds
  | getToken a, result => g.metIf ((getToken a).isPause result)
  | refreshAfterUnauthorized a token, result =>
      g.metIf ((refreshAfterUnauthorized a token).isPause result)
  | send _ _ _ _, result => g.sent.metIf (isTooMany result)
  | sendLicense _ _ _ _ _, result => g.sent.metIf (isTooMany result)
  | _, _ => g

/-!
## What is claimed
-/

/-- The bounds of a failover that sends at most so many requests on an account. -/
structure Bounded (perAccount : Nat) (g : FailoverJournal) : Prop where
  once : (g.leases.map Prod.fst).Nodup
  sends : forall l, l ∈ g.leases -> l.2 ≤ perAccount
  leases : g.leases.length ≤ max 1 g.count
  fallbacks : forall k, g.sinceLimited = some k -> k ≤ rateLimitFallbacks
  excluded : g.missed = []

end FailoverJournal

/-- A pool lease comes from a pass of {lit}`try_lease` over some roster. -/
def LeasedBy (excludeIds : List String) (kind : LeaseKind) (a : AccountRef) : Prop :=
  exists (q : AccountManager.LeaseRequest) (cells : Nat -> AccountState)
    (roster : List Nat) (rrSeq : U64),
    q.excludeIds = excludeIds ∧ q.kind = kind ∧
      AccountManager.tryLease q cells roster rrSeq = .ok (some a.pointer) ∧
      (cells a.pointer).id = a.id

/-- Answers that can come. -/
def TidalCall.Admits : (c : TidalCall) -> Answer c -> Prop
  | leasePoolAccount excludeIds kind, .ok a => LeasedBy excludeIds kind a
  | _, _ => True

/-- All the answers of a trace can come. -/
def Admitted (trace : List TidalEvent) : Prop :=
  forall e, e ∈ trace -> TidalCall.Admits e.call e.answer

theorem LeasedBy.not_mem {excludeIds : List String} {kind : LeaseKind} {a : AccountRef}
    (h : LeasedBy excludeIds kind a) : a.id ∉ excludeIds := by
  rcases h with ⟨q, cells, roster, rrSeq, hexclude, _, hlease, hid⟩
  have husable := (AccountManager.tryLease_eq_some hlease).right.left
  intro hmem
  have hexcluded : q.excludes (cells a.pointer) = true := by
    apply decide_eq_true
    rw [hexclude, hid]
    exact hmem
  rw [AccountManager.LeaseRequest.usable, hexcluded, Bool.not_true,
    Bool.and_false] at husable
  cases husable

namespace FailoverJournal

/-- The journal after a trace. -/
def after (trace : List TidalEvent) : FailoverJournal :=
  trace.foldl (fun g e => g.note e.call e.answer) start

/-- The accounts that may be leased. -/
def room (limit : Option Nat) (g : FailoverJournal) : Nat :=
  match limit with
  | none => max 1 g.count
  | some limit => min (max 1 g.count) limit

/-- Another lease is within the bounds. -/
structure MayLease (limit : Option Nat) (excludeIds : List String)
    (g : FailoverJournal) : Prop where
  excluded : forall l, l ∈ g.leases -> l.1 ∈ excludeIds
  room : g.leases.length < g.room limit
  fallbacks : forall k, g.sinceLimited = some k -> k < rateLimitFallbacks

/-- Another request on the account is within the bounds. -/
def MaySend (perAccount : Nat) (g : FailoverJournal) : Prop :=
  forall id sends rest, g.leases = (id, sends) :: rest -> sends < perAccount

/-- A failover claims no catalog slots, and asks for the number of accounts before
it leases the first one. -/
def May (perAccount : Nat) (limit : Option Nat) (g : FailoverJournal) :
    TidalCall -> Prop
  | playbackCount => g.leases = []
  | lease _ => g.MayLease limit []
  | leasePoolAccount excludeIds _ => g.MayLease limit excludeIds
  | send _ _ _ _ => g.MaySend perAccount
  | sendLicense _ _ _ _ _ => g.MaySend perAccount
  | claimCatalogSlot _ | catalogReturned _ | poolReturned _ => False
  | _ => True

/-- The watch of a failover. -/
def watch (perAccount : Nat) (limit : Option Nat) :
    Watch Answer FailoverJournal where
  may := May perAccount limit
  hears _ _ _ := True
  note := note

/-- The same watch, where only answers come that can come. -/
def admitting (perAccount : Nat) (limit : Option Nat) : Watch Answer FailoverJournal :=
  { watch perAccount limit with hears := fun _ c answer => c.Admits answer }

/-!
## What a call keeps
-/

section Steps

variable {perAccount : Nat} {limit : Option Nat} {g : FailoverJournal}

theorem missing_eq {excludeIds : List String}
    (h : forall l, l ∈ g.leases -> l.1 ∈ excludeIds) : g.missing excludeIds = g := by
  have hnone : (g.leases.map Prod.fst).filter (fun id => decide (id ∉ excludeIds)) =
      [] := by
    rw [List.filter_eq_nil_iff]
    intro id hid
    rcases List.mem_map.mp hid with ⟨l, hl, rfl⟩
    simp [h l hl]
  unfold missing
  rw [hnone, List.append_nil]

theorem Bounded.metIf (h : g.Bounded perAccount) (limited : Bool) :
    (g.metIf limited).Bounded perAccount := by
  cases limited with
  | false =>
      exact h
  | true =>
      constructor
      · exact h.once
      · exact h.sends
      · exact h.leases
      · intro k hk
        cases hsince : g.sinceLimited with
        | none =>
            change g.sinceLimited.or (some 0) = some k at hk
            rw [hsince] at hk
            cases hk
            exact Nat.zero_le _
        | some first =>
            change g.sinceLimited.or (some 0) = some k at hk
            rw [hsince] at hk
            cases hk
            exact h.fallbacks k hsince
      · exact h.excluded

theorem Bounded.sent (h : g.Bounded perAccount) (hmay : g.MaySend perAccount) :
    g.sent.Bounded perAccount := by
  cases hleases : g.leases with
  | nil =>
      have hsame : g.sent = g := by
        unfold FailoverJournal.sent
        rw [hleases]
        cases g
        cases hleases
        rfl
      rw [hsame]
      exact h
  | cons l rest =>
      have hsent : g.sent.leases = (l.1, l.2 + 1) :: rest := by
        unfold FailoverJournal.sent
        rw [hleases]
      have honce := h.once
      have hsends := h.sends
      have hlength := h.leases
      rw [hleases] at honce hsends hlength
      constructor
      · rw [hsent]
        exact honce
      · rw [hsent, List.forall_mem_cons]
        constructor
        · exact hmay l.1 l.2 rest hleases
        · exact fun l' hl' => hsends l' (List.mem_cons_of_mem l hl')
      · rw [hsent]
        exact hlength
      · exact h.fallbacks
      · exact h.excluded

theorem room_le (limit : Option Nat) (g : FailoverJournal) :
    g.room limit ≤ max 1 g.count := by
  cases limit with
  | none => exact le_refl _
  | some limit => exact Nat.min_le_left _ _

theorem Bounded.leased (h : g.Bounded perAccount) {excludeIds : List String}
    (hmay : g.MayLease limit excludeIds) {id : String} (hid : id ∉ excludeIds) :
    ((g.missing excludeIds).leased id).Bounded perAccount := by
  rw [missing_eq hmay.excluded]
  constructor
  · show (id :: g.leases.map Prod.fst).Nodup
    rw [List.nodup_cons]
    constructor
    · intro hmem
      rcases List.mem_map.mp hmem with ⟨l, hl, rfl⟩
      exact hid (hmay.excluded l hl)
    · exact h.once
  · intro l hl
    rcases List.mem_cons.mp hl with hnew | hold
    · rw [hnew]
      exact Nat.zero_le _
    · exact h.sends l hold
  · have hroom := hmay.room
    have hle := room_le limit g
    show g.leases.length + 1 ≤ max 1 g.count
    omega
  · intro k hk
    rcases Option.map_eq_some_iff.mp hk with ⟨before, hbefore, rfl⟩
    exact hmay.fallbacks before hbefore
  · exact h.excluded

theorem bounded_count (count : Nat) : Bounded perAccount ⟨count, [], none, []⟩ where
  once := List.nodup_nil
  sends := fun _ h => nomatch h
  leases := Nat.zero_le _
  fallbacks := fun _ h => nomatch h
  excluded := rfl

/-- What a call that may be made keeps. -/
theorem Bounded.note (h : g.Bounded perAccount) {c : TidalCall} {answer : Answer c}
    (hmay : g.May perAccount limit c) (hadmits : c.Admits answer) :
    (g.note c answer).Bounded perAccount := by
  cases c with
  | playbackCount => exact bounded_count answer
  | rateLimitRemaining a => exact h.metIf _
  | lease a => exact h.leased hmay List.not_mem_nil
  | leasePoolAccount excludeIds kind =>
      cases answer with
      | ok a => exact h.leased hmay hadmits.not_mem
      | error e =>
          show (g.missing excludeIds).Bounded perAccount
          rw [missing_eq hmay.excluded]
          exact h
  | getToken a => exact h.metIf _
  | refreshAfterUnauthorized a token => exact h.metIf _
  | send a url params token => exact (h.sent hmay).metIf _
  | sendLicense a method contentType body token => exact (h.sent hmay).metIf _
  | _ => exact h

theorem noteTransport_keeps (id : String) (e : ReqwestError) :
    (watch perAccount limit).Keeps g (noteTransport id e) fun g' _ => g' = g := by
  unfold noteTransport
  split
  · exact ⟨trivial, fun _ _ => rfl⟩
  · rfl

/-- A program that keeps to the watch stays within the bounds, however far it has
come. -/
theorem bounded_of_keeps {α : Type} {p left : TidalProg α}
    {post : FailoverJournal -> α -> Prop} {trace : List TidalEvent}
    (h : (watch perAccount limit).Keeps start p post) (hruns : p.Runs trace left)
    (hadmitted : Admitted trace) : (after trace).Bounded perAccount := by
  have hkeeps : (admitting perAccount limit).Keeps start p post :=
    h.narrow fun _ _ _ _ => trivial
  have hstep : forall (g : FailoverJournal) (c : TidalCall) (answer : Answer c),
      g.Bounded perAccount -> (admitting perAccount limit).may g c ->
      (admitting perAccount limit).hears g c answer ->
      ((admitting perAccount limit).note g c answer).Bounded perAccount := by
    intro g c answer hbounded hmay hadmits
    exact hbounded.note hmay hadmits
  have hheard : (admitting perAccount limit).Heard start trace :=
    Watch.heard_of fun e he _ => hadmitted e he
  exact hkeeps.invariant (Bounded perAccount) hstep hruns hheard (bounded_count 0)

end Steps

end FailoverJournal

end HifiApi
