import HifiApi.Accounts.Selection
import HifiApi.Accounts.Shared
import HifiApi.Fleet.Protocol

/-!
# Leases and replaced records

Leases and catalog slots hold the record they were taken on, the choice of an
account reads the record in the roster, and a replacement starts the counters of
its record at zero.  The counters of an account fit its requests in flight
exactly as long as only accounts at rest are replaced.
-/

namespace HifiApi

/-- What rebuilds the record of an account. -/
inductive Replacement where
  | update (label clientId clientSecret refreshToken userId : Option String)
  | adopt (remote : Value)

def Replacement.build (now : I64) (a : AccountState) :
    Replacement -> Option AccountState
  | update label clientId clientSecret refreshToken userId =>
      some (a.updateAccount label clientId clientSecret refreshToken userId now)
  | adopt remote => RemoteAccount.adopt a remote

/-- The drop of a lease on its record. -/
def PlaybackLease.release (l : PlaybackLease) (nowMs : Int)
    (a : AccountState) : AccountState :=
  l.kind.count (· - 1)
    (if 0 < l.restMs then
      { a with restUntilMs := max a.restUntilMs (nowMs + l.restMs) }
    else a)

/-- The accounts of an instance, and what holds them. -/
structure LeasedRoster where
  memory : Arena AccountState AccountState.id
  leases : List PlaybackLease
  slots : List Nat
  /-- The write lock over the accounts: the record to replace, and the rebuilt
  one. -/
  replacing : Option (Nat × AccountState)
  /-- When the rest after the last released lease of an account ends. -/
  restEnds : String -> Int
  rrSeq : U64
  catalogRr : U64

inductive LeaseAction where
  | tryLease (q : AccountManager.LeaseRequest)
  | dropLease (i : Nat) (nowMs : Int)
  | claimCatalogSlot (limit : Nat) (now : I64) (nowMs : Int)
  | dropSlot (i : Nat)
  /-- A replacement builds its record. -/
  | replace (id : String) (how : Replacement) (now : I64)
  /-- The record is in SQLite and takes its place. -/
  | install
  /-- SQLite has failed. -/
  | abandon
  /-- A merge restores an account that is unknown here. -/
  | restore (id : String) (remote : Value) (now : I64)

namespace LeasedRoster

open AccountManager

/-- The accounts as {lit}`load_from_db` reads them. -/
def start (rows : Table accounts.Row accounts.rowId) : LeasedRoster where
  memory := (⟨.empty, rows⟩ : Roster accounts).reload.memory
  leases := []
  slots := []
  replacing := none
  restEnds := fun _ => 0
  rrSeq := 0
  catalogRr := 0

theorem leaseKind_id (kind : LeaseKind) (nowMs : Int) (a : AccountState) :
    (leaseKind kind nowMs a).id = a.id :=
  LeaseKind.count_id kind _ a

theorem release_id (l : PlaybackLease) (nowMs : Int) (a : AccountState) :
    (l.release nowMs a).id = a.id := by
  rw [PlaybackLease.release, LeaseKind.count_id]
  split <;> rfl

/-- {lit}`try_lease` has taken an account. -/
def lease (s : LeasedRoster) (q : LeaseRequest) (p : Nat) : LeasedRoster :=
  { s with
    memory :=
      s.memory.write p (leaseKind q.kind q.nowMs (s.memory.cells p))
        (leaseKind_id _ _ _)
    leases := s.leases ++ [⟨p, q.kind, q.rules.restMs⟩]
    rrSeq := s.rrSeq.wrappingAdd 1 }

def release (s : LeasedRoster) (i : Nat) (l : PlaybackLease) (nowMs : Int) :
    LeasedRoster :=
  let a := s.memory.cells l.account
  { s with
    memory := s.memory.write l.account (l.release nowMs a) (release_id _ _ _)
    leases := s.leases.eraseIdx i
    restEnds :=
      if 0 < l.restMs then
        Function.update s.restEnds a.id (nowMs + l.restMs)
      else s.restEnds }

/-- {lit}`claim_catalog_slot` has claimed a slot. -/
def claim (s : LeasedRoster) (p : Nat) (nowMs : Int) : LeasedRoster :=
  let a := s.memory.cells p
  let claimed := { a with catalogInflight := a.catalogInflight + 1 }
  { s with
    memory := s.memory.write p (claimed.noteSelection nowMs) rfl
    slots := s.slots ++ [p]
    catalogRr := s.catalogRr.wrappingAdd 1 }

def unclaim (s : LeasedRoster) (i p : Nat) : LeasedRoster :=
  let a := s.memory.cells p
  { s with
    memory :=
      s.memory.write p { a with catalogInflight := a.catalogInflight - 1 } rfl
    slots := s.slots.eraseIdx i }

def step (s : LeasedRoster) : LeaseAction -> Option LeasedRoster
  | .tryLease q =>
      if s.replacing.isSome then none
      else
        match AccountManager.tryLease q s.memory.cells s.memory.roster s.rrSeq with
        | .ok (some p) => some (s.lease q p)
        | .ok none | .error _ => some s
  | .dropLease i nowMs => s.leases[i]?.map fun l => s.release i l nowMs
  | .claimCatalogSlot limit now nowMs =>
      if s.replacing.isSome then none
      else
        match AccountManager.claimCatalogSlot limit now s.memory.cells
          s.memory.roster s.catalogRr with
        | .slot p => some (s.claim p nowMs)
        | .busy => some { s with catalogRr := s.catalogRr.wrappingAdd 1 }
        | .unavailable => some s
  | .dropSlot i => s.slots[i]?.map fun p => s.unclaim i p
  | .replace id how now =>
      if s.replacing.isSome then none
      else
        match s.memory.find? id with
        | none => some s
        | some p =>
            match how.build now (s.memory.cells p) with
            | none => some s
            | some a => some { s with replacing := some (p, a) }
  | .install =>
      match s.replacing with
      | none => none
      | some (p, a) =>
          if h : a.id = (s.memory.cells p).id then
            some
              { s with
                memory := s.memory.swap p a h
                replacing := none }
          else none
  | .abandon =>
      if s.replacing.isSome then some { s with replacing := none } else none
  | .restore id remote now =>
      if s.replacing.isSome then none
      else if h : id ∈ s.memory.keys then none
      else
        some
          { s with
            memory := s.memory.insert (RemoteAccount.restore now id remote) h }

/-- The accounts of an instance as a step system. -/
def system : System LeasedRoster LeaseAction := ⟨step⟩

/-!
## What is claimed
-/

/-- Requests in flight for an account, whatever record they hold. -/
def liveLeases (s : LeasedRoster) (id : String) : Nat :=
  s.leases.countP fun l => decide ((s.memory.cells l.account).id = id)

def liveSlots (s : LeasedRoster) (id : String) : Nat :=
  s.slots.countP fun p => decide ((s.memory.cells p).id = id)

/-- The record of every account counts its requests in flight, and rests as long
as the last of them asks for. -/
structure Kept (s : LeasedRoster) : Prop where
  requests : forall p, p ∈ s.memory.roster ->
    (s.memory.cells p).poolInflight = s.liveLeases (s.memory.cells p).id
  slots : forall p, p ∈ s.memory.roster ->
    (s.memory.cells p).catalogInflight = s.liveSlots (s.memory.cells p).id
  rest : forall p, p ∈ s.memory.roster ->
    s.restEnds (s.memory.cells p).id ≤ (s.memory.cells p).restUntilMs

/-- A lease or a slot is only given within the limits of the account. -/
def Within (s : LeasedRoster) : LeaseAction -> Prop
  | .tryLease q => forall p,
      AccountManager.tryLease q s.memory.cells s.memory.roster s.rrSeq =
        .ok (some p) ->
      (q.rules.concurrency = 0 ∨
        s.liveLeases (s.memory.cells p).id < q.rules.concurrency) ∧
      s.restEnds (s.memory.cells p).id ≤ q.nowMs
  | .claimCatalogSlot limit now _ => forall p,
      AccountManager.claimCatalogSlot limit now s.memory.cells s.memory.roster
        s.catalogRr = .slot p ->
      limit = 0 ∨ s.liveSlots (s.memory.cells p).id < limit
  | _ => True

/-- A step keeps to the limits and leaves the counters right. -/
def KeepsBusy (s : LeasedRoster) (a : LeaseAction) : Prop :=
  s.Within a ∧ forall s', s.step a = some s' -> s'.Kept

/-- The record that is replaced has no request and no slot in flight, and no
lease of its account has been released with a rest. -/
def ReplacesAtRest (s : LeasedRoster) : LeaseAction -> Prop
  | .install => forall p a, s.replacing = some (p, a) ->
      (s.memory.cells p).poolInflight = 0 ∧
        (s.memory.cells p).catalogInflight = 0 ∧
        s.restEnds (s.memory.cells p).id ≤ 0
  | _ => True

end LeasedRoster

/-- Replacing the record of an account does not free its busy slots. -/
def BusySlotsSurvive : Prop :=
  forall rows actions,
    LeasedRoster.system.Along LeasedRoster.KeepsBusy (.start rows) actions

end HifiApi
