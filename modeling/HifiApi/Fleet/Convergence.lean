import Mathlib.Data.Fintype.Basic
import HifiApi.Accounts.Published
import HifiApi.Fleet.Pushes

/-!
# Convergence of account records

Every mutation publishes the whole record under a new timestamp, and a merge
takes over a record that is newer.  When timestamps of one account only grow
and Redis never goes back to an older record, all instances end with the record
that was written last.
-/

namespace HifiApi

open AccountState (Shared)

namespace Fleet

variable {Host : Type}

/-- Every instance knows the ids of the index, and Redis holds the records as
the instances hold them; no cell is left over that no roster lists. -/
structure Synchronised (s : Fleet Host accounts) : Prop where
  common : s.Common
  listed : forall h p, p < (s.hosts h).roster.memory.fresh ->
    p ∈ (s.hosts h).roster.memory.roster
  clean : forall h id r, (s.hosts h).roster.lookup id = some r -> r.shared.Clean
  published : forall h id r, (s.hosts h).roster.lookup id = some r ->
    exists v, s.shelf.record id = some (some v) ∧
      RemoteAccount.shared v = r.shared
  records : forall id text, s.shelf.record id = some text ->
    exists h r v, (s.hosts h).roster.lookup id = some r ∧ text = some v ∧
      RemoteAccount.shared v = r.shared

/-- What a mutation that takes effect assigns to an account. -/
def assigned (s : Fleet Host accounts) :
    Action Host accounts -> List (String × Shared)
  | .edit h _ id e now =>
      let started := (s.hosts h).roster.startEdit id e now
      if started.2.isSome then
        (started.1.lookup id).toList.map fun r => (id, r.shared)
      else []
  | _ => []

/-- What an account was at first or was assigned later. -/
def Known (s₀ : Fleet Host accounts) (log : List (String × Shared))
    (id : String) (version : Shared) : Prop :=
  (exists h r, (s₀.hosts h).roster.lookup id = some r ∧ r.shared = version) ∨
    (id, version) ∈ log

/-- A merge on any instance finds nothing to take over, to restore or to
push. -/
def Stable (s : Fleet Host accounts) : Prop :=
  forall h clock,
    let merged :=
      (s.hosts h).roster.mergeAll clock (s.shelf.mget s.shelf.index)
    (forall id, merged.lookup id = (s.hosts h).roster.lookup id) ∧
      merged.unindexed (s.shelf.mget s.shelf.index) = []

/-- Every account that was ever known is known everywhere, as the same record,
and no newer one was ever assigned. -/
def Converged (s₀ : Fleet Host accounts) (log : List (String × Shared))
    (s : Fleet Host accounts) : Prop :=
  forall id version, Known s₀ log id version ->
    exists newest, Known s₀ log id newest ∧
      (forall other, Known s₀ log id other ->
        other.updatedAt ≤ newest.updatedAt) ∧
      forall h, exists r, (s.hosts h).roster.lookup id = some r ∧
        r.shared = newest

end Fleet

open Fleet

/-- Once mutations and pushes have stopped and no merge changes anything, all
instances hold the newest record of every account. -/
def NewestWins : Prop :=
  forall (Host : Type) [DecidableEq Host] (s : Fleet Host accounts)
    (actions : List (Action Host accounts)) (s' : Fleet Host accounts),
    s.Synchronised -> (forall a, a ∈ actions -> a.IsSynchronising) ->
    (fleetSystem Host accounts).run s actions = some s' -> s'.Idle ->
    s'.Stable ->
    s.Converged ((fleetSystem Host accounts).history assigned s actions) s'

namespace Fleet

variable {Host : Type}

/-- A mutation that takes effect reads a clock later than the timestamp it
replaces and ties with the timestamp of no other instance, and a new secret is
decoded once and for all; a record that reaches Redis is no older than the one
it replaces. -/
def InOrder (s : Fleet Host accounts) : Action Host accounts -> Prop
  | .edit h _ id e now =>
      ((s.hosts h).roster.startEdit id e now).2.isSome = true ->
        e.KeepsSecret ∧
          (forall r, (s.hosts h).roster.lookup id = some r ->
            r.updatedAt < now) ∧
          forall h' r, (s.hosts h').roster.lookup id = some r ->
            r.updatedAt ≠ now
  | .advance h k _ =>
      forall id v cells old,
        (s.hosts h).tasks k = some (.setting id (some v) cells) ->
        s.shelf.record id = some (some old) ->
        RemoteAccount.updatedAt old ≤ RemoteAccount.updatedAt v
  | _ => True

instance [Fintype Host] (s : Fleet Host accounts) :
    (a : Action Host accounts) -> Decidable (s.InOrder a)
  | .edit h _ id e now =>
      decidable_of_iff
        (((s.hosts h).roster.startEdit id e now).2.isSome = true ->
          e.KeepsSecret ∧
            (forall r, r ∈ (s.hosts h).roster.lookup id ->
              r.updatedAt < now) ∧
            forall h' r, r ∈ (s.hosts h').roster.lookup id ->
              r.updatedAt ≠ now)
        Iff.rfl
  | .advance h k _ =>
      decidable_of_iff
        (forall w, w ∈ ((s.hosts h).tasks k).bind recordSet ->
          forall text, text ∈ s.shelf.record w.1 -> forall old, old ∈ text ->
            RemoteAccount.updatedAt old ≤ RemoteAccount.updatedAt w.2)
        (by
          constructor
          · intro horder id v cells old htask hold
            exact horder (id, v) (by simp [htask, recordSet]) _ hold old rfl
          · intro horder w hw text htext old hold
            rcases Option.bind_eq_some_iff.mp hw with ⟨t, htask, hset⟩
            cases hold
            cases t with
            | setting id payload cells =>
                cases payload with
                | none =>
                    cases hset
                | some v =>
                    cases hset
                    exact horder id v cells old htask htext
            | _ =>
                cases hset)
  | .merge _ _ | .create _ _ _ _ | .remove _ _ _ | .lose _ _ | .restart _ =>
      isTrue trivial

/-!
## Versions that are backed
-/

/-- Some instance holds the account at least as new, the index lists it, and
Redis holds it at least as new or is about to. -/
structure Backed (s : Fleet Host accounts) (id : String) (stamp : I64) :
    Prop where
  held : exists h r, (s.hosts h).roster.lookup id = some r ∧
    stamp ≤ r.updatedAt
  indexed : id ∈ s.shelf.index
  latest : (exists v, s.shelf.record id = some (some v) ∧
      stamp ≤ RemoteAccount.updatedAt v) ∨
    exists h k t, (s.hosts h).tasks k = some t ∧
      Promises (s.hosts h).roster id stamp t

/-!
## All versions of an account
-/

theorem Known.append {s₀ : Fleet Host accounts} {log : List (String × Shared)}
    {id id' : String} {version version' : Shared} :
    Known s₀ (log ++ [(id', version')]) id version <->
      Known s₀ log id version ∨ (id = id' ∧ version = version') := by
  unfold Known
  rw [List.mem_append, List.mem_singleton, Prod.mk.injEq, or_assoc]

/-- The record is a version of its account. -/
def IsVersion (s₀ : Fleet Host accounts) (log : List (String × Shared))
    (r : AccountState) : Prop :=
  Known s₀ log r.id r.shared

/-- The text reads back as a version of the account. -/
def ReadsVersion (s₀ : Fleet Host accounts) (log : List (String × Shared))
    (id : String) (text : Option Value) : Prop :=
  exists v, text = some v ∧ Known s₀ log id (RemoteAccount.shared v)

/-- Everything the fleet holds is a version that was assigned; versions read
back as they are, no two of them are newest, and all are backed. -/
structure Versions (s₀ s : Fleet Host accounts)
    (log : List (String × Shared)) : Prop where
  every : s.Everywhere (IsVersion s₀ log) (fun _ => True) (ReadsVersion s₀ log)
  tasks : forall h k t, (s.hosts h).tasks k = some t -> Synchronises t
  clean : forall id version, Known s₀ log id version -> version.Clean
  unique : forall id version version', Known s₀ log id version ->
    Known s₀ log id version' ->
    (forall other, Known s₀ log id other ->
      other.updatedAt ≤ version.updatedAt) ->
    version.updatedAt = version'.updatedAt -> version = version'
  backed : forall id version, Known s₀ log id version ->
    s.Backed id version.updatedAt

theorem known_preserved {s₀ : Fleet Host accounts}
    {log : List (String × Shared)}
    (hclean : forall id version, Known s₀ log id version -> version.Clean) :
    Preserved (C := accounts) (IsVersion s₀ log) (fun _ => True)
      (ReadsVersion s₀ log) where
  publish := by
    intro r hr
    refine ⟨_, rfl, ?_⟩
    rw [RemoteAccount.shared_of_clean (hclean r.id r.shared hr)]
    exact hr
  adopt := by
    intro r text r' _ htext hadopt
    rcases htext with ⟨v, hv, hknown⟩
    rcases Option.bind_eq_some_iff.mp hadopt with ⟨v', hv', hread⟩
    have heq : v' = v := Option.some.inj (hv'.symm.trans hv)
    subst heq
    have hspec := RemoteAccount.adopt_spec hread
    unfold IsVersion
    rw [hspec.right.left, hspec.right.right]
    exact hknown
  restore := by
    intro now id text r htext hrestore
    rcases htext with ⟨v, hv, hknown⟩
    rcases Option.map_eq_some_iff.mp hrestore with ⟨v', hv', hread⟩
    have heq : v' = v := Option.some.inj (hv'.symm.trans hv)
    subst heq
    rw [← hread]
    exact hknown
  adoptRow := fun _ _ _ _ => trivial
  editRow := fun _ _ _ _ _ _ _ => trivial
  newRow := fun _ _ _ => trivial
  repairRow := fun _ _ => trivial

theorem Synchronised.versions {s : Fleet Host accounts} (hs : s.Synchronised) :
    Versions s s [] where
  every := by
    refine ⟨?_, fun _ _ _ => trivial, ?_, ?_⟩
    · intro h p hp
      refine Or.inl ⟨h, (s.hosts h).roster.memory.cells p, ?_, rfl⟩
      exact Arena.lookup_eq_some.mpr ⟨p, hs.listed h p hp, rfl, rfl⟩
    · intro id text htext
      rcases hs.records id text htext with ⟨h, r, v, hr, hv, hshared⟩
      exact ⟨v, hv, Or.inl ⟨h, r, hr, hshared.symm⟩⟩
    · intro h k t ht
      rw [hs.common.idle h k] at ht
      cases ht
  tasks := by
    intro h k t ht
    rw [hs.common.idle h k] at ht
    cases ht
  clean := by
    intro id version hversion
    rcases hversion with ⟨h, r, hr, hshared⟩ | hlog
    · rw [← hshared]
      exact hs.clean h id r hr
    · cases hlog
  unique := by
    intro id version version' hversion hversion' _ _
    rcases hversion with ⟨h, r, hr, hshared⟩ | hlog
    · rcases hversion' with ⟨h', r', hr', hshared'⟩ | hlog
      · rcases hs.published h id r hr with ⟨v, hv, hread⟩
        rcases hs.published h' id r' hr' with ⟨v', hv', hread'⟩
        rw [hv] at hv'
        cases hv'
        rw [← hshared, ← hshared', ← hread, hread']
      · cases hlog
    · cases hlog
  backed := by
    intro id version hversion
    rcases hversion with ⟨h, r, hr, hshared⟩ | hlog
    · rcases hs.published h id r hr with ⟨v, hv, hread⟩
      subst hshared
      have hkey : id ∈ (s.hosts h).roster.memory.keys :=
        Roster.mem_keys_iff_lookup.mpr ⟨r, hr⟩
      refine ⟨⟨h, r, hr, le_refl _⟩, (hs.common.ids h id).mp hkey,
        Or.inl ⟨v, hv, ?_⟩⟩
      exact le_of_eq (congrArg Shared.updatedAt hread).symm
    · cases hlog

theorem Versions.known_lookup {s₀ s : Fleet Host accounts}
    {log : List (String × Shared)} (hs : Versions s₀ s log) {h : Host}
    {id : String} {r : AccountState}
    (hr : (s.hosts h).roster.lookup id = some r) :
    Known s₀ log id r.shared := by
  have hrid : r.id = id := Roster.idOf_lookup hr
  have hcell := (hs.every.cells h).lookup hr
  rw [← hrid]
  exact hcell

/-!
## Quiet and stable fleets
-/

/-- Where no merge has anything to take over, the record of Redis is the newest
one, and every instance holds it. -/
theorem Versions.converged {s₀ s : Fleet Host accounts}
    {log : List (String × Shared)} (hs : Versions s₀ s log) (hidle : s.Idle)
    (hstable : s.Stable) : s₀.Converged log s := by
  intro id version hversion
  have hlatest : forall version, Known s₀ log id version ->
      exists v, s.shelf.record id = some (some v) ∧
        version.updatedAt ≤ RemoteAccount.updatedAt v := by
    intro version hversion
    rcases (hs.backed id version hversion).latest with
      hrecord | ⟨h, k, t, ht, _⟩
    · exact hrecord
    · rw [hidle h k] at ht
      cases ht
  rcases hlatest version hversion with ⟨v, hv, _⟩
  rcases hs.every.records id (some v) hv with ⟨v', hv', hknown⟩
  cases hv'
  have hindexed := (hs.backed id version hversion).indexed
  have hnewest : forall other, Known s₀ log id other ->
      other.updatedAt ≤ RemoteAccount.updatedAt v := by
    intro other hother
    rcases hlatest other hother with ⟨v', hv', hle⟩
    rw [hv] at hv'
    cases hv'
    exact hle
  refine ⟨RemoteAccount.shared v, hknown, hnewest, ?_⟩
  intro h
  have hmerged := (hstable h fun _ => 0).left id
  rw [Roster.lookup_mergeAll (by rw [Shelf.map_fst_mget]; exact s.shelf.once)
    (Shelf.mem_mget.mpr ⟨hindexed, hv⟩)] at hmerged
  cases hr : (s.hosts h).roster.lookup id with
  | none =>
      rw [hr] at hmerged
      cases hmerged
  | some r =>
      rw [hr] at hmerged
      refine ⟨r, rfl, ?_⟩
      have hheld := hs.known_lookup hr
      have hkept : RemoteAccount.updatedAt v ≤ r.updatedAt := by
        by_contra hnewer
        cases hadopt : RemoteAccount.adopt r v with
        | none =>
            exact hnewer (RemoteAccount.adopt_eq_none.mp hadopt)
        | some r₁ =>
            have hspec := RemoteAccount.adopt_spec hadopt
            have hsame : r₁ = r := by
              simpa [Roster.mergedRecord, hadopt] using hmerged
            have hstamp : r₁.updatedAt = RemoteAccount.updatedAt v :=
              congrArg Shared.updatedAt hspec.right.right
            rw [hsame] at hstamp
            exact hnewer (le_of_eq hstamp.symm)
      have hsame := le_antisymm (hnewest r.shared hheld) hkept
      exact (hs.unique id (RemoteAccount.shared v) r.shared hknown hheld
        hnewest hsame.symm).symm

/-- Instances that have loaded the same rows are synchronised. -/
theorem loaded_synchronised (host : Host)
    {t : Table accounts.Row accounts.rowId}
    (hclean : t.Holds fun row => (accounts.loadRow row).shared.Clean) :
    (loaded Host t : Fleet Host accounts).Synchronised := by
  have hloaded : forall h id r,
      ((loaded Host t : Fleet Host accounts).hosts h).roster.lookup id = some r ->
      r.shared.Clean := by
    intro h id r hr
    exact (Roster.holds_reload (C := accounts) (m := ⟨Arena.empty, t⟩)
      (Q := fun r => r.shared.Clean) hclean fun _ hrow => hrow).lookup hr
  refine ⟨loaded_common Host t, fun _ _ hp => List.mem_range.mpr hp, hloaded,
    ?_, ?_⟩
  · intro h id r hr
    exact ⟨accountToJson r, Option.map_eq_some_iff.mpr ⟨r, hr, rfl⟩,
      RemoteAccount.shared_of_clean (hloaded h id r hr)⟩
  · intro id text htext
    rcases Option.map_eq_some_iff.mp htext with ⟨r, hr, hpayload⟩
    exact ⟨host, r, accountToJson r, hr, hpayload.symm,
      RemoteAccount.shared_of_clean (hloaded host id r hr)⟩

/-- A fleet is stable when every instance holds all records of Redis, none of
them older, and no others. -/
theorem stable_of_forall {s : Fleet Host accounts}
    (hids : forall h id, id ∈ (s.hosts h).roster.memory.keys ->
      id ∈ s.shelf.index)
    (hkept : forall h id, id ∈ s.shelf.index ->
      ((s.hosts h).roster.lookup id).any
        (fun r => ((s.shelf.record id).bind (accounts.adopt r)).isNone) = true) :
    s.Stable := by
  intro h clock
  constructor
  · intro id
    by_cases hid : id ∈ s.shelf.index
    · rw [Roster.lookup_mergeAll (by rw [Shelf.map_fst_mget]; exact s.shelf.once)
        (Shelf.mem_mget.mpr ⟨hid, rfl⟩)]
      rcases (Option.any_eq_true _ _).mp (hkept h id hid) with
        ⟨r, hr, hnone⟩
      rw [hr]
      cases hpayload : s.shelf.record id with
      | none =>
          rfl
      | some v =>
          rw [hpayload] at hnone
          have hadopt : accounts.adopt r v = none :=
            Option.isNone_iff_eq_none.mp hnone
          exact congrArg (fun o => some (Option.getD o r)) hadopt
    · refine Roster.lookup_mergeAll_of_not_mem ?_
      rw [Shelf.map_fst_mget]
      exact hid
  · refine List.filter_eq_nil_iff.mpr ?_
    intro p hp
    have hkey := (Roster.mem_keys_mergeAll (C := accounts)).mp
      (List.mem_map.mpr ⟨p, hp, rfl⟩)
    rw [Shelf.map_fst_mget, decide_eq_true_iff, not_not]
    rcases hkey with hknown | ⟨v, hentry, _⟩
    · exact hids h _ hknown
    · exact (Shelf.mem_mget.mp hentry).left

/-!
## Steps
-/

variable [DecidableEq Host]

theorem Backed.put {s : Fleet Host accounts} {id : String} {stamp : I64}
    (hs : s.Backed id stamp) {h : Host} {k : Nat} {m : Roster accounts}
    {shelf : Shelf accounts} {task : Option (Task accounts)}
    (hnewer : Newer id (s.hosts h).roster m)
    (hindex : forall id, id ∈ s.shelf.index -> id ∈ shelf.index)
    (hrecord : forall v, s.shelf.record id = some (some v) ->
      exists v', shelf.record id = some (some v') ∧
        RemoteAccount.updatedAt v ≤ RemoteAccount.updatedAt v')
    (hothers : forall k' t, (s.hosts h).tasks k' = some t ->
      Promises (s.hosts h).roster id stamp t -> Promises m id stamp t)
    (htask : forall t, (s.hosts h).tasks k = some t ->
      Promises (s.hosts h).roster id stamp t ->
      (exists v, shelf.record id = some (some v) ∧
        stamp ≤ RemoteAccount.updatedAt v) ∨
      exists t', task = some t' ∧ Promises m id stamp t') :
    (s.put h k m shelf task).Backed id stamp where
  held := by
    rcases hs.held with ⟨h', r, hr, hle⟩
    refine ⟨h', ?_⟩
    rw [put_roster]
    by_cases hh : h' = h
    · subst hh
      rw [if_pos rfl]
      rcases hnewer r hr with ⟨r', hr', hle'⟩
      exact ⟨r', hr', le_trans hle hle'⟩
    · rw [if_neg hh]
      exact ⟨r, hr, hle⟩
  indexed := hindex id hs.indexed
  latest := by
    rcases hs.latest with ⟨v, hv, hle⟩ | ⟨h', k', t, ht, hpromise⟩
    · rcases hrecord v hv with ⟨v', hv', hle'⟩
      exact Or.inl ⟨v', hv', le_trans hle hle'⟩
    · by_cases hh : h' = h
      · subst hh
        by_cases hk : k' = k
        · subst hk
          rcases htask t ht hpromise with hkept | ⟨t', ht', hnext⟩
          · exact Or.inl hkept
          · refine Or.inr ⟨h', k', t', ?_, ?_⟩
            · rw [put_tasks_same, if_pos rfl]
              exact ht'
            · rw [put_roster_same]
              exact hnext
        · refine Or.inr ⟨h', k', t, ?_, ?_⟩
          · rw [put_tasks_same, if_neg hk]
            exact ht
          · rw [put_roster_same]
            exact hothers k' t ht hpromise
      · refine Or.inr ⟨h', k', t, ?_, ?_⟩
        · rw [put_hosts_of_ne s hh]
          exact ht
        · rw [put_hosts_of_ne s hh]
          exact hpromise

theorem versions_merge {s₀ s s' : Fleet Host accounts}
    {log : List (String × Shared)} (hs : Versions s₀ s log) {h : Host}
    {k : Nat} (hstep : s.step (.merge h k) = some s') : Versions s₀ s' log := by
  rcases step_merge.mp hstep with ⟨hfree, heq⟩
  refine ⟨everywhere_step (a := .merge h k) (known_preserved hs.clean)
    hs.every trivial hstep,
    synchronises_step (a := .merge h k) hs.tasks trivial hstep, hs.clean,
    hs.unique, ?_⟩
  intro id version hversion
  rw [heq]
  refine (hs.backed id version hversion).put (Newer.refl id _)
    (fun _ hid => hid) (fun v hv => ⟨v, hv, le_refl _⟩)
    (fun _ _ _ hpromise => hpromise) ?_
  intro t ht
  rw [hfree] at ht
  cases ht

theorem versions_advance {s₀ s s' : Fleet Host accounts}
    {log : List (String × Shared)} (hs : Versions s₀ s log) {h : Host}
    {k : Nat} {clock : String -> I64} (horder : s.InOrder (.advance h k clock))
    (hstep : s.step (.advance h k clock) = some s') :
    Versions s₀ s' log := by
  rcases step_advance.mp hstep with ⟨t, o, htask, hadvance, heq⟩
  have hsync := hs.tasks h k t htask
  have hrecord : forall id v, s.shelf.record id = some (some v) ->
      exists v', o.shelf.record id = some (some v') ∧
        RemoteAccount.updatedAt v ≤ RemoteAccount.updatedAt v' := by
    intro id v hv
    rcases record_advance hsync hadvance id with
      hsame | ⟨payload, cells, hset, hnew⟩
    · rw [hsame]
      exact ⟨v, hv, le_refl _⟩
    · subst hset
      rcases (hs.every.tasks h k _ htask).left with ⟨v', hv', _⟩
      subst hv'
      exact ⟨v', hnew, horder id v' cells v htask hv⟩
  have hroster := newer_advance hsync hadvance
  refine ⟨everywhere_step (a := .advance h k clock)
    (known_preserved hs.clean) hs.every trivial hstep,
    synchronises_step (a := .advance h k clock) hs.tasks trivial hstep,
    hs.clean, hs.unique, ?_⟩
  intro id version hversion
  rw [heq]
  refine (hs.backed id version hversion).put (hroster.left id)
    (fun _ hid => index_advance hsync hadvance hid) (hrecord id) ?_ ?_
  · intro k' t' ht' hpromise
    refine hpromise.mono ?_
    intro p hp
    rw [hroster.right p (lt_of_mem_cellsOf (hs.every.tasks h k' t' ht') hp)]
    exact ⟨rfl, le_refl _⟩
  · intro t' ht' hpromise
    rw [htask] at ht'
    cases ht'
    exact promises_advance hpromise hadvance

section Edit

variable {s₀ s s' : Fleet Host accounts} {log : List (String × Shared)}
  {h : Host} {k : Nat} {id : String} {e : AccountEdit} {now : I64}
  {r r' : AccountState} {cell : Nat} {t : Task accounts}

/-- What backed a version before a mutation backs it afterwards. -/
theorem backed_edit (hs : Versions s₀ s log)
    (hfree : (s.hosts h).tasks k = none) {m' : Roster accounts}
    (hedited : (s.hosts h).roster.Edited m' id e now r r' cell t)
    (hid : r'.id = r.id) (hstamp : r.updatedAt ≤ r'.updatedAt)
    {id' : String} {stamp : I64} (hbacked : s.Backed id' stamp) :
    (s.put h k m' s.shelf (some t)).Backed id' stamp := by
  refine hbacked.put ?_ (fun _ hid => hid) (fun v hv => ⟨v, hv, le_refl _⟩)
    ?_ ?_
  · intro r₁ hr₁
    rw [hedited.after]
    split
    · rename_i hid₁
      rw [hid₁, hedited.before] at hr₁
      cases hr₁
      exact ⟨r', rfl, hstamp⟩
    · exact ⟨r₁, hr₁, le_refl _⟩
  · intro k' t' ht' hpromise
    refine hpromise.mono ?_
    intro p hp
    rcases hedited.cells p (lt_of_mem_cellsOf (hs.every.tasks h k' t' ht') hp) with
      hsame | ⟨hpc, hold⟩
    · rw [hsame]
      exact ⟨rfl, le_refl _⟩
    · rw [hpc, hedited.cell_eq, ← hpc, hold]
      exact ⟨hid, hstamp⟩
  · intro t' ht'
    rw [hfree] at ht'
    cases ht'

/-- The task of a mutation backs the version it assigns. -/
theorem backed_edited (hs : Versions s₀ s log) {m' : Roster accounts}
    (hedited : (s.hosts h).roster.Edited m' id e now r r' cell t)
    (hknown : Known s₀ log id r.shared) :
    (s.put h k m' s.shelf (some t)).Backed id r'.updatedAt where
  held := by
    refine ⟨h, r', ?_, le_refl _⟩
    rw [put_roster_same, hedited.after, if_pos rfl]
  indexed := (hs.backed id _ hknown).indexed
  latest := by
    refine Or.inr ⟨h, k, t, ?_, ?_⟩
    · rw [put_tasks_same, if_pos rfl]
    · rw [put_roster_same]
      exact promises_edited hedited (le_refl _)

theorem versions_edit (hs : Versions s₀ s log)
    (horder : s.InOrder (.edit h k id e now))
    (hstep : s.step (.edit h k id e now) = some s') :
    Versions s₀ s' (log ++ s.assigned (.edit h k id e now)) := by
  rcases step_edit.mp hstep with ⟨hfree, heq⟩
  rcases (s.hosts h).roster.startEdit_cases id e now with
    hsame | ⟨r, r', cell, t, hstarted, hedited⟩
  · have hs' : s' = s := by
      rw [heq, hsame]
      exact put_self hfree
    have hnothing : s.assigned (.edit h k id e now) = [] := by
      simp [assigned, hsame]
    rw [hs', hnothing, List.append_nil]
    exact hs
  · have heffective :
        ((s.hosts h).roster.startEdit id e now).2.isSome = true := by
      rw [hstarted]
      rfl
    have hassigned : s.assigned (.edit h k id e now) = [(id, r'.shared)] := by
      simp [assigned, hstarted, hedited.after]
    rcases horder heffective with ⟨hsecret, hlater, hties⟩
    have happly : e.apply now r = some r' := hedited.edit
    have hstamps := AccountEdit.apply_stamps happly
    have hid : r'.id = id :=
      hstamps.left.trans (Roster.idOf_lookup hedited.before)
    have hknown := hs.known_lookup hedited.before
    have hgrown : r.updatedAt ≤ r'.updatedAt := by
      rw [hstamps.right]
      exact le_of_lt (hlater r hedited.before)
    -- what ties with the new version is held by no instance, so a newer version
    -- is known
    have hnotNewest : forall version, Known s₀ log id version ->
        version.updatedAt = now ->
        ¬ forall other, Known s₀ log id other -> other.updatedAt ≤ now := by
      intro version hversion hstamp hnewest
      rcases (hs.backed id version hversion).held with ⟨h', r₁, hr₁, hle⟩
      rw [hstamp] at hle
      exact hties h' r₁ hr₁
        (le_antisymm (hnewest r₁.shared (hs.known_lookup hr₁)) hle)
    have hclean : forall id' version,
        Known s₀ (log ++ [(id, r'.shared)]) id' version -> version.Clean := by
      intro id' version hversion
      rcases Known.append.mp hversion with hold | ⟨_, hr'⟩
      · exact hs.clean id' version hold
      · rw [hr']
        exact AccountEdit.apply_clean happly (hs.clean id _ hknown) hsecret
    have hgrow : forall id' version, Known s₀ log id' version ->
        Known s₀ (log ++ [(id, r'.shared)]) id' version :=
      fun _ _ hversion => Known.append.mpr (Or.inl hversion)
    rw [hassigned]
    refine ⟨?_, synchronises_step (a := .edit h k id e now) hs.tasks trivial
      hstep, hclean, ?_, ?_⟩
    · have hevery := hs.every.mono
        (R := IsVersion s₀ (log ++ [(id, r'.shared)]))
        (T := ReadsVersion s₀ (log ++ [(id, r'.shared)]))
        (fun _ hr => hgrow _ _ hr)
        (fun _ _ hread => by
          rcases hread with ⟨v, hv, hversion⟩
          exact ⟨v, hv, hgrow _ _ hversion⟩)
      refine everywhere_step (known_preserved hclean) hevery ?_ hstep
      intro r₁ r₁' hr₁ _ hedit _
      rw [hedited.before] at hr₁
      cases hr₁
      have heq' : r₁' = r' := Option.some.inj (hedit.symm.trans hedited.edit)
      rw [heq']
      exact Known.append.mpr (Or.inr ⟨hid, rfl⟩)
    · intro id' version version' hversion hversion' hnewest hstamp
      have hnewest' : forall other, Known s₀ log id' other ->
          other.updatedAt ≤ version.updatedAt :=
        fun other hother => hnewest other (hgrow _ _ hother)
      rcases Known.append.mp hversion with hold | ⟨hid', hr⟩
      · rcases Known.append.mp hversion' with hold' | ⟨hid', hr'⟩
        · exact hs.unique id' version version' hold hold' hnewest' hstamp
        · subst hid'
          rw [hr'] at hstamp
          have hnow := hstamp.trans hstamps.right
          rw [hnow] at hnewest'
          exact absurd hnewest' (hnotNewest version hold hnow)
      · subst hid'
        rcases Known.append.mp hversion' with hold' | ⟨_, hr'⟩
        · have hnow : version.updatedAt = now := by
            rw [hr]
            exact hstamps.right
          rw [hnow] at hnewest'
          exact absurd hnewest'
            (hnotNewest version' hold' (hstamp.symm.trans hnow))
        · rw [hr, hr']
    · intro id' version hversion
      rw [heq, hstarted]
      rcases Known.append.mp hversion with hold | ⟨hid', hr⟩
      · exact backed_edit hs hfree hedited hstamps.left hgrown
          (hs.backed id' version hold)
      · rw [hid', hr]
        exact backed_edited hs hedited hknown

end Edit

theorem versions_step {s₀ s s' : Fleet Host accounts}
    {log : List (String × Shared)} {a : Action Host accounts}
    (hs : Versions s₀ s log) (ha : a.IsSynchronising) (horder : s.InOrder a)
    (hstep : s.step a = some s') : Versions s₀ s' (log ++ s.assigned a) := by
  cases a with
  | edit h k id e now =>
      exact versions_edit hs horder hstep
  | merge h k =>
      simpa [assigned] using versions_merge hs hstep
  | advance h k clock =>
      simpa [assigned] using versions_advance hs horder hstep
  | _ =>
      exact False.elim ha

/-!
## Runs
-/

/-- In a run whose steps are in order, all instances end with the newest
record of every account. -/
theorem converged_of_inOrder {s s' : Fleet Host accounts}
    {actions : List (Action Host accounts)} (hs : s.Synchronised)
    (hactions : forall a, a ∈ actions -> a.IsSynchronising)
    (horder : (fleetSystem Host accounts).Along InOrder s actions)
    (hrun : (fleetSystem Host accounts).run s actions = some s')
    (hidle : s'.Idle) (hstable : s'.Stable) :
    s.Converged ((fleetSystem Host accounts).history assigned s actions) s' := by
  have hversions := System.run_history_invariant
    (P := fun t a => a.IsSynchronising ∧ t.InOrder a)
    (I := fun t log => Versions s t log)
    (fun _ _ _ _ hI hP hstep => versions_step hI hP.left hP.right hstep)
    hs.versions
    ((System.along_and (P := fun _ a => a.IsSynchronising)).mpr
      ⟨System.along_of_forall_mem hactions, horder⟩) hrun
  exact hversions.converged hidle hstable

/-!
## One mutation, and two in the same second
-/

theorem oneRow_clean :
    oneRow.Holds fun row => (accounts.loadRow row).shared.Clean := by
  intro row hrow
  rw [List.mem_singleton.mp hrow]
  exact ⟨by decide, fun _ => rfl⟩

/-- One instance switches the account off in second 5 and publishes it. -/
def switchOff : List (Action Bool accounts) :=
  .edit false 0 "a" (.setAccountActive false) ⟨5, by decide, by decide⟩ ::
    List.replicate 4 (.advance false 0 fun _ => 0)

/-- The other one merges it. -/
def switchOffMerged : List (Action Bool accounts) :=
  switchOff ++ Action.merge true 0 :: List.replicate 2 (.advance true 0 fun _ => 0)

/-- The other one moves the account into the catalog in the same second. -/
def switchedTwice : List (Action Bool accounts) :=
  switchOff ++
    (.edit true 0 "a" (.setAccountCatalog true) ⟨5, by decide, by decide⟩ ::
      List.replicate 4 (.advance true 0 fun _ => 0) : List (Action Bool accounts))

theorem converged_of_inOrder_switchOff :
    exists s', (fleetSystem Bool accounts).run (loaded Bool oneRow)
        switchOffMerged = some s' ∧
      (loaded Bool oneRow).Converged
        ((fleetSystem Bool accounts).history assigned (loaded Bool oneRow)
          switchOffMerged) s' := by
  refine ⟨_, rfl, converged_of_inOrder (loaded_synchronised false oneRow_clean)
    (by decide) (by decide) rfl ?_ ?_⟩
  · intro h k
    cases h <;> cases k <;> rfl
  · exact stable_of_forall (by decide) (by decide)

theorem not_newestWins : ¬ NewestWins := by
  intro h
  have hconverged := h Bool (loaded Bool oneRow) switchedTwice _
    (loaded_synchronised false oneRow_clean) (by decide) rfl ?_ ?_
  · rcases hconverged "a" _ (Or.inl ⟨false, _, rfl, rfl⟩) with
      ⟨newest, _, _, hall⟩
    rcases hall false with ⟨r, hr, hshared⟩
    rcases hall true with ⟨r', hr', hshared'⟩
    cases hr
    cases hr'
    have hactive := congrArg Shared.isActive (hshared.trans hshared'.symm)
    cases hactive
  · intro h k
    cases h <;> cases k <;> rfl
  · exact stable_of_forall (by decide) (by decide)

end Fleet

end HifiApi
