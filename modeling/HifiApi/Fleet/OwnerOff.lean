import HifiApi.Fleet.Deletes
import HifiApi.Fleet.Pushes

/-!
# An owner's OFF against background work

One instance switches an account off while another one refreshes its token or
takes it out of service.  Every mutation publishes the whole record, so the OFF
holds exactly as long as the other instance mutates only what it has merged,
and no push from before the OFF lands on top of it.
-/

namespace HifiApi

open AccountState (Shared)

/-!
## The switches of an account
-/

/-- What decides whether an account is in service, and since when. -/
structure Switches where
  isActive : Bool
  autoDisabled : Bool
  updatedAt : I64

namespace AccountState.Shared

def switches (s : Shared) : Switches := ⟨s.isActive, s.autoDisabled, s.updatedAt⟩

end AccountState.Shared

/-- The owner has switched the account off. -/
def Switches.Off (sw : Switches) : Prop :=
  sw.isActive = false ∧ sw.autoDisabled = false

instance (sw : Switches) : Decidable sw.Off :=
  inferInstanceAs (Decidable (_ ∧ _))

/-- The mutations that run in the background. -/
def AccountEdit.IsBackground : AccountEdit -> Prop
  | storeRefreshedCredentials _ _ _ _ => True
  | setSystemDisabled _ => True
  | _ => False

instance : (e : AccountEdit) -> Decidable e.IsBackground
  | .storeRefreshedCredentials _ _ _ _ | .setSystemDisabled _ => isTrue trivial
  | .setAccountActive _ | .setAccountCatalog _ | .disableAfterAuthFailures _
  | .updateAccount _ _ _ _ _ => isFalse id

/-- Both instances merge; instance {lit}`true` also mutates in the
background. -/
def Action.IsBackground : Action Bool accounts -> Prop
  | .edit h _ _ e _ => h = true ∧ e.IsBackground
  | .merge _ _ => True
  | .advance _ _ _ => True
  | _ => False

instance : (a : Action Bool accounts) -> Decidable a.IsBackground
  | .edit h _ _ e _ => inferInstanceAs (Decidable (h = true ∧ e.IsBackground))
  | .merge _ _ | .advance _ _ _ => isTrue trivial
  | .create _ _ _ _ | .remove _ _ _ | .lose _ _ | .restart _ => isFalse id

namespace Fleet

/-- Both instances hold the same active record of the account, and Redis holds
it too; no cell is left over that no roster lists. -/
structure StartsActive (s : Fleet Bool accounts) (id : String)
    (first : Shared) : Prop where
  common : s.Common
  listed : forall h p, p < (s.hosts h).roster.memory.fresh ->
    p ∈ (s.hosts h).roster.memory.roster
  held : forall h, exists r, (s.hosts h).roster.lookup id = some r ∧
    r.shared = first
  published : exists v, s.shelf.record id = some (some v) ∧
    (RemoteAccount.shared v).switches = first.switches
  active : first.isActive = true

/-- The owner has switched the account off on an instance. -/
def OffAt (s : Fleet Bool accounts) (id : String) (h : Bool) : Prop :=
  exists r, (s.hosts h).roster.lookup id = some r ∧ r.shared.switches.Off

/-- Instance {lit}`false` switches an account off while the other one works in
the background; when all of that has ended, both finish a further merge. -/
structure SwitchedOff (s : Fleet Bool accounts) (id : String) (k : Nat)
    (now : I64) (before during after : List (Action Bool accounts))
    (s' : Fleet Bool accounts) : Prop where
  start : exists first, s.StartsActive id first ∧
    ((before ++ .edit false k id (.setAccountActive false) now ::
      during).filterMap Action.reading?).Pairwise (· < ·) ∧
    forall reading, reading ∈ (before ++
        .edit false k id (.setAccountActive false) now ::
          during).filterMap Action.reading? ->
      first.updatedAt < reading
  background : forall a, a ∈ before ++ during -> a.IsBackground
  merging : forall a, a ∈ after -> a.IsMerging
  ended : exists mid,
    (fleetSystem Bool accounts).run s
        (before ++ .edit false k id (.setAccountActive false) now :: during) =
      some mid ∧
    mid.Idle ∧ (forall h, mid.FinishedMerge after h) ∧
    (fleetSystem Bool accounts).run mid after = some s'

end Fleet

open Fleet

/-- An owner's OFF is not undone by background work on another instance. -/
def OwnerOffStays : Prop :=
  forall (s : Fleet Bool accounts) (id : String) (k : Nat) (now : I64)
    (before during after : List (Action Bool accounts))
    (s' : Fleet Bool accounts),
    s.SwitchedOff id k now before during after s' ->
    forall h, s'.OffAt id h

namespace Fleet

/-- The instance that works in the background holds the OFF, or one of its
merges has read it. -/
def KnowsOff (s : Fleet Bool accounts) (id : String) : Prop :=
  s.OffAt id true ∨
    exists k entries v, (s.hosts true).tasks k = some (.fetched entries) ∧
      (id, some (some v)) ∈ entries ∧ (RemoteAccount.shared v).switches.Off

/-- A mutation of the account that takes effect on one instance finds the OFF
there when the other one holds it; and where another record is to replace the
OFF in Redis, the instance that works in the background knows of it. -/
def RespectsOff (id : String) (s : Fleet Bool accounts) :
    Action Bool accounts -> Prop
  | .edit h _ id' e now =>
      id' = id -> ((s.hosts h).roster.startEdit id' e now).2.isSome = true ->
        s.OffAt id (!h) -> s.OffAt id h
  | .advance h k _ =>
      forall v cells old,
        (s.hosts h).tasks k = some (.setting id (some v) cells) ->
        s.shelf.record id = some (some old) ->
        (RemoteAccount.shared old).switches.Off ->
        ¬ (RemoteAccount.shared v).switches.Off -> s.KnowsOff id
  | _ => True

/-!
## Switches in memory and in Redis
-/

theorem switches_accountToJson (a : AccountState) :
    (RemoteAccount.shared (accountToJson a)).switches = a.shared.switches := by
  rw [RemoteAccount.shared_accountToJson]
  rfl

theorem background_switches {e : AccountEdit} {now : I64}
    {a a' : AccountState} (he : e.IsBackground)
    (h : e.apply now a = some a') :
    a'.shared.switches.updatedAt = now ∧
      (a'.shared.switches.Off <-> a.shared.switches.Off) := by
  refine ⟨(AccountEdit.apply_stamps h).right, ?_⟩
  cases e with
  | storeRefreshedCredentials oldRefresh rotated token expiresAt =>
      simp only [AccountEdit.apply, AccountState.storeRefreshedCredentials] at h
      split at h
      · cases h
      · cases h
        exact Iff.rfl
  | setSystemDisabled disabled =>
      simp only [AccountEdit.apply, AccountState.setSystemDisabled] at h
      split at h
      · cases h
      · rename_i hoff
        split at h
        · cases h
        · rename_i hon
          cases h
          -- neither before nor after is the account switched off by its owner
          show ((!disabled) = false ∧ disabled = false) <->
            (a.isActive = false ∧ a.autoDisabled = false)
          cases disabled with
          | true =>
              simpa using hoff
          | false =>
              have hauto : a.autoDisabled = true := by simpa using hon
              simp [hauto]
  | _ =>
      exact False.elim he

/-- The record is of another account, or its switches have the property. -/
def Switched (S : Switches -> Prop) (id : String) (r : AccountState) : Prop :=
  r.id = id -> S r.shared.switches

/-- The text is of another account, or it reads as switches with the
property. -/
def ReadsSwitched (S : Switches -> Prop) (id id' : String)
    (text : Option Value) : Prop :=
  id' = id ->
    exists v, text = some v ∧ S (RemoteAccount.shared v).switches

theorem switched_preserved (S : Switches -> Prop) (id : String) :
    Preserved (C := accounts) (Switched S id) (fun _ => True)
      (ReadsSwitched S id) where
  publish := by
    intro r hr hid
    refine ⟨_, rfl, ?_⟩
    rw [switches_accountToJson]
    exact hr hid
  adopt := by
    intro r text r' _ htext hadopt hid
    rcases Option.bind_eq_some_iff.mp hadopt with ⟨v, hv, hread⟩
    have hspec := RemoteAccount.adopt_spec hread
    rcases htext (hspec.right.left.symm.trans hid) with ⟨v', hv', hS⟩
    rw [hv] at hv'
    cases hv'
    rw [hspec.right.right]
    exact hS
  restore := by
    intro now id' text r htext hrestore hid
    rcases Option.map_eq_some_iff.mp hrestore with ⟨v, hv, hread⟩
    subst hread
    rcases htext hid with ⟨v', hv', hS⟩
    rw [hv] at hv'
    cases hv'
    exact hS
  adoptRow := fun _ _ _ _ => trivial
  editRow := fun _ _ _ _ _ _ _ => trivial
  newRow := fun _ _ _ => trivial
  repairRow := fun _ _ => trivial

/-- Two instances at work on an account whose switches have a property
everywhere. -/
structure Working (S : Switches -> Prop) (id : String)
    (s : Fleet Bool accounts) : Prop where
  every : s.Everywhere (Switched S id) (fun _ => True) (ReadsSwitched S id)
  tasks : forall h k t, (s.hosts h).tasks k = some t -> Synchronises t
  indexed : id ∈ s.shelf.index
  known : forall h, exists r, (s.hosts h).roster.lookup id = some r

theorem Working.switched {S : Switches -> Prop} {id : String}
    {s : Fleet Bool accounts} (hs : Working S id s) {h : Bool}
    {r : AccountState} (hr : (s.hosts h).roster.lookup id = some r) :
    S r.shared.switches :=
  (hs.every.cells h).lookup hr (Roster.idOf_lookup hr)

theorem Working.recorded {S : Switches -> Prop} {id : String}
    {s : Fleet Bool accounts} (hs : Working S id s) {v : Value}
    (hv : s.shelf.record id = some (some v)) :
    S (RemoteAccount.shared v).switches := by
  rcases hs.every.records id _ hv rfl with ⟨v', hv', hS⟩
  cases hv'
  exact hS

theorem working_step {S : Switches -> Prop} {id : String}
    {s s' : Fleet Bool accounts} {a : Action Bool accounts}
    (hs : Working S id s) (ha : a.IsSynchronising)
    (hadmits : s.Admits (Switched S id) (fun _ => True) a)
    (hstep : s.step a = some s') : Working S id s' where
  every := everywhere_step (switched_preserved S id) hs.every hadmits hstep
  tasks := synchronises_step hs.tasks ha hstep
  indexed := index_step hs.tasks ha hstep hs.indexed
  known := by
    intro h
    rcases hs.known h with ⟨r, hr⟩
    rcases lookup_step hs.tasks ha hstep hr with ⟨r', hr', _⟩
    exact ⟨r', hr'⟩

/-!
## Before the OFF
-/

/-- The account is older than a clock reading, and its owner has not switched
it off. -/
def Untouched (now : I64) (sw : Switches) : Prop :=
  sw.updatedAt < now ∧ ¬ sw.Off

/-- What has been written since a clock reading is an OFF, and nothing else
is. -/
def OffSince (now : I64) (sw : Switches) : Prop :=
  now ≤ sw.updatedAt <-> sw.Off

theorem Untouched.offSince {now : I64} {sw : Switches}
    (h : Untouched now sw) : OffSince now sw :=
  ⟨fun hle => absurd hle (not_le_of_gt h.left), fun hoff => absurd hoff h.right⟩

theorem StartsActive.working {s : Fleet Bool accounts} {id : String}
    {first : Shared} (hs : s.StartsActive id first) {now : I64}
    (hnow : first.updatedAt < now) : Working (Untouched now) id s where
  every := by
    have hfirst : Untouched now first.switches :=
      ⟨hnow, fun hoff => by
        have hfalse : first.isActive = false := hoff.left
        rw [hs.active] at hfalse
        cases hfalse⟩
    refine ⟨?_, fun _ _ _ => trivial, ?_, ?_⟩
    · intro h p hp hid
      rcases hs.held h with ⟨r, hr, hshared⟩
      have hlookup : (s.hosts h).roster.lookup id =
          some ((s.hosts h).roster.memory.cells p) :=
        Arena.lookup_eq_some.mpr ⟨p, hs.listed h p hp, hid, rfl⟩
      rw [hr] at hlookup
      rw [← Option.some.inj hlookup, hshared]
      exact hfirst
    · intro id' text htext hid
      subst hid
      rcases hs.published with ⟨v, hv, hswitches⟩
      rw [hv] at htext
      refine ⟨v, (Option.some.inj htext).symm, ?_⟩
      rw [hswitches]
      exact hfirst
    · intro h k t ht
      rw [hs.common.idle h k] at ht
      cases ht
  tasks := by
    intro h k t ht
    rw [hs.common.idle h k] at ht
    cases ht
  indexed := by
    rcases hs.held true with ⟨r, hr, _⟩
    exact (hs.common.ids true id).mp (Roster.mem_keys_iff_lookup.mpr ⟨r, hr⟩)
  known := by
    intro h
    rcases hs.held h with ⟨r, hr, _⟩
    exact ⟨r, hr⟩

theorem synchronising_of_background {a : Action Bool accounts}
    (h : a.IsBackground) : a.IsSynchronising := by
  cases a with
  | edit h k id e now =>
      trivial
  | merge h k =>
      trivial
  | advance h k clock =>
      trivial
  | _ =>
      exact h

theorem untouched_step {id : String} {now : I64} {s s' : Fleet Bool accounts}
    {a : Action Bool accounts} (hs : Working (Untouched now) id s)
    (ha : a.IsBackground)
    (hreading : forall reading, a.reading? = some reading -> reading < now)
    (hstep : s.step a = some s') : Working (Untouched now) id s' := by
  refine working_step hs (synchronising_of_background ha) ?_ hstep
  cases a with
  | edit h k id' e reading =>
      intro r r' _ hr hedit _ hid
      have hswitches := background_switches ha.right hedit
      have hold := hr ((AccountEdit.apply_stamps hedit).left.symm.trans hid)
      refine ⟨?_, fun hoff => hold.right (hswitches.right.mp hoff)⟩
      rw [hswitches.left]
      exact hreading reading rfl
  | create h k d reading =>
      exact False.elim ha
  | restart h =>
      exact False.elim ha
  | _ =>
      trivial

/-!
## From the OFF on
-/

/-- Redis holds what was written since the clock reading. -/
def InRedis (now : I64) (id : String) (s : Fleet Bool accounts) : Prop :=
  exists v, s.shelf.record id = some (some v) ∧
    now ≤ RemoteAccount.updatedAt v

/-- An instance holds what was written since the clock reading. -/
def HeldBy (h : Bool) (now : I64) (id : String) (s : Fleet Bool accounts) :
    Prop :=
  exists r, (s.hosts h).roster.lookup id = some r ∧ now ≤ r.updatedAt

/-- A merge has read what was written since the clock reading. -/
def ReadsSince (now : I64) (id : String) (t : Task accounts) : Prop :=
  exists entries v, t = .fetched entries ∧ (id, some (some v)) ∈ entries ∧
    now ≤ RemoteAccount.updatedAt v

/-- The OFF has come as far as Redis, or further on: into a merge or into the
memory of the other instance. -/
def Arriving (now : I64) (id : String) (s : Fleet Bool accounts) : Prop :=
  InRedis now id s ∨
    (exists k t, (s.hosts true).tasks k = some t ∧ ReadsSince now id t) ∨
    HeldBy true now id s

/-- The switching instance holds the OFF, and it is on its way to the other
one. -/
structure Guarded (now : I64) (id : String) (s : Fleet Bool accounts) :
    Prop where
  working : Working (OffSince now) id s
  off : HeldBy false now id s
  reaching : Arriving now id s ∨
    exists k t, (s.hosts false).tasks k = some t ∧
      Promises (s.hosts false).roster id now t

theorem Guarded.offAt {now : I64} {id : String} {s : Fleet Bool accounts}
    (hs : Guarded now id s) : s.OffAt id false := by
  rcases hs.off with ⟨r, hr, hle⟩
  exact ⟨r, hr, (hs.working.switched hr).mp hle⟩

/-- A mutation that needs no row first takes effect on every known record. -/
theorem startEdit_isSome {C : Collection} {m : Roster C} {id : String}
    {e : C.Edit} {now : I64} {r r' : C.Rec} (hr : m.lookup id = some r)
    (hedit : C.edit e now r = some r') (hsave : C.editSavesFirst e = false) :
    (m.startEdit id e now).2.isSome = true := by
  rcases Option.map_eq_some_iff.mp hr with ⟨p, hfind, hcell⟩
  subst hcell
  unfold Roster.startEdit
  split
  · rename_i hnone
    rw [hfind] at hnone
    cases hnone
  · rename_i q hq
    rw [hfind] at hq
    cases hq
    split
    · rename_i hnone
      rw [hedit] at hnone
      cases hnone
    · simp [hsave]

theorem guarded_switchOff {id : String} {k : Nat} {now : I64}
    {s s' : Fleet Bool accounts} (hs : Working (Untouched now) id s)
    (hstep : s.step (.edit false k id (.setAccountActive false) now) =
      some s') : Guarded now id s' := by
  rcases step_edit.mp hstep with ⟨hfree, heq⟩
  rcases hs.known false with ⟨r₀, hr₀⟩
  have heffective := startEdit_isSome (C := accounts)
    (e := .setAccountActive false) hr₀
    (rfl : _ = some (r₀.setAccountActive false now)) rfl
  rcases (s.hosts false).roster.startEdit_cases (C := accounts) id
      (.setAccountActive false) now with
    hsame | ⟨r, r', cell, t, hstarted, hedited⟩
  · rw [hsame] at heffective
    cases heffective
  · have hstamps := AccountEdit.apply_stamps
      (e := .setAccountActive false) hedited.edit
    have hworking : Working (OffSince now) id s :=
      ⟨hs.every.mono (fun _ h hid => (h hid).offSince)
        (fun _ _ h hid => by
          rcases h hid with ⟨v, hv, hS⟩
          exact ⟨v, hv, hS.offSince⟩), hs.tasks, hs.indexed, hs.known⟩
    refine ⟨working_step (a := .edit false k id _ now) hworking trivial ?_ hstep,
      ?_, ?_⟩
    · intro r₁ r₁' _ _ hedit _ _
      cases hedit
      exact ⟨fun _ => ⟨rfl, rfl⟩, fun _ => le_refl _⟩
    · refine ⟨r', ?_, le_of_eq hstamps.right.symm⟩
      rw [heq, put_roster_same, hedited.after, if_pos rfl]
    · refine Or.inr ⟨k, t, ?_, ?_⟩
      · rw [heq, put_tasks_same, if_pos rfl]
        exact hstarted
      · rw [heq, put_roster_same]
        exact promises_edited hedited (le_of_eq hstamps.right.symm)

theorem heldBy_step {S : Switches -> Prop} {id : String} {now : I64}
    {s s' : Fleet Bool accounts} {a : Action Bool accounts}
    (hs : Working S id s) (ha : a.IsSynchronising)
    (hreading : forall reading, a.reading? = some reading -> now ≤ reading)
    (hstep : s.step a = some s') {h : Bool} (hheld : HeldBy h now id s) :
    HeldBy h now id s' := by
  rcases hheld with ⟨r, hr, hle⟩
  rcases lookup_step hs.tasks ha hstep hr with ⟨r', hr', hgrown | hstamp⟩
  · exact ⟨r', hr', le_trans hle hgrown⟩
  · exact ⟨r', hr', hreading _ hstamp⟩

/-- The instance that works in the background knows of the OFF. -/
theorem KnowsOff.arriving {now : I64} {id : String} {s : Fleet Bool accounts}
    (hs : Working (OffSince now) id s) (h : s.KnowsOff id) :
    (exists k t, (s.hosts true).tasks k = some t ∧ ReadsSince now id t) ∨
      HeldBy true now id s := by
  rcases h with ⟨r, hr, hoff⟩ | ⟨k, entries, v, htask, hentry, hoff⟩
  · exact Or.inr ⟨r, hr, (hs.switched hr).mpr hoff⟩
  · rcases hs.every.tasks true k _ htask id (some v) hentry rfl with
      ⟨v', hv', hsince⟩
    cases hv'
    exact Or.inl ⟨k, _, htask, entries, v, rfl, hentry, hsince.mpr hoff⟩

section Advance

variable {now : I64} {id : String} {s s' : Fleet Bool accounts} {h : Bool}
  {k : Nat} {clock : String -> I64}

/-- A merge takes over what it has read. -/
theorem heldBy_of_reads (hs : Working (OffSince now) id s)
    (hstep : s.step (.advance true k clock) = some s') {t : Task accounts}
    (ht : (s.hosts true).tasks k = some t) (hreads : ReadsSince now id t) :
    HeldBy true now id s' := by
  rcases step_advance.mp hstep with ⟨t', o, htask, hadvance, heq⟩
  rw [htask] at ht
  cases ht
  rcases hreads with ⟨entries, v, ht, hentry, hle⟩
  subst ht
  cases hadvance
  rcases hs.known true with ⟨r, hr⟩
  rcases read_mergeAll clock hentry hr with ⟨r', hr', hle'⟩
  refine ⟨r', ?_, le_trans hle hle'⟩
  rw [heq, put_roster_same]
  exact hr'

theorem reads_advance (hs : Working (OffSince now) id s)
    (hstep : s.step (.advance h k clock) = some s') {k' : Nat}
    {t' : Task accounts} (ht' : (s.hosts true).tasks k' = some t')
    (hreads : ReadsSince now id t') :
    (exists k t, (s'.hosts true).tasks k = some t ∧ ReadsSince now id t) ∨
      HeldBy true now id s' := by
  by_cases hsame : true = h ∧ k' = k
  · rcases hsame with ⟨hh, hk⟩
    subst hh
    subst hk
    exact Or.inr (heldBy_of_reads hs hstep ht' hreads)
  · rcases step_advance.mp hstep with ⟨t, o, htask, hadvance, heq⟩
    refine Or.inl ⟨k', t', ?_, hreads⟩
    rw [heq, put_tasks_of_ne s fun hh hk => hsame ⟨hh, hk⟩]
    exact ht'

theorem arriving_advance (hs : Working (OffSince now) id s)
    (hrespects : s.RespectsOff id (.advance h k clock))
    (hstep : s.step (.advance h k clock) = some s')
    (harriving : Arriving now id s) : Arriving now id s' := by
  have hsync : Action.IsSynchronising (.advance h k clock : Action Bool accounts) :=
    trivial
  have hheld : HeldBy true now id s -> HeldBy true now id s' :=
    heldBy_step hs hsync (fun _ hnone => by cases hnone) hstep
  rcases harriving with ⟨old, hold, hle⟩ | ⟨k', t', ht', hreads⟩ | hsince
  · rcases step_advance.mp hstep with ⟨t, o, htask, hadvance, heq⟩
    rcases record_advance (hs.tasks h k t htask) hadvance id with
      hsame | ⟨payload, cells, hset, hnew⟩
    · refine Or.inl ⟨old, ?_, hle⟩
      rw [heq, put_shelf, hsame]
      exact hold
    · subst hset
      rcases (hs.every.tasks h k _ htask).left rfl with ⟨v, hv, hsince⟩
      subst hv
      by_cases hoff : (RemoteAccount.shared v).switches.Off
      · refine Or.inl ⟨v, ?_, hsince.mpr hoff⟩
        rw [heq, put_shelf]
        exact hnew
      · -- the OFF leaves Redis, so the other instance knows of it
        have hknows := hrespects v cells old htask hold
          ((hs.recorded hold).mp hle) hoff
        rcases hknows.arriving hs with ⟨k', t', ht', hreads⟩ | hsince
        · exact Or.inr (reads_advance hs hstep ht' hreads)
        · exact Or.inr (Or.inr (hheld hsince))
  · exact Or.inr (reads_advance hs hstep ht' hreads)
  · exact Or.inr (Or.inr (hheld hsince))

/-- The push of the OFF goes on, or it has reached Redis. -/
theorem promised_advance (hs : Working (OffSince now) id s)
    (hstep : s.step (.advance h k clock) = some s') {k' : Nat}
    {t' : Task accounts} (ht' : (s.hosts false).tasks k' = some t')
    (hpromise : Promises (s.hosts false).roster id now t') :
    Arriving now id s' ∨
      exists k t, (s'.hosts false).tasks k = some t ∧
        Promises (s'.hosts false).roster id now t := by
  rcases step_advance.mp hstep with ⟨t, o, htask, hadvance, heq⟩
  by_cases hh : false = h
  · subst hh
    by_cases hk : k' = k
    · subst hk
      rw [htask] at ht'
      cases ht'
      rcases promises_advance hpromise hadvance with
        ⟨v, hv, hle⟩ | ⟨t'', ht'', hnext⟩
      · refine Or.inl (Or.inl ⟨v, ?_, hle⟩)
        rw [heq, put_shelf]
        exact hv
      · refine Or.inr ⟨k', t'', ?_, ?_⟩
        · rw [heq, put_tasks_same, if_pos rfl]
          exact ht''
        · rw [heq, put_roster_same]
          exact hnext
    · refine Or.inr ⟨k', t', ?_, ?_⟩
      · rw [heq, put_tasks_of_ne s fun _ => hk]
        exact ht'
      · rw [heq, put_roster_same]
        refine hpromise.mono ?_
        intro p hp
        have hlt := lt_of_mem_cellsOf (hs.every.tasks false k' t' ht') hp
        rw [(newer_advance (hs.tasks false k t htask) hadvance).right p hlt]
        exact ⟨rfl, le_refl _⟩
  · refine Or.inr ⟨k', t', ?_, ?_⟩
    · rw [heq, put_hosts_of_ne s hh]
      exact ht'
    · rw [heq, put_hosts_of_ne s hh]
      exact hpromise

end Advance

/-- An operation that starts leaves the OFF where it is. -/
theorem reaching_start {now : I64} {id : String} {s s' : Fleet Bool accounts}
    {h : Bool} {k : Nat} {m : Roster accounts} {task : Option (Task accounts)}
    (hfree : (s.hosts h).tasks k = none)
    (heq : s' = s.put h k m s.shelf task)
    (hroster : (s'.hosts false).roster = (s.hosts false).roster)
    (hheld : HeldBy true now id s -> HeldBy true now id s')
    (hs : Guarded now id s) :
    Arriving now id s' ∨
      exists k t, (s'.hosts false).tasks k = some t ∧
        Promises (s'.hosts false).roster id now t := by
  have hkept : forall h' k' t, (s.hosts h').tasks k' = some t ->
      (s'.hosts h').tasks k' = some t := by
    intro h' k' t ht
    rw [heq, put_tasks_of_ne s ?_]
    · exact ht
    · intro hh hk
      subst hh
      subst hk
      rw [hfree] at ht
      cases ht
  rcases hs.reaching with (hredis | hmerge | hheldBefore) | hpush
  · rcases hredis with ⟨v, hv, hle⟩
    refine Or.inl (Or.inl ⟨v, ?_, hle⟩)
    rw [heq]
    exact hv
  · rcases hmerge with ⟨k', t, ht, hreads⟩
    exact Or.inl (Or.inr (Or.inl ⟨k', t, hkept true k' t ht, hreads⟩))
  · exact Or.inl (Or.inr (Or.inr (hheld hheldBefore)))
  · rcases hpush with ⟨k', t, ht, hpromise⟩
    refine Or.inr ⟨k', t, hkept false k' t ht, ?_⟩
    rw [hroster]
    exact hpromise

theorem guarded_step {now : I64} {id : String} {s s' : Fleet Bool accounts}
    {a : Action Bool accounts} (hs : Guarded now id s) (ha : a.IsBackground)
    (hreading : forall reading, a.reading? = some reading -> now < reading)
    (hrespects : s.RespectsOff id a) (hstep : s.step a = some s') :
    Guarded now id s' := by
  have hsync := synchronising_of_background ha
  have hheld : forall h, HeldBy h now id s -> HeldBy h now id s' :=
    fun h => heldBy_step hs.working hsync
      (fun reading h => le_of_lt (hreading reading h)) hstep
  refine ⟨working_step hs.working hsync ?_ hstep, hheld false hs.off, ?_⟩
  · cases a with
    | edit h k id' e reading =>
        intro r r' hr _ hedit heffective hid
        have hh : h = true := ha.left
        subst hh
        have hrid : r.id = id :=
          (AccountEdit.apply_stamps hedit).left.symm.trans hid
        have hid' : id' = id := (Roster.idOf_lookup hr).symm.trans hrid
        subst hid'
        -- the OFF has been merged before the mutation
        rcases hrespects rfl heffective hs.offAt with ⟨r₁, hr₁, hoff⟩
        rw [hr] at hr₁
        cases hr₁
        have hswitches := background_switches ha.right hedit
        refine ⟨fun _ => hswitches.right.mpr hoff, fun _ => ?_⟩
        rw [hswitches.left]
        exact le_of_lt (hreading reading rfl)
    | create h k d reading =>
        exact False.elim ha
    | restart h =>
        exact False.elim ha
    | _ =>
        trivial
  · cases a with
    | edit h k id' e reading =>
        have hh : h = true := ha.left
        subst hh
        rcases step_edit.mp hstep with ⟨hfree, heq⟩
        refine reaching_start hfree heq ?_ (hheld true) hs
        rw [heq, put_hosts_of_ne s Bool.false_ne_true]
    | merge h k =>
        rcases step_merge.mp hstep with ⟨hfree, heq⟩
        refine reaching_start hfree heq ?_ (hheld true) hs
        rw [heq, put_roster]
        split
        · rename_i hh
          rw [hh]
        · rfl
    | advance h k clock =>
        rcases hs.reaching with harriving | ⟨k', t, ht, hpromise⟩
        · exact Or.inl (arriving_advance hs.working hrespects hstep harriving)
        · exact promised_advance hs.working hstep ht hpromise
    | _ =>
        exact False.elim ha

/-!
## Further merges
-/

/-- The pushes have ended: Redis holds the OFF, or the other instance does. -/
structure Settled (now : I64) (id : String) (s : Fleet Bool accounts) :
    Prop where
  working : Working (OffSince now) id s
  quiet : s.Quiet id
  off : HeldBy false now id s
  arrived : InRedis now id s ∨ HeldBy true now id s

theorem Guarded.settled {now : I64} {id : String} {s : Fleet Bool accounts}
    (hs : Guarded now id s) (hidle : s.Idle) : Settled now id s where
  working := hs.working
  quiet := by
    have hnone : forall h k t, (s.hosts h).tasks k = some t -> False := by
      intro h k t ht
      rw [hidle h k] at ht
      cases ht
    exact ⟨fun h k t ht => (hnone h k t ht).elim,
      fun _ _ => hs.working.indexed,
      fun h _ k t ht => (hnone h k t ht).elim,
      fun h k t ht => (hnone h k t ht).elim⟩
  off := hs.off
  arrived := by
    rcases hs.reaching with (hredis | ⟨k, t, ht, _⟩ | hheld) | ⟨k, t, ht, _⟩
    · exact Or.inl hredis
    · rw [hidle true k] at ht
      cases ht
    · exact Or.inr hheld
    · rw [hidle false k] at ht
      cases ht

theorem synchronising_of_merging {a : Action Bool accounts}
    (h : a.IsMerging) : a.IsSynchronising := by
  cases a with
  | merge h k =>
      trivial
  | advance h k clock =>
      trivial
  | _ =>
      exact False.elim h

theorem heldBy_merging {now : I64} {id : String} {s s' : Fleet Bool accounts}
    {a : Action Bool accounts} (hs : Settled now id s) (ha : a.IsMerging)
    (hstep : s.step a = some s') {h : Bool} (hheld : HeldBy h now id s) :
    HeldBy h now id s' := by
  refine heldBy_step hs.working (synchronising_of_merging ha) ?_ hstep hheld
  intro reading hreading
  cases a with
  | edit h k id' e now' =>
      exact False.elim ha
  | _ =>
      cases hreading

/-- A merge of a settled fleet leaves the record in Redis alone. -/
theorem inRedis_merging {now : I64} {id : String} {s s' : Fleet Bool accounts}
    {a : Action Bool accounts} (hs : Settled now id s) (ha : a.IsMerging)
    (hstep : s.step a = some s') (hredis : InRedis now id s) :
    InRedis now id s' := by
  rcases hredis with ⟨v, hv, hle⟩
  refine ⟨v, ?_, hle⟩
  cases a with
  | merge h k =>
      rw [(step_merge.mp hstep).right]
      exact hv
  | advance h k clock =>
      rcases step_advance.mp hstep with ⟨t, o, htask, hadvance, heq⟩
      rw [heq, put_shelf]
      rcases record_advance (hs.working.tasks h k t htask) hadvance id with
        hsame | ⟨payload, cells, hset, _⟩
      · rw [hsame]
        exact hv
      · subst hset
        exact absurd rfl (hs.quiet.spares h k _ htask).left
  | _ =>
      exact False.elim ha

theorem settled_step {now : I64} {id : String} {s s' : Fleet Bool accounts}
    {a : Action Bool accounts} (hs : Settled now id s) (ha : a.IsMerging)
    (hstep : s.step a = some s') : Settled now id s' where
  working := by
    refine working_step hs.working (synchronising_of_merging ha) ?_ hstep
    cases a with
    | merge h k =>
        trivial
    | advance h k clock =>
        trivial
    | _ =>
        exact False.elim ha
  quiet := by
    refine (quiet_merging hs.quiet ha ?_ hstep).left
    intro hrestores
    cases a with
    | advance h k clock =>
        exact hrestores.left
          (Roster.mem_keys_iff_lookup.mpr (hs.working.known h))
    | _ =>
        exact hrestores
  off := heldBy_merging hs ha hstep hs.off
  arrived := by
    rcases hs.arrived with hredis | hheld
    · exact Or.inl (inRedis_merging hs ha hstep hredis)
    · exact Or.inr (heldBy_merging hs ha hstep hheld)

theorem settled_run {now : I64} {id : String} {s s' : Fleet Bool accounts}
    {actions : List (Action Bool accounts)} (hs : Settled now id s)
    (hmerging : forall a, a ∈ actions -> a.IsMerging)
    (hrun : (fleetSystem Bool accounts).run s actions = some s') :
    Settled now id s' :=
  System.run_invariant_along (P := fun _ a => a.IsMerging)
    (I := fun t => Settled now id t)
    (fun _ _ _ hI ha hstep => settled_step hI ha hstep) hs
    (System.along_of_forall_mem hmerging) hrun

/-- A merge of the other instance is about to read the OFF, or has read it. -/
def Fetching (now : I64) (id : String) (k : Nat) (s : Fleet Bool accounts) :
    Prop :=
  InRedis now id s ∧ exists t, (s.hosts true).tasks k = some t ∧
    ((exists ids, t = .indexed ids ∧ id ∈ ids) ∨ ReadsSince now id t)

theorem fetching_step {now : I64} {id : String} {k : Nat}
    {s s' : Fleet Bool accounts} {a : Action Bool accounts}
    (hs : Settled now id s) (ha : a.IsMerging) (hstep : s.step a = some s')
    (hfetching : Fetching now id k s ∨ HeldBy true now id s) :
    Fetching now id k s' ∨ HeldBy true now id s' := by
  rcases hfetching with ⟨hredis, t, ht, hreads⟩ | hheld
  · have hredis' := inRedis_merging hs ha hstep hredis
    have hother : forall {h k' m shelf task}, (true = h -> k ≠ k') ->
        s' = s.put h k' m shelf task -> Fetching now id k s' := by
      intro h k' m shelf task hne heq
      refine ⟨hredis', t, ?_, hreads⟩
      rw [heq, put_tasks_of_ne s hne]
      exact ht
    cases a with
    | merge h k' =>
        rcases step_merge.mp hstep with ⟨hfree, heq⟩
        refine Or.inl (hother ?_ heq)
        intro hh hk
        subst hh
        subst hk
        rw [hfree] at ht
        cases ht
    | advance h k' clock =>
        by_cases hsame : true = h ∧ k = k'
        · rcases hsame with ⟨hh, hk⟩
          subst hh
          subst hk
          rcases hreads with ⟨ids, hids, hmem⟩ | hreads
          · rcases step_advance.mp hstep with ⟨t', o, htask, hadvance, heq⟩
            rw [htask] at ht
            cases ht
            subst hids
            cases hadvance
            rcases hredis with ⟨v, hv, hle⟩
            refine Or.inl ⟨hredis', _, ?_, Or.inr ⟨_, v, rfl,
              Shelf.mem_mget.mpr ⟨hmem, hv⟩, hle⟩⟩
            rw [heq, put_tasks_same, if_pos rfl]
          · exact Or.inr (heldBy_of_reads hs.working hstep ht hreads)
        · rcases step_advance.mp hstep with ⟨t', o, htask, hadvance, heq⟩
          exact Or.inl (hother (fun hh hk => hsame ⟨hh, hk⟩) heq)
    | _ =>
        exact False.elim ha
  · exact Or.inr (heldBy_merging hs ha hstep hheld)

/-- The other instance holds the OFF once it has finished a merge. -/
theorem heldBy_of_finishedMerge {now : I64} {id : String}
    {s s' : Fleet Bool accounts} {actions : List (Action Bool accounts)}
    (hs : Settled now id s) (hmerging : forall a, a ∈ actions -> a.IsMerging)
    (hfinished : s.FinishedMerge actions true)
    (hrun : (fleetSystem Bool accounts).run s actions = some s') :
    HeldBy true now id s' := by
  rcases hfinished with ⟨k, first, second, mid, hactions, hmem, hfirst, hfree⟩
  subst hactions
  rcases List.append_of_mem hmem with ⟨before, rest, hsplit⟩
  subst hsplit
  rcases System.run_append_some.mp hfirst with ⟨s₁, hbefore, hrest⟩
  rcases System.run_cons_some.mp hrest with ⟨s₂, hstart, hrest⟩
  have hs₁ := settled_run hs (fun a ha => hmerging a (by simp [ha])) hbefore
  have hs₂ := settled_step (a := .merge true k) hs₁ trivial hstart
  have hmergingRest : forall a, a ∈ rest -> a.IsMerging :=
    fun a ha => hmerging a (by simp [ha])
  have hfetching₂ : Fetching now id k s₂ ∨ HeldBy true now id s₂ := by
    rcases hs₁.arrived with hredis | hheld
    · rcases step_merge.mp hstart with ⟨_, heq⟩
      refine Or.inl ⟨inRedis_merging (a := .merge true k) hs₁ trivial hstart
        hredis, .indexed s₁.shelf.index, ?_,
        Or.inl ⟨_, rfl, hs₁.working.indexed⟩⟩
      rw [heq, put_tasks_same, if_pos rfl]
      exact if_neg (List.ne_nil_of_mem hs₁.working.indexed)
    · exact Or.inr (heldBy_merging (a := .merge true k) hs₁ trivial hstart hheld)
  have hmid := System.run_invariant_along (P := fun _ a => a.IsMerging)
    (I := fun t => Settled now id t ∧
      (Fetching now id k t ∨ HeldBy true now id t))
    (fun _ _ _ hI ha hstep => ⟨settled_step hI.left ha hstep,
      fetching_step hI.left ha hstep hI.right⟩)
    ⟨hs₂, hfetching₂⟩ (System.along_of_forall_mem hmergingRest) hrest
  have hheld : HeldBy true now id mid := by
    rcases hmid.right with ⟨_, t, ht, _⟩ | hheld
    · rw [hfree] at ht
      cases ht
    · exact hheld
  rcases System.run_append_some.mp hrun with ⟨mid', hfirst', hsecond⟩
  rw [hfirst] at hfirst'
  cases hfirst'
  exact (System.run_invariant_along (P := fun _ a => a.IsMerging)
    (I := fun t => Settled now id t ∧ HeldBy true now id t)
    (fun _ _ _ hI ha hstep => ⟨settled_step hI.left ha hstep,
      heldBy_merging hI.left ha hstep hI.right⟩)
    ⟨hmid.left, hheld⟩
    (System.along_of_forall_mem fun a ha => hmerging a (by simp [ha]))
    hsecond).right

/-!
## Runs
-/

/-- The OFF holds when the other instance mutates the account only after it
has merged the OFF, and no other record replaces the OFF in Redis before
that. -/
theorem offAt_of_respectsOff {s s' : Fleet Bool accounts} {id : String}
    {k : Nat} {now : I64} {before during after : List (Action Bool accounts)}
    (h : s.SwitchedOff id k now before during after s')
    (hrespects : (fleetSystem Bool accounts).Along (RespectsOff id) s
      (before ++ .edit false k id (.setAccountActive false) now :: during)) :
    forall host, s'.OffAt id host := by
  rcases h.start with ⟨first, hstart, hordered, hlater⟩
  rcases h.ended with ⟨mid, hmid, hidle, hfinished, hafter⟩
  rcases System.run_append_some.mp hmid with ⟨s₁, hbefore, hrest⟩
  rcases System.run_cons_some.mp hrest with ⟨s₂, hoff, hduring⟩
  have hduringRespects :=
    (((System.along_append hbefore).mp hrespects).right.right s₂ hoff)
  rw [List.filterMap_append, List.pairwise_append] at hordered
  rw [List.filterMap_append] at hlater
  have hnow : first.updatedAt < now :=
    hlater now (List.mem_append_right _ (List.mem_cons_self ..))
  have hworking : Working (Untouched now) id s₁ := by
    refine System.run_invariant_along
      (P := fun _ a => a.IsBackground ∧
        forall reading, a.reading? = some reading -> reading < now)
      (I := fun t => Working (Untouched now) id t)
      (fun _ _ _ hI hP hstep => untouched_step hI hP.left hP.right hstep)
      (hstart.working hnow) (System.along_of_forall_mem ?_) hbefore
    intro a ha
    refine ⟨h.background a (List.mem_append_left _ ha), ?_⟩
    intro reading hreading
    exact hordered.right.right reading
      (List.mem_filterMap.mpr ⟨a, ha, hreading⟩) now (List.mem_cons_self ..)
  have hguarded : Guarded now id mid := by
    refine System.run_invariant_along
      (P := fun s a => (a.IsBackground ∧
        forall reading, a.reading? = some reading -> now < reading) ∧
          s.RespectsOff id a)
      (I := fun t => Guarded now id t)
      (fun _ _ _ hI hP hstep => guarded_step hI hP.left.left hP.left.right
        hP.right hstep)
      (guarded_switchOff hworking hoff)
      ((System.along_and (P := fun _ a => a.IsBackground ∧
        forall reading, a.reading? = some reading -> now < reading)).mpr
        ⟨System.along_of_forall_mem ?_, hduringRespects⟩) hduring
    intro a ha
    refine ⟨h.background a (List.mem_append_right _ ha), ?_⟩
    intro reading hreading
    exact (List.pairwise_cons.mp hordered.right.left).left reading
      (List.mem_filterMap.mpr ⟨a, ha, hreading⟩)
  have hsettled := hguarded.settled hidle
  have hlast := settled_run hsettled h.merging hafter
  have hboth : forall host, HeldBy host now id s' := by
    intro host
    cases host with
    | false =>
        exact hlast.off
    | true =>
        exact heldBy_of_finishedMerge hsettled h.merging (hfinished true) hafter
  intro host
  rcases hboth host with ⟨r, hr, hle⟩
  exact ⟨r, hr, (hlast.working.switched hr).mp hle⟩

/-!
## A refresh after a merge, and one without
-/

/-- The account is off on an instance. -/
def offAt (s : Fleet Bool accounts) (id : String) (h : Bool) : Bool :=
  ((s.hosts h).roster.lookup id).any fun r => decide r.shared.switches.Off

theorem offAt_eq_true {s : Fleet Bool accounts} {id : String} {h : Bool} :
    s.offAt id h = true <-> s.OffAt id h := by
  simp [offAt, OffAt, Option.any_eq_true]

/-- A step that mutates only where the OFF is known, and sets no other record
over the OFF. -/
def keepsOff (id : String) (s : Fleet Bool accounts) :
    Action Bool accounts -> Bool
  | .edit h _ _ _ _ => !s.offAt id (!h) || s.offAt id h
  | .advance h k _ =>
      (((s.hosts h).tasks k).bind recordSet).all fun w =>
        decide (RemoteAccount.shared w.2).switches.Off ||
          (s.shelf.record id).all fun text => text.all fun old =>
            !decide (RemoteAccount.shared old).switches.Off
  | _ => true

theorem respectsOff_of_keepsOff {id : String} {s : Fleet Bool accounts}
    {a : Action Bool accounts} (h : s.keepsOff id a = true) :
    s.RespectsOff id a := by
  cases a with
  | edit h' k id' e now =>
      intro _ _ hoff
      rw [← offAt_eq_true] at hoff ⊢
      simpa [keepsOff, hoff] using h
  | advance h' k clock =>
      intro v cells old htask hold hoff hnot
      simp [keepsOff, htask, recordSet, hold, hoff, hnot] at h
  | _ =>
      trivial

/-- Second 5, in which the owner switches the account off. -/
def offTime : I64 := .ofNat 5

/-- A token refresh without rotation. -/
def refreshed : AccountEdit :=
  .storeRefreshedCredentials "r" none "token" 3600

def bothMerge : List (Action Bool accounts) :=
  .merge false 0 ::
    (advances false 0 2 ++ Action.merge true 0 :: advances true 0 2)

/-- The other instance merges the OFF before it refreshes the token. -/
def mergedRefresh : List (Action Bool accounts) :=
  advances false 0 4 ++ Action.merge true 0 ::
    (advances true 0 2 ++
      Action.edit true 0 "a" refreshed ⟨6, by decide, by decide⟩ ::
        advances true 0 3)

/-- The other instance refreshes the token without having merged. -/
def unmergedRefresh : List (Action Bool accounts) :=
  advances false 0 4 ++
    Action.edit true 0 "a" refreshed ⟨6, by decide, by decide⟩ :: advances true 0 3

theorem oneRow_startsActive :
    (loaded Bool oneRow).StartsActive "a"
      (NewAccount.record ⟨"a", "first", "c", "s", "r", none⟩
        ⟨1, by decide, by decide⟩).shared where
  common := loaded_common Bool oneRow
  listed := fun _ _ hp => List.mem_range.mpr hp
  held := fun h => by
    cases h <;> exact ⟨_, rfl, rfl⟩
  published := ⟨_, rfl, rfl⟩
  active := rfl

theorem bothMerge_finished {s s' : Fleet Bool accounts}
    (hrun : (fleetSystem Bool accounts).run s bothMerge = some s')
    (hidle : s'.Idle) (h : Bool) : s.FinishedMerge bothMerge h :=
  ⟨0, bothMerge, [], s', (List.append_nil _).symm,
    by cases h <;> simp [bothMerge], hrun, hidle h 0⟩

theorem offAt_of_respectsOff_merged :
    exists s', (loaded Bool oneRow).SwitchedOff "a" 0 offTime [] mergedRefresh
        bothMerge s' ∧
      forall h, s'.OffAt "a" h := by
  have hswitched : (loaded Bool oneRow).SwitchedOff "a" 0 offTime []
      mergedRefresh bothMerge _ :=
    ⟨⟨_, oneRow_startsActive, by decide, by decide⟩, by decide, by decide,
      _, rfl, (fun host k => by cases host <;> cases k <;> rfl),
      bothMerge_finished rfl
        (fun host k => by cases host <;> cases k <;> rfl), rfl⟩
  refine ⟨_, hswitched, offAt_of_respectsOff hswitched ?_⟩
  exact System.Along.mono (P := fun s a => s.keepsOff "a" a = true)
    (fun _ _ h => respectsOff_of_keepsOff h) (by decide)

theorem not_ownerOffStays : ¬ OwnerOffStays := by
  intro h
  have hoff := h (loaded Bool oneRow) "a" 0 offTime [] unmergedRefresh bothMerge
    _ ⟨⟨_, oneRow_startsActive, by decide, by decide⟩, by decide, by decide,
      _, rfl, (fun host k => by cases host <;> cases k <;> rfl),
      bothMerge_finished rfl
        (fun host k => by cases host <;> cases k <;> rfl), rfl⟩ false
  exact absurd (offAt_eq_true.mpr hoff) (by decide)

end Fleet

end HifiApi
