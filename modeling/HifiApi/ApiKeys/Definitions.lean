import HifiApi.ApiKeys.State
import HifiApi.Fleet.Dated
import HifiApi.Fleet.Everywhere

/-!
# Newer definitions of a key

A key that is created, toggled or taken over carries the time at which its
definition was made.  The table has no column for it: a key loaded from the
table has the time zero, and a merge then takes over whatever Redis holds.
-/

namespace HifiApi

open Fleet

/-- A merge never replaces the definition of a key by one made before it. -/
def NewerKeyWins : Prop :=
  forall (Host : Type) [DecidableEq Host]
    (actions : List (Action Host apiKeys.dated)) (s' : Fleet Host apiKeys.dated),
    (forall a, a ∈ actions -> a.Timed) ->
    (fleetSystem Host apiKeys.dated).run (blank Host apiKeys.dated) actions =
      some s' ->
    (fleetSystem Host apiKeys.dated).Along (fun s a => ¬ s.ReplacesNewer a)
      (blank Host apiKeys.dated) actions

namespace ApiKeyState

/-- The timestamp says when the definition was made, or it has been lost. -/
def Stamped (r : ApiKeyState × I64) : Prop :=
  0 ≤ r.1.updatedAt ∧ (r.1.updatedAt = r.2 ∨ r.1.updatedAt = 0)

end ApiKeyState

namespace RemoteKey

/-- The same for a published definition. -/
def Stamped (_ : String) (v : Option Value × I64) : Prop :=
  forall x, v.1 = some x ->
    0 ≤ updatedAt x ∧ (updatedAt x = v.2 ∨ updatedAt x = 0)

end RemoteKey

theorem stamped_preserved :
    Preserved (C := apiKeys.dated) ApiKeyState.Stamped (fun _ => True)
      RemoteKey.Stamped where
  publish := by
    intro r hr x hx
    cases hx
    rw [RemoteKey.updatedAt_keyToJson]
    exact hr
  adopt := by
    intro r v r' _ hv h
    rcases Option.map_eq_some_iff.mp h with ⟨k, hk, hr'⟩
    rcases Option.bind_eq_some_iff.mp hk with ⟨x, hx, hadopt⟩
    have hstamp := hv x hx
    rw [← hr', (RemoteKey.adopt_spec hadopt).right.right]
    exact hstamp
  restore := by
    intro now id v r hv h
    rcases Option.map_eq_some_iff.mp h with ⟨k, hk, hr⟩
    rcases Option.bind_eq_some_iff.mp hk with ⟨x, hx, hrestore⟩
    have hstamp := hv x hx
    rw [← hr]
    unfold ApiKeyState.Stamped
    rw [(RemoteKey.restore_spec hrestore).right.right]
    exact hstamp
  adoptRow := fun _ _ _ _ => trivial
  editRow := fun _ _ _ _ _ _ _ => trivial
  newRow := fun _ _ _ => trivial
  repairRow := fun _ _ => trivial

namespace Fleet

variable {Host : Type}

/-- Where a merge reads a definition for a key whose timestamp has been lost,
that definition is not newer than nothing, belongs to another hash, or was not
made before the local one. -/
def LostStampsMeetNewer (s : Fleet Host apiKeys.dated) :
    Action Host apiKeys.dated -> Prop
  | .advance h k _ =>
      forall entries id x date r made,
        (s.hosts h).tasks k = some (.fetched entries) ->
        (id, some (some x, date)) ∈ entries ->
        (s.hosts h).roster.lookup id = some (r, made) -> r.updatedAt = 0 ->
          RemoteKey.updatedAt x ≤ 0 ∨ RemoteKey.hashMismatch r x = true ∨
            made ≤ date
  | _ => True

instance (s : Fleet Host apiKeys.dated) :
    (a : Action Host apiKeys.dated) -> Decidable (s.LostStampsMeetNewer a)
  | .advance h k _ =>
      match htask : (s.hosts h).tasks k with
      | some (.fetched entries) =>
          decidable_of_iff
            (forall entry, entry ∈ entries -> forall v, v ∈ entry.2 ->
              forall x, x ∈ v.1 ->
              forall r, r ∈ (s.hosts h).roster.lookup entry.1 ->
              r.1.updatedAt = 0 ->
                RemoteKey.updatedAt x ≤ 0 ∨
                  RemoteKey.hashMismatch r.1 x = true ∨ r.2 ≤ v.2) (by
            constructor
            · intro hall entries' id x date r made htask' hentry hr
              rw [htask] at htask'
              cases htask'
              exact hall (id, some (some x, date)) hentry _ rfl x rfl
                (r, made) hr
            · intro hmeet entry hentry v hv x hx r hr
              rcases entry with ⟨id, payload⟩
              rcases v with ⟨text, date⟩
              have hv' : payload = some (text, date) := hv
              have hx' : text = some x := hx
              subst hv'
              subst hx'
              exact hmeet entries id x date r.1 r.2 htask hentry hr)
      | none => isTrue (by
          intro entries id x date r made htask'
          rw [htask] at htask'
          cases htask')
      | some (.saving _ _ _ _ _) | some (.joining _) | some (.publishing _)
      | some (.setting _ _ _) | some (.adding _ _) | some (.indexed _)
      | some (.deletingRow _) | some (.deletingRecord _)
      | some (.leavingIndex _) => isTrue (by
          intro entries id x date r made htask'
          rw [htask] at htask'
          cases htask')
  | .edit _ _ _ _ _ | .create _ _ _ _ | .remove _ _ _ | .merge _ _
  | .lose _ _ | .restart _ => isTrue trivial

theorem admits_stamped {s : Fleet Host apiKeys.dated}
    {a : Action Host apiKeys.dated} (ha : a.Timed) :
    s.Admits ApiKeyState.Stamped (fun _ => True) a := by
  cases a with
  | edit h k id active now =>
      intro r r' _ _ hedit _
      have hr' : r' = (r.1.setActive active now, now) :=
        (Option.some.inj hedit).symm
      rw [hr']
      exact ⟨le_of_lt ha, Or.inl rfl⟩
  | create h k d now =>
      exact ⟨le_of_lt ha, Or.inl rfl⟩
  | restart h =>
      exact fun w _ => ⟨le_refl _, Or.inr rfl⟩
  | _ =>
      trivial

theorem blank_stamped :
    (blank Host apiKeys.dated).Everywhere ApiKeyState.Stamped (fun _ => True)
      RemoteKey.Stamped where
  cells := fun _ p hp => absurd hp (Nat.not_lt_zero p)
  rows := fun _ _ hw => by cases hw
  records := fun _ _ hv => by cases hv
  tasks := fun _ _ _ ht => by cases ht

/-- With timestamps that say when a definition was made, or nothing, only a
lost one lets an older definition in. -/
theorem not_replacesNewer_iff {s : Fleet Host apiKeys.dated}
    {a : Action Host apiKeys.dated}
    (hs : s.Everywhere ApiKeyState.Stamped (fun _ => True) RemoteKey.Stamped) :
    ¬ s.ReplacesNewer a <-> s.LostStampsMeetNewer a := by
  cases a with
  | advance h k clock =>
      constructor
      · intro hnot entries id x date r made htask hentry hlookup hlost
        by_contra hbad
        simp only [not_or, not_le, Bool.not_eq_true] at hbad
        apply hnot
        refine ⟨entries, id, (some x, date), (r, made), htask, hentry, hlookup,
          ?_, hbad.right.right⟩
        have hnewer : ¬ RemoteKey.updatedAt x ≤ r.updatedAt := by
          rw [hlost]
          exact not_le_of_gt hbad.left
        simp [RemoteKey.adopt, hnewer, hbad.right.left]
      · intro hmeet hreplaces
        rcases hreplaces with
          ⟨entries, id, ⟨text, date⟩, ⟨r, made⟩, htask, hentry, hlookup,
            hadopt, holder⟩
        rcases Option.isSome_iff_exists.mp hadopt with ⟨r', hr'⟩
        rcases Option.map_eq_some_iff.mp hr' with ⟨k', hk', _⟩
        rcases Option.bind_eq_some_iff.mp hk' with ⟨x, hx, hread⟩
        have hx' : text = some x := hx
        subst hx'
        have hspec := RemoteKey.adopt_spec hread
        have hnewer : r.updatedAt < RemoteKey.updatedAt x := hspec.left
        have hhash : RemoteKey.hashMismatch r x = false := hspec.right.left
        have hr : ApiKeyState.Stamped (r, made) := (hs.cells h).lookup hlookup
        have hv : RemoteKey.Stamped id (some x, date) :=
          hs.tasks h k _ htask id _ hentry
        have hstampX := hv x rfl
        rcases hr with ⟨hpositive, hstamp | hlost⟩
        · have hdate : RemoteKey.updatedAt x = date := by
            rcases hstampX.right with heq | hzero
            · exact heq
            · rw [hzero] at hnewer
              exact absurd hpositive (not_le_of_gt hnewer)
          have hstamp' : r.updatedAt = made := hstamp
          have hmade : made < date := by
            rw [← hdate, ← hstamp']
            exact hnewer
          exact absurd hmade (not_lt_of_gt holder)
        · rcases hmeet entries id x date r made htask hentry hlookup hlost with
            hzero | hmismatch | hlater
          · have hlost' : r.updatedAt = 0 := hlost
            rw [hlost'] at hnewer
            exact absurd hzero (not_le_of_gt hnewer)
          · rw [hhash] at hmismatch
            cases hmismatch
          · exact absurd holder (not_lt_of_ge hlater)
  | _ =>
      simp [ReplacesNewer, LostStampsMeetNewer]

variable [DecidableEq Host]

/-- A key is created and switched off; the second publication may be lost. -/
def createdAndSwitchedOff (lost : Bool) : List (Action Unit apiKeys.dated) :=
  let advance := Action.advance () 0 fun _ => 0
  [.create () 0 ⟨"k", "app", longHash 'a', "hifi_a", 0⟩ (.ofNat 1),
    advance, advance, advance, advance,
    .edit () 0 "k" false (.ofNat 2), advance, advance,
    if lost then .lose () 0 else advance, advance]

/-- The process restarts and merges. -/
def restartAndMerge : List (Action Unit apiKeys.dated) :=
  let advance := Action.advance () 0 fun _ => 0
  [.restart (), .merge () 0, advance, advance]

end Fleet

end HifiApi
