import HifiApi.Fleet.Protocol

/-!
# Collections with dates

The time at which a record was made is not what its timestamp says once the
timestamp has been lost.  A dated collection keeps both: each record, row and
payload carries the clock reading of the mutation it stems from.  Nothing the
instances do depends on the dates; they only say what happened.
-/

namespace HifiApi
namespace Collection

/-- The collection with the date of the last mutation next to every record,
row and payload. -/
@[reducible] def dated (C : Collection) : Collection where
  Rec := C.Rec × I64
  Payload := C.Payload × I64
  Row := C.Row × I64
  Edit := C.Edit
  Draft := C.Draft
  blank := (C.blank, 0)
  idOf r := C.idOf r.1
  rowId w := C.rowId w.1
  toPayload r := (C.toPayload r.1, r.2)
  adopt r v := (C.adopt r.1 v.1).map fun r' => (r', v.2)
  adoptRebuilds := C.adoptRebuilds
  restore now id v := (C.restore now id v.1).map fun r => (r, v.2)
  edit e now r := (C.edit e now r.1).map fun r' => (r', now)
  editRebuilds := C.editRebuilds
  editSavesFirst := C.editSavesFirst
  editFindsRow e r w := C.editFindsRow e r.1 (w.map Prod.fst)
  editRow e now r r' w := (C.editRow e now r.1 r'.1 w.1, r'.2)
  adoptRow r w := (C.adoptRow r.1 w.1, r.2)
  newRow now r := (C.newRow now r.1, r.2)
  conflicts w w' := C.conflicts w.1 w'.1
  rowCreatedAt w := C.rowCreatedAt w.1
  repairRow w := (C.repairRow w.1, w.2)
  loadRow w := (C.loadRow w.1, w.2)
  draft d now := (C.draft d now, now)
  removeNeedsRecord := C.removeNeedsRecord
  adopt_idOf := by
    intro r r' v h
    rcases Option.map_eq_some_iff.mp h with ⟨r₁, hr₁, hr'⟩
    rw [← hr']
    exact C.adopt_idOf hr₁
  restore_idOf := by
    intro now id v r h
    rcases Option.map_eq_some_iff.mp h with ⟨r₁, hr₁, hr⟩
    rw [← hr]
    exact C.restore_idOf hr₁
  edit_idOf := by
    intro e now r r' h
    rcases Option.map_eq_some_iff.mp h with ⟨r₁, hr₁, hr'⟩
    rw [← hr']
    exact C.edit_idOf hr₁
  editRow_rowId := fun e now r r' w => C.editRow_rowId e now r.1 r'.1 w.1
  adoptRow_rowId := fun r w => C.adoptRow_rowId r.1 w.1
  newRow_rowId := fun now r => C.newRow_rowId now r.1
  conflicts_of_rowId := fun w w' h => C.conflicts_of_rowId w.1 w'.1 h
  repairRow_rowId := fun w => C.repairRow_rowId w.1
  loadRow_idOf := fun w => C.loadRow_idOf w.1

end Collection

namespace Fleet

variable {Host : Type} {C : Collection} [DecidableEq Host]

/-- A merge takes over a payload that was made before the local record. -/
def ReplacesNewer (s : Fleet Host C.dated) : Action Host C.dated -> Prop
  | .advance h k _ =>
      exists entries id v r, (s.hosts h).tasks k = some (.fetched entries) ∧
        (id, some v) ∈ entries ∧ (s.hosts h).roster.lookup id = some r ∧
        (C.dated.adopt r v).isSome = true ∧ v.2 < r.2
  | _ => False

end Fleet

/-- Every clock reading is a Unix time. -/
def Action.Timed {Host : Type} {C : Collection} : Action Host C -> Prop
  | .edit _ _ _ _ now => 0 < now
  | .create _ _ _ now => 0 < now
  | _ => True

instance {Host : Type} {C : Collection} :
    (a : Action Host C) -> Decidable a.Timed
  | .edit _ _ _ _ now => inferInstanceAs (Decidable (0 < now))
  | .create _ _ _ now => inferInstanceAs (Decidable (0 < now))
  | .remove _ _ _ | .merge _ _ | .advance _ _ _ | .lose _ _ | .restart _ =>
      isTrue trivial

end HifiApi
