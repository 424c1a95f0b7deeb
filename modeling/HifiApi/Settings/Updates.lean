import HifiApi.Settings.State
import Mathlib.Data.List.TakeWhile

/-!
# Updates of the settings

The fields of an update are read and stored one after the other.  An update that
is accepted puts all its fields in force; one that is refused has stored the
fields in front of the one it is refused for.
-/

namespace HifiApi

/-!
## What an update asks for
-/

/-- A field that holds a text. -/
def stringField (updates : Value) (key : String) : Option String :=
  match updates.get key with
  | some (.string text) => some text
  | _ => none

/-- A field that holds a number, or the text of one. -/
def numberField (updates : Value) (key : String) : Option Nat :=
  match updates.get key with
  | some (.number n) => some n.toNat
  | some (.string text) => parseU32 text
  | _ => none

/-- The settings with the fields of an update in force, in their normal form. -/
def AppSettings.updated (s : AppSettings) (updates : Value) : AppSettings where
  v1PlaybackEndpoint :=
    ((stringField updates "v1_playback_endpoint").bind fun text =>
      (V1PlaybackEndpoint.parse text).toOption).getD s.v1PlaybackEndpoint
  atmosMode :=
    ((stringField updates "atmos_mode").map normalizeAtmosMode).getD s.atmosMode
  trackRequestsPerAccount :=
    ((numberField updates "track_requests_per_account").map
      normalizeRequestsPerAccount).getD s.trackRequestsPerAccount
  catalogRequestsPerAccount :=
    ((numberField updates "catalog_requests_per_account").map
      normalizeRequestsPerAccount).getD s.catalogRequestsPerAccount
  catalogConcurrencyPerAccount :=
    ((numberField updates "catalog_concurrency_per_account").map
      normalizeConcurrencyPerAccount).getD s.catalogConcurrencyPerAccount
  trackConcurrencyPerAccount :=
    ((numberField updates "track_concurrency_per_account").map
      normalizeConcurrencyPerAccount).getD s.trackConcurrencyPerAccount
  trackRequestDelayMs :=
    ((numberField updates "track_request_delay_ms").map
      normalizeRequestDelayMs).getD s.trackRequestDelayMs
  authFailureDisableHours :=
    ((numberField updates "auth_failure_disable_hours").map
      normalizeDisableHours).getD s.authFailureDisableHours
  requestsPerHourPerAccount :=
    ((numberField updates "requests_per_hour_per_account").map
      normalizeRequestsPerHour).getD s.requestsPerHourPerAccount
  discordWebhookUrl := s.discordWebhookUrl

/-- A refused update changes nothing, an accepted one what it asks for. -/
structure AppSettings.UpdatesAtomically (s : AppSettings) (updates : Value) : Prop where
  refused : forall text, (s.apply updates).2 = .error text ->
    (s.apply updates).1 = s
  accepted : (s.apply updates).2 = .ok () ->
    (s.apply updates).1 = s.updated updates

def FieldUpdate.accepts (field : FieldUpdate) (updates : Value) : Bool :=
  match field.read updates with
  | .ok _ => true
  | .error _ => false

/-- What an accepted field asks for. -/
def FieldUpdate.given (field : FieldUpdate) (updates : Value) : Option Assignment :=
  match field.read updates with
  | .ok asked => asked
  | .error _ => none

/-- If one of the fields is refused, the fields in front of the first such field
have the values that they ask for already. -/
def AppSettings.SettledBefore (s : AppSettings) (updates : Value) : Prop :=
  (exists field, field ∈ fieldUpdates ∧ field.accepts updates = false) ->
    forall field, field ∈ fieldUpdates.takeWhile (fun f => f.accepts updates) ->
      forall a, field.read updates = .ok (some a) -> a.InForce s

/-!
## What an update stores
-/

section Fields

variable {updates : Value}

/-- The values stored for some of the fields. -/
def storedBy (updates : Value) (fields : List FieldUpdate) : List Assignment :=
  (fields.takeWhile fun f => f.accepts updates).filterMap fun f => f.given updates

theorem storedBy_cons_of_error {field : FieldUpdate} {text : String}
    (h : field.read updates = .error text) (rest : List FieldUpdate) :
    storedBy updates (field :: rest) = [] := by
  have hrefused : field.accepts updates = false := by
    rw [FieldUpdate.accepts, h]
  rw [storedBy, List.takeWhile_cons, hrefused]
  rfl

theorem storedBy_cons_of_ok {field : FieldUpdate} {asked : Option Assignment}
    (h : field.read updates = .ok asked) (rest : List FieldUpdate) :
    storedBy updates (field :: rest) = asked.toList ++ storedBy updates rest := by
  have haccepted : field.accepts updates = true := by
    rw [FieldUpdate.accepts, h]
  have hgiven : field.given updates = asked := by
    rw [FieldUpdate.given, h]
  rw [storedBy, List.takeWhile_cons, haccepted, if_pos rfl, List.filterMap_cons, hgiven]
  cases asked <;> rfl

/-- The fields in front of the first one that is refused are stored. -/
theorem applyFields_fst (fields : List FieldUpdate) (s : AppSettings) :
    (applyFields updates fields s).1 =
      Assignment.storeAll s (storedBy updates fields) := by
  induction fields generalizing s with
  | nil =>
      rfl
  | cons field rest ih =>
      cases hread : field.read updates with
      | error text =>
          rw [applyFields, hread, storedBy_cons_of_error hread]
          rfl
      | ok asked =>
          rw [storedBy_cons_of_ok hread, applyFields, hread]
          cases asked with
          | none =>
              exact ih s
          | some a =>
              exact ih (a.store s)

theorem applyFields_eq_ok_iff {fields : List FieldUpdate} {s : AppSettings} :
    (applyFields updates fields s).2 = .ok () <->
      forall field, field ∈ fields -> field.accepts updates = true := by
  induction fields generalizing s with
  | nil =>
      simp [applyFields]
  | cons field rest ih =>
      rw [List.forall_mem_cons, applyFields, FieldUpdate.accepts]
      cases field.read updates with
      | error text =>
          simp
      | ok asked =>
          cases asked with
          | none =>
              simpa using ih
          | some a =>
              simpa using ih

/-- An update is refused when one of its fields is. -/
theorem applyFields_refused_iff {fields : List FieldUpdate} {s : AppSettings} :
    (exists text, (applyFields updates fields s).2 = .error text) <->
      exists field, field ∈ fields ∧ field.accepts updates = false := by
  constructor
  · intro h
    rcases h with ⟨text, htext⟩
    by_contra hnone
    have hok : (applyFields updates fields s).2 = .ok () := by
      apply applyFields_eq_ok_iff.mpr
      intro field hfield
      by_contra hrefused
      exact hnone ⟨field, hfield, Bool.eq_false_iff.mpr hrefused⟩
    rw [hok] at htext
    cases htext
  · intro h
    rcases h with ⟨field, hfield, hrefused⟩
    cases hresult : (applyFields updates fields s).2 with
    | error text =>
        exact ⟨text, rfl⟩
    | ok _ =>
        have haccepted := applyFields_eq_ok_iff.mp hresult field hfield
        rw [hrefused] at haccepted
        cases haccepted

theorem mem_storedBy {fields : List FieldUpdate} {a : Assignment} :
    a ∈ storedBy updates fields <->
      exists field, field ∈ fields.takeWhile (fun f => f.accepts updates) ∧
        field.read updates = .ok (some a) := by
  rw [storedBy, List.mem_filterMap]
  apply exists_congr
  intro field
  apply and_congr_right
  intro _
  rw [FieldUpdate.given]
  cases field.read updates with
  | error text =>
      simp
  | ok asked =>
      simp

/-- The names of what is stored are names of the fields, in their order. -/
theorem names_storedBy (fields : List FieldUpdate) :
    ((storedBy updates fields).map Assignment.name).Sublist
      (fields.map FieldUpdate.name) := by
  induction fields with
  | nil =>
      exact List.Sublist.refl _
  | cons field rest ih =>
      rw [List.map_cons]
      cases hread : field.read updates with
      | error text =>
          rw [storedBy_cons_of_error hread]
          exact List.nil_sublist _
      | ok asked =>
          rw [storedBy_cons_of_ok hread]
          cases asked with
          | none =>
              exact ih.cons field.name
          | some a =>
              have hname := field.named updates a hread
              rw [Option.toList_some, List.singleton_append, List.map_cons, hname]
              exact ih.cons_cons field.name

theorem fieldNames_nodup : (fieldUpdates.map FieldUpdate.name).Nodup := by
  decide

theorem storedNames_nodup :
    ((storedBy updates fieldUpdates).map Assignment.name).Nodup :=
  fieldNames_nodup.sublist (names_storedBy fieldUpdates)

end Fields

/-!
## Accepted updates
-/

section Accepted

variable {updates : Value} {key : String}

theorem eq_numberField {asked : Option Nat} (h : firstOptU32 updates key = .ok asked) :
    asked = numberField updates key := by
  unfold firstOptU32 at h
  unfold numberField
  cases hget : updates.get key with
  | none =>
      rw [hget] at h
      cases h
      rfl
  | some value =>
      rw [hget] at h
      cases value with
      | null =>
          cases h
          rfl
      | number n =>
          dsimp only at h
          split at h
          · cases h
            rfl
          · cases h
      | string text =>
          dsimp only at h ⊢
          split at h
          · rename_i n hparse
            cases h
            rw [hparse]
          · cases h
      | _ => cases h

theorem eq_stringField {asked : Option String}
    (h : firstOptString updates [key] = .ok asked) :
    asked = stringField updates key := by
  simp only [firstOptString] at h
  unfold stringField
  cases hget : updates.get key with
  | none =>
      rw [hget] at h
      cases h
      rfl
  | some value =>
      rw [hget] at h
      cases value with
      | string text =>
          cases h
          rfl
      | null =>
          cases h
          rfl
      | _ => cases h

/-- An accepted field that holds a number. -/
theorem given_numberUpdate {normalize : Nat -> Nat} {assign : Nat -> Assignment}
    {hname : forall n, (assign n).name = key}
    (h : (numberUpdate key normalize assign hname).accepts updates = true) :
    (numberUpdate key normalize assign hname).given updates =
      ((numberField updates key).map normalize).map assign := by
  unfold FieldUpdate.accepts at h
  unfold FieldUpdate.given
  simp only [numberUpdate] at h ⊢
  cases hread : firstOptU32 updates key with
  | error text =>
      rw [hread] at h
      cases h
  | ok asked =>
      rw [← eq_numberField hread]
      cases asked <;> rfl

theorem given_updateAtmosMode (h : updateAtmosMode.accepts updates = true) :
    updateAtmosMode.given updates =
      ((stringField updates "atmos_mode").map normalizeAtmosMode).map .atmosMode := by
  unfold FieldUpdate.accepts at h
  unfold FieldUpdate.given
  simp only [updateAtmosMode] at h ⊢
  cases hread : firstOptString updates ["atmos_mode"] with
  | error text =>
      rw [hread] at h
      cases h
  | ok asked =>
      rw [← eq_stringField hread]
      cases asked <;> rfl

theorem given_updateV1PlaybackEndpoint
    (h : updateV1PlaybackEndpoint.accepts updates = true) :
    updateV1PlaybackEndpoint.given updates =
      ((stringField updates "v1_playback_endpoint").bind fun text =>
        (V1PlaybackEndpoint.parse text).toOption).map .v1PlaybackEndpoint := by
  unfold FieldUpdate.accepts at h
  unfold FieldUpdate.given
  simp only [updateV1PlaybackEndpoint] at h ⊢
  cases hread : firstOptString updates ["v1_playback_endpoint"] with
  | error text =>
      rw [hread] at h
      cases h
  | ok asked =>
      rw [← eq_stringField hread]
      cases asked with
      | none =>
          rfl
      | some value =>
          rw [hread] at h
          dsimp only at h ⊢
          rw [Option.bind_some]
          cases hparse : V1PlaybackEndpoint.parse value with
          | error text =>
              rw [hparse] at h
              cases h
          | ok endpoint =>
              rfl

theorem storedBy_of_accepted {fields : List FieldUpdate}
    (h : forall field, field ∈ fields -> field.accepts updates = true) :
    storedBy updates fields = fields.filterMap fun f => f.given updates := by
  rw [storedBy, List.takeWhile_eq_self_iff.mpr h]

/-- One field after the other, whether it asks for something or not. -/
theorem storeAll_filterMap_cons (s : AppSettings) (field : FieldUpdate)
    (rest : List FieldUpdate) :
    Assignment.storeAll s ((field :: rest).filterMap fun f => f.given updates) =
      Assignment.storeAll ((field.given updates).elim s fun a => a.store s)
        (rest.filterMap fun f => f.given updates) := by
  rw [List.filterMap_cons]
  cases field.given updates <;> rfl

/-- A field that asks for nothing leaves the value that is in force. -/
theorem elim_map_store {α : Type} {asked : Option α} {assign : α -> Assignment}
    {s : AppSettings} (current : α) (h : (assign current).InForce s) :
    (asked.map assign).elim s (fun a => a.store s) =
      (assign (asked.getD current)).store s := by
  cases asked with
  | none =>
      exact h.symm
  | some value =>
      rfl

/-- An accepted update puts all its fields in force. -/
theorem AppSettings.apply_of_ok {s : AppSettings}
    (h : (s.apply updates).2 = .ok ()) : (s.apply updates).1 = s.updated updates := by
  have haccepted : forall field, field ∈ fieldUpdates ->
      field.accepts updates = true := applyFields_eq_ok_iff.mp h
  rw [AppSettings.apply, applyFields_fst, storedBy_of_accepted haccepted]
  simp only [fieldUpdates, List.forall_mem_cons] at haccepted
  rcases haccepted with ⟨hendpoint, hatmos, htrack, hcatalog, hcatalogConcurrency,
    htrackConcurrency, hhour, hdisable, hdelay, _⟩
  rw [fieldUpdates,
    storeAll_filterMap_cons, given_updateV1PlaybackEndpoint hendpoint,
    elim_map_store s.v1PlaybackEndpoint,
    storeAll_filterMap_cons, given_updateAtmosMode hatmos, elim_map_store s.atmosMode,
    storeAll_filterMap_cons, updateTrackRequests, given_numberUpdate htrack,
    elim_map_store s.trackRequestsPerAccount,
    storeAll_filterMap_cons, updateCatalogRequests, given_numberUpdate hcatalog,
    elim_map_store s.catalogRequestsPerAccount,
    storeAll_filterMap_cons, updateCatalogConcurrency,
    given_numberUpdate hcatalogConcurrency,
    elim_map_store s.catalogConcurrencyPerAccount,
    storeAll_filterMap_cons, updateTrackConcurrency,
    given_numberUpdate htrackConcurrency, elim_map_store s.trackConcurrencyPerAccount,
    storeAll_filterMap_cons, updateRequestsPerHour, given_numberUpdate hhour,
    elim_map_store s.requestsPerHourPerAccount,
    storeAll_filterMap_cons, updateDisableHours, given_numberUpdate hdisable,
    elim_map_store s.authFailureDisableHours,
    storeAll_filterMap_cons, updateRequestDelay, given_numberUpdate hdelay,
    elim_map_store s.trackRequestDelayMs]
  all_goals rfl

end Accepted

/-- An update is atomic exactly when the fields in front of the first one that is
refused ask for what is in force already. -/
theorem AppSettings.updatesAtomically_iff (s : AppSettings) (updates : Value) :
    s.UpdatesAtomically updates <-> s.SettledBefore updates := by
  have hunchanged : (s.apply updates).1 = s <->
      forall a, a ∈ storedBy updates fieldUpdates -> a.InForce s := by
    rw [AppSettings.apply, applyFields_fst]
    exact Assignment.storeAll_eq_self_iff storedNames_nodup
  constructor
  · intro h hrefused field hfield a hread
    rcases applyFields_refused_iff.mpr hrefused with ⟨text, htext⟩
    apply hunchanged.mp (h.refused text htext)
    exact mem_storedBy.mpr ⟨field, hfield, hread⟩
  · intro h
    constructor
    · intro text htext
      apply hunchanged.mpr
      intro a ha
      rcases mem_storedBy.mp ha with ⟨field, hfield, hread⟩
      exact h (applyFields_refused_iff.mp ⟨text, htext⟩) field hfield a hread
    · exact AppSettings.apply_of_ok

/-- The mode is stored before the number is refused. -/
theorem AppSettings.not_updatesAtomically_badNumber :
    ¬ (AppSettings.fromEnv none none).UpdatesAtomically
      (.object [("atmos_mode", .string "high"),
        ("track_requests_per_account", .string "many")]) := by
  intro h
  have hsame := h.refused "track_requests_per_account must be an integer" rfl
  have hmode := congrArg AppSettings.atmosMode hsame
  exact absurd hmode (by decide)

end HifiApi
