import HifiApi.Settings.Updates
import Mathlib.Data.List.Nodup

/-!
# Loading the settings

Every setting that a run leads to is in its normal form, and the text it is
stored as is read back as it.  Loading all texts of one server, in any order,
therefore puts the settings of that server in force on another one.
-/

namespace HifiApi

/-!
## Normal values and their texts
-/

theorem withoutPlus_of_digits {digits : List Char}
    (h : forall c, c ∈ digits -> c.isDigit = true) : withoutPlus digits = digits := by
  unfold withoutPlus
  split
  · have hsign := h '+' List.mem_cons_self
    exact absurd hsign (by decide)
  · rfl

theorem parseU32_repr {n : Nat} (h : n < 4294967296) : parseU32 (Nat.repr n) = some n := by
  have hdigits : forall c, c ∈ Nat.toDigits 10 n -> c.isDigit = true := by
    intro c hc
    exact Nat.isDigit_of_mem_toDigits (by decide) (by decide) hc
  unfold parseU32
  rw [Nat.toList_repr, withoutPlus_of_digits hdigits]
  dsimp only
  rw [if_neg, Nat.ofDigitChars_ten_toDigits, if_pos h]
  rw [not_or, not_not]
  exact ⟨Nat.toDigits_ne_nil, List.all_eq_true.mpr hdigits⟩

namespace Assignment

/-- The text the setting is stored as. -/
def text : Assignment -> String
  | v1PlaybackEndpoint e => e.asStr
  | atmosMode mode => mode
  | discordWebhookUrl url => url
  | trackRequestsPerAccount n | catalogRequestsPerAccount n
  | catalogConcurrencyPerAccount n | trackConcurrencyPerAccount n
  | trackRequestDelayMs n | authFailureDisableHours n
  | requestsPerHourPerAccount n => Nat.repr n

/-- The value is what its normal form is. -/
def Normal : Assignment -> Prop
  | v1PlaybackEndpoint _ => True
  | atmosMode mode => mode ∈ ["prefer", "high", "off"]
  | discordWebhookUrl _ => True
  | trackRequestsPerAccount n => 1 ≤ n ∧ n ≤ 10
  | catalogRequestsPerAccount n => 1 ≤ n ∧ n ≤ 10
  | catalogConcurrencyPerAccount n => n ≤ 1000
  | trackConcurrencyPerAccount n => n ≤ 1000
  | trackRequestDelayMs n => n ≤ 10000
  | authFailureDisableHours n => n ≤ 720
  | requestsPerHourPerAccount n => n ≤ 10000

end Assignment

theorem normalizeAtmosMode_mem (s : String) :
    normalizeAtmosMode s ∈ ["prefer", "high", "off"] := by
  unfold normalizeAtmosMode
  dsimp only
  split
  · decide
  · split <;> decide

theorem normalizeAtmosMode_of_mem {mode : String} (h : mode ∈ ["prefer", "high", "off"]) :
    normalizeAtmosMode mode = mode := by
  simp only [List.mem_cons, List.not_mem_nil, or_false] at h
  rcases h with hprefer | hhigh | hoff
  · rw [hprefer]
    decide
  · rw [hhigh]
    decide
  · rw [hoff]
    decide

/-- The normal form of a number of requests is within its bounds. -/
theorem normalizeRequestsPerAccount_bounds (n : Nat) :
    1 ≤ normalizeRequestsPerAccount n ∧ normalizeRequestsPerAccount n ≤ 10 := by
  unfold normalizeRequestsPerAccount
  omega

theorem normalizeRequestsPerAccount_of_bounds {n : Nat} (h : 1 ≤ n ∧ n ≤ 10) :
    normalizeRequestsPerAccount n = n := by
  unfold normalizeRequestsPerAccount
  omega

namespace AppSettings

/-- A number that is its own normal form is read back from its text. -/
theorem map_parseU32_repr {n : Nat} {normalize : Nat -> Nat} (f : Nat -> Assignment)
    (hn : n < 4294967296) (h : normalize n = n) :
    (parseU32 (Nat.repr n)).map (fun v => f (normalize v)) = some (f n) := by
  rw [parseU32_repr hn, Option.map_some, h]

/-- A normal value is read back from its text. -/
theorem kvAssignment_text {a : Assignment} (h : a.Normal) :
    kvAssignment a.name a.text = some a := by
  cases a with
  | v1PlaybackEndpoint e =>
      have hparse := V1PlaybackEndpoint.parse_asStr e
      exact congrArg (fun r => r.toOption.map Assignment.v1PlaybackEndpoint) hparse
  | atmosMode mode =>
      show some (Assignment.atmosMode (normalizeAtmosMode mode)) = _
      rw [normalizeAtmosMode_of_mem h]
  | discordWebhookUrl url =>
      rfl
  | trackRequestsPerAccount n =>
      have hn : 1 ≤ n ∧ n ≤ 10 := h
      exact map_parseU32_repr .trackRequestsPerAccount (by omega)
        (normalizeRequestsPerAccount_of_bounds hn)
  | catalogRequestsPerAccount n =>
      have hn : 1 ≤ n ∧ n ≤ 10 := h
      exact map_parseU32_repr .catalogRequestsPerAccount (by omega)
        (normalizeRequestsPerAccount_of_bounds hn)
  | catalogConcurrencyPerAccount n =>
      have hn : n ≤ 1000 := h
      exact map_parseU32_repr .catalogConcurrencyPerAccount (by omega)
        (Nat.min_eq_left hn)
  | trackConcurrencyPerAccount n =>
      have hn : n ≤ 1000 := h
      exact map_parseU32_repr .trackConcurrencyPerAccount (by omega) (Nat.min_eq_left hn)
  | trackRequestDelayMs n =>
      have hn : n ≤ 10000 := h
      exact map_parseU32_repr .trackRequestDelayMs (by omega) (Nat.min_eq_left hn)
  | authFailureDisableHours n =>
      have hn : n ≤ 720 := h
      exact map_parseU32_repr .authFailureDisableHours (by omega) (Nat.min_eq_left hn)
  | requestsPerHourPerAccount n =>
      have hn : n ≤ 10000 := h
      exact map_parseU32_repr .requestsPerHourPerAccount (by omega) (Nat.min_eq_left hn)

/-- Whatever a stored text is read as is normal, and a setting of its key. -/
theorem normal_of_kvAssignment {key value : String} {a : Assignment}
    (h : kvAssignment key value = some a) : a.Normal ∧ a.name = key := by
  unfold kvAssignment at h
  split at h
  · rcases Option.map_eq_some_iff.mp h with ⟨e, _, heq⟩
    rw [← heq]
    exact ⟨trivial, rfl⟩
  · cases h
    exact ⟨normalizeAtmosMode_mem value, rfl⟩
  · cases h
    exact ⟨trivial, rfl⟩
  · rcases Option.map_eq_some_iff.mp h with ⟨n, _, heq⟩
    rw [← heq]
    exact ⟨normalizeRequestsPerAccount_bounds n, rfl⟩
  · rcases Option.map_eq_some_iff.mp h with ⟨n, _, heq⟩
    rw [← heq]
    exact ⟨normalizeRequestsPerAccount_bounds n, rfl⟩
  · rcases Option.map_eq_some_iff.mp h with ⟨n, _, heq⟩
    rw [← heq]
    exact ⟨Nat.min_le_right n 1000, rfl⟩
  · rcases Option.map_eq_some_iff.mp h with ⟨n, _, heq⟩
    rw [← heq]
    exact ⟨Nat.min_le_right n 1000, rfl⟩
  · rcases Option.map_eq_some_iff.mp h with ⟨n, _, heq⟩
    rw [← heq]
    exact ⟨Nat.min_le_right n 10000, rfl⟩
  · rcases Option.map_eq_some_iff.mp h with ⟨n, _, heq⟩
    rw [← heq]
    exact ⟨Nat.min_le_right n 720, rfl⟩
  · rcases Option.map_eq_some_iff.mp h with ⟨n, _, heq⟩
    rw [← heq]
    exact ⟨Nat.min_le_right n 10000, rfl⟩
  · cases h

/-!
## Normal settings
-/

/-- All settings with their values, in the order of their texts. -/
def assignments (s : AppSettings) : List Assignment :=
  [.v1PlaybackEndpoint s.v1PlaybackEndpoint, .atmosMode s.atmosMode,
    .discordWebhookUrl s.discordWebhookUrl,
    .trackRequestsPerAccount s.trackRequestsPerAccount,
    .catalogRequestsPerAccount s.catalogRequestsPerAccount,
    .catalogConcurrencyPerAccount s.catalogConcurrencyPerAccount,
    .trackConcurrencyPerAccount s.trackConcurrencyPerAccount,
    .trackRequestDelayMs s.trackRequestDelayMs,
    .authFailureDisableHours s.authFailureDisableHours,
    .requestsPerHourPerAccount s.requestsPerHourPerAccount]

def Normal (s : AppSettings) : Prop :=
  forall a, a ∈ s.assignments -> a.Normal

theorem settingsEntries_eq (s : AppSettings) :
    s.settingsEntries = s.assignments.map fun a => (a.name, a.text) := rfl

theorem assignments_names (s : AppSettings) :
    s.assignments.map Assignment.name = redisSettingNames := rfl

/-- The texts stand under the names of the settings in Redis, in the same
order. -/
theorem settingsEntries_names (s : AppSettings) :
    s.settingsEntries.map Prod.fst = redisSettingNames := rfl

theorem redisSettingNames_nodup : redisSettingNames.Nodup := by
  decide

theorem inForce_iff_mem {s : AppSettings} {a : Assignment} :
    a.InForce s <-> a ∈ s.assignments := by
  constructor
  · intro h
    rw [← h]
    cases a <;> simp [assignments, Assignment.store]
  · intro h
    simp only [assignments, List.mem_cons, List.not_mem_nil, or_false] at h
    rcases h with h | h | h | h | h | h | h | h | h | h <;> rw [h] <;> rfl

/-- Settings that have all values of others are the others. -/
theorem eq_of_inForce {s u : AppSettings}
    (h : forall a, a ∈ s.assignments -> a.InForce u) : u = s := by
  have hmem : forall a, a ∈ s.assignments -> a ∈ u.assignments := by
    intro a ha
    exact inForce_iff_mem.mp (h a ha)
  simp only [assignments, List.mem_cons] at hmem
  cases s
  cases u
  simp_all

theorem eq_of_name {s : AppSettings} {a b : Assignment} (ha : a ∈ s.assignments)
    (hb : b ∈ s.assignments) (h : a.name = b.name) : a = b := by
  have hdistinct : (s.assignments.map Assignment.name).Nodup := by
    rw [assignments_names]
    exact redisSettingNames_nodup
  exact List.inj_on_of_nodup_map hdistinct ha hb h

/-- The value that a setting had before. -/
theorem exists_before (s : AppSettings) (a : Assignment) :
    exists before : Assignment, before.name = a.name ∧ before.store (a.store s) = s := by
  cases a with
  | v1PlaybackEndpoint _ => exact ⟨.v1PlaybackEndpoint s.v1PlaybackEndpoint, rfl, rfl⟩
  | atmosMode _ => exact ⟨.atmosMode s.atmosMode, rfl, rfl⟩
  | discordWebhookUrl _ => exact ⟨.discordWebhookUrl s.discordWebhookUrl, rfl, rfl⟩
  | trackRequestsPerAccount _ =>
      exact ⟨.trackRequestsPerAccount s.trackRequestsPerAccount, rfl, rfl⟩
  | catalogRequestsPerAccount _ =>
      exact ⟨.catalogRequestsPerAccount s.catalogRequestsPerAccount, rfl, rfl⟩
  | catalogConcurrencyPerAccount _ =>
      exact ⟨.catalogConcurrencyPerAccount s.catalogConcurrencyPerAccount, rfl, rfl⟩
  | trackConcurrencyPerAccount _ =>
      exact ⟨.trackConcurrencyPerAccount s.trackConcurrencyPerAccount, rfl, rfl⟩
  | trackRequestDelayMs _ => exact ⟨.trackRequestDelayMs s.trackRequestDelayMs, rfl, rfl⟩
  | authFailureDisableHours _ =>
      exact ⟨.authFailureDisableHours s.authFailureDisableHours, rfl, rfl⟩
  | requestsPerHourPerAccount _ =>
      exact ⟨.requestsPerHourPerAccount s.requestsPerHourPerAccount, rfl, rfl⟩

theorem Normal.store {s : AppSettings} (hs : s.Normal) {a : Assignment}
    (ha : a.Normal) : (a.store s).Normal := by
  intro b hb
  by_cases hname : b.name = a.name
  · have hmine : a ∈ (a.store s).assignments :=
      inForce_iff_mem.mp (Assignment.inForce_store a s)
    rw [eq_of_name hb hmine hname]
    exact ha
  · rcases exists_before s a with ⟨before, hbefore, hstore⟩
    have hforce : b.InForce (before.store (a.store s)) := by
      apply (inForce_iff_mem.mpr hb).store
      rw [hbefore]
      exact hname
    rw [hstore] at hforce
    exact hs b (inForce_iff_mem.mp hforce)

theorem Normal.storeAll {s : AppSettings} (hs : s.Normal) {assigned : List Assignment}
    (h : forall a, a ∈ assigned -> a.Normal) :
    (Assignment.storeAll s assigned).Normal := by
  induction assigned generalizing s with
  | nil =>
      exact hs
  | cons a rest ih =>
      rw [Assignment.storeAll_cons]
      apply ih (hs.store (h a List.mem_cons_self))
      intro b hb
      exact h b (List.mem_cons_of_mem a hb)

/-- Whatever a field of an update asks for is normal. -/
theorem normal_of_numberUpdate {updates : Value} {key : String}
    {normalize : Nat -> Nat} {assign : Nat -> Assignment}
    {hname : forall n, (assign n).name = key} {a : Assignment}
    (hnormal : forall n, (assign (normalize n)).Normal)
    (h : (numberUpdate key normalize assign hname).read updates = .ok (some a)) :
    a.Normal := by
  simp only [numberUpdate] at h
  cases hread : firstOptU32 updates key with
  | error text =>
      rw [hread] at h
      cases h
  | ok asked =>
      rw [hread] at h
      cases asked with
      | none =>
          cases h
      | some n =>
          cases h
          exact hnormal n

theorem normal_of_updateAtmosMode {updates : Value} {a : Assignment}
    (h : updateAtmosMode.read updates = .ok (some a)) : a.Normal := by
  simp only [updateAtmosMode] at h
  cases hread : firstOptString updates ["atmos_mode"] with
  | error text =>
      rw [hread] at h
      cases h
  | ok asked =>
      rw [hread] at h
      cases asked with
      | none =>
          cases h
      | some mode =>
          cases h
          exact normalizeAtmosMode_mem mode

theorem normal_of_updateV1PlaybackEndpoint {updates : Value} {a : Assignment}
    (h : updateV1PlaybackEndpoint.read updates = .ok (some a)) : a.Normal := by
  simp only [updateV1PlaybackEndpoint] at h
  split at h
  · cases h
  · cases h
  · rename_i value _
    cases hparse : V1PlaybackEndpoint.parse value with
    | error text =>
        rw [hparse] at h
        cases h
    | ok endpoint =>
        rw [hparse] at h
        cases h
        trivial

theorem normal_of_fieldUpdates {updates : Value} {field : FieldUpdate}
    (hfield : field ∈ fieldUpdates) {a : Assignment}
    (h : field.read updates = .ok (some a)) : a.Normal := by
  simp only [fieldUpdates, List.mem_cons, List.not_mem_nil, or_false] at hfield
  rcases hfield with hf | hf | hf | hf | hf | hf | hf | hf | hf
  · rw [hf] at h
    exact normal_of_updateV1PlaybackEndpoint h
  · rw [hf] at h
    exact normal_of_updateAtmosMode h
  · rw [hf] at h
    apply normal_of_numberUpdate _ h
    exact normalizeRequestsPerAccount_bounds
  · rw [hf] at h
    apply normal_of_numberUpdate _ h
    exact normalizeRequestsPerAccount_bounds
  · rw [hf] at h
    apply normal_of_numberUpdate _ h
    exact fun n => Nat.min_le_right n 1000
  · rw [hf] at h
    apply normal_of_numberUpdate _ h
    exact fun n => Nat.min_le_right n 1000
  · rw [hf] at h
    apply normal_of_numberUpdate _ h
    exact fun n => Nat.min_le_right n 10000
  · rw [hf] at h
    apply normal_of_numberUpdate _ h
    exact fun n => Nat.min_le_right n 720
  · rw [hf] at h
    apply normal_of_numberUpdate _ h
    exact fun n => Nat.min_le_right n 10000

/-!
## Every run
-/

theorem normal_fromEnv (atmosMode discordWebhookUrl : Option String) :
    (fromEnv atmosMode discordWebhookUrl).Normal := by
  have hmode : defaultAtmosMode atmosMode ∈ ["prefer", "high", "off"] := by
    unfold defaultAtmosMode
    split
    · split
      · exact List.mem_cons_self
      · exact normalizeAtmosMode_mem _
    · exact List.mem_cons_self
  intro a ha
  simp only [assignments, fromEnv, List.mem_cons, List.not_mem_nil, or_false] at ha
  rcases ha with h | h | h | h | h | h | h | h | h | h <;> rw [h]
  · trivial
  · exact hmode
  · trivial
  all_goals simp [Assignment.Normal]

theorem Normal.applyKv {s : AppSettings} (hs : s.Normal) (key value : String) :
    (s.applyKv key value).Normal := by
  unfold AppSettings.applyKv
  split
  · rename_i a ha
    exact hs.store (normal_of_kvAssignment ha).left
  · exact hs

/-- Also a refused update stores normal values only. -/
theorem Normal.apply {s : AppSettings} (hs : s.Normal) (updates : Value) :
    (s.apply updates).1.Normal := by
  rw [AppSettings.apply, applyFields_fst]
  apply hs.storeAll
  intro a ha
  rcases mem_storedBy.mp ha with ⟨field, hfield, hread⟩
  exact normal_of_fieldUpdates ((List.takeWhile_subset _) hfield) hread

theorem Reachable.normal {s : AppSettings} (h : s.Reachable) : s.Normal := by
  rcases h with ⟨atmosMode, discordWebhookUrl, actions, hrun⟩
  refine System.run_invariant ?_ (normal_fromEnv atmosMode discordWebhookUrl) hrun
  intro s action s' hs hstep
  cases action with
  | apply updates =>
      cases hstep
      exact hs.apply updates
  | applyKv key value =>
      cases hstep
      exact hs.applyKv key value
  | setDiscordWebhookUrl url saved =>
      cases hstep
      split
      · exact hs.store trivial
      · exact hs

/-!
## Loading the texts of another server
-/

/-- All texts of a list, one after the other. -/
def applyEntries (s : AppSettings) (entries : List (String × String)) : AppSettings :=
  entries.foldl (fun s entry => s.applyKv entry.1 entry.2) s

theorem applyEntries_cons (s : AppSettings) (entry : String × String)
    (rest : List (String × String)) :
    s.applyEntries (entry :: rest) = (s.applyKv entry.1 entry.2).applyEntries rest := rfl

theorem inForce_applyKv_of_ne {s : AppSettings} {a : Assignment} (ha : a.InForce s)
    {key value : String} (h : a.name ≠ key) : a.InForce (s.applyKv key value) := by
  unfold applyKv
  split
  · rename_i b hb
    apply ha.store
    rw [(normal_of_kvAssignment hb).right]
    exact h
  · exact ha

theorem inForce_applyEntries {s : AppSettings} {a : Assignment} (ha : a.InForce s)
    {entries : List (String × String)} (h : a.name ∉ entries.map Prod.fst) :
    a.InForce (s.applyEntries entries) := by
  induction entries generalizing s with
  | nil =>
      exact ha
  | cons entry rest ih =>
      rw [List.map_cons, List.mem_cons, not_or] at h
      rw [applyEntries_cons]
      exact ih (inForce_applyKv_of_ne ha h.left) h.right

/-- A text puts its value in force, and no text of another key takes it away. -/
theorem inForce_of_mem_entries {s : AppSettings} {a : Assignment} (ha : a.Normal)
    {entries : List (String × String)} (hdistinct : (entries.map Prod.fst).Nodup)
    (hmem : (a.name, a.text) ∈ entries) : a.InForce (s.applyEntries entries) := by
  induction entries generalizing s with
  | nil =>
      cases hmem
  | cons entry rest ih =>
      rw [List.map_cons, List.nodup_cons] at hdistinct
      rw [applyEntries_cons]
      rcases List.mem_cons.mp hmem with hfirst | hrest
      · rw [← hfirst] at hdistinct ⊢
        apply inForce_applyEntries _ hdistinct.left
        rw [applyKv, kvAssignment_text ha]
        exact Assignment.inForce_store a s
      · exact ih hdistinct.right hrest

/-- All texts of a normal state, in any order, make it out of every other one. -/
theorem applyEntries_perm {s : AppSettings} (hs : s.Normal) (t : AppSettings)
    {entries : List (String × String)} (h : entries.Perm s.settingsEntries) :
    t.applyEntries entries = s := by
  have hdistinct : (entries.map Prod.fst).Nodup := by
    rw [(h.map Prod.fst).nodup_iff, settingsEntries_names]
    exact redisSettingNames_nodup
  apply eq_of_inForce
  intro a ha
  apply inForce_of_mem_entries (hs a ha) hdistinct
  rw [h.mem_iff, settingsEntries_eq]
  exact List.mem_map_of_mem ha

/-- A setting that is read from a text is one of those mirrored to Redis. -/
theorem mem_of_kvAssignment {key value : String} {a : Assignment}
    (h : kvAssignment key value = some a) : key ∈ redisSettingNames := by
  have hmem : a ∈ (a.store (fromEnv none none)).assignments :=
    inForce_iff_mem.mp (Assignment.inForce_store a (fromEnv none none))
  rw [← (normal_of_kvAssignment h).right,
    ← assignments_names (a.store (fromEnv none none))]
  exact List.mem_map_of_mem hmem

/-- {lit}`apply_kv` knows the keys that are mirrored to Redis, and no others. -/
theorem kvAssignment_known_iff {key : String} :
    key ∈ redisSettingNames <-> exists value, (kvAssignment key value).isSome = true := by
  constructor
  · intro h
    have hall : forall key, key ∈ redisSettingNames ->
        (kvAssignment key "1").isSome = true ∨
          (kvAssignment key "playbackinfo").isSome = true := by
      decide
    rcases hall key h with hnumber | hendpoint
    · exact ⟨"1", hnumber⟩
    · exact ⟨"playbackinfo", hendpoint⟩
  · intro h
    rcases h with ⟨value, hvalue⟩
    rcases Option.isSome_iff_exists.mp hvalue with ⟨a, ha⟩
    exact mem_of_kvAssignment ha

end AppSettings

open AppSettings in
/-- The texts of a server put its settings in force on any other one, in whatever
order they come, and the three lists of settings agree. -/
theorem settings_survive_loading (s t : AppSettings) (hs : s.Reachable) :
    (forall entries : List (String × String), entries.Perm s.settingsEntries ->
      (t.applyEntries entries).snapshot = s.snapshot ∧
      (t.applyEntries entries).discordWebhookUrl = s.discordWebhookUrl ∧
      (t.applyEntries entries).settingsEntries = s.settingsEntries) ∧
    s.settingsEntries.map Prod.fst = redisSettingNames ∧
    forall key, key ∈ redisSettingNames <->
      exists value, (kvAssignment key value).isSome = true := by
  constructor
  · intro entries hperm
    rw [applyEntries_perm hs.normal t hperm]
    exact ⟨rfl, rfl, rfl⟩
  · constructor
    · exact settingsEntries_names s
    · intro key
      exact kvAssignment_known_iff

/-- A server that prefers the small files, at the old endpoint. -/
def legacySettings : AppSettings :=
  ((AppSettings.fromEnv none none).applyKv "atmos_mode" "high").applyKv
    "v1_playback_endpoint" "playbackinfo"

open AppSettings in
theorem settings_survive_loading_legacy :
    (fromEnv none none).applyEntries legacySettings.settingsEntries.reverse =
      legacySettings ∧
    ((fromEnv none none).applyEntries
      legacySettings.settingsEntries.reverse).settingsEntries =
        legacySettings.settingsEntries := by
  have hreachable : legacySettings.Reachable :=
    ⟨none, none, [.applyKv "atmos_mode" "high",
      .applyKv "v1_playback_endpoint" "playbackinfo"], rfl⟩
  constructor
  · decide
  · exact ((settings_survive_loading legacySettings (fromEnv none none)
      hreachable).left _ (List.reverse_perm _)).right.right

end HifiApi
