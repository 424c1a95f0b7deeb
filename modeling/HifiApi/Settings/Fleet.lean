import HifiApi.Settings.Loaders
import HifiApi.Lib.Threads

/-!
# Settings of a fleet

Servers that share one Redis keep their settings in step through it.  A server seeds
what is missing when it starts, loads what is there, loads again on each tick, and
writes all settings when its administrator changes one.  The calls of the servers come
in any order, and each of them may be lost.
-/

namespace HifiApi

namespace SettingsFleet

/-!
## Redis
-/

/-- The texts of the settings by name.  The count of values that {lit}`SET` has put
there tells an old answer from one that is still up to date. -/
structure Redis where
  texts : String -> Option String
  overwrites : Nat

namespace Redis

def put (r : Redis) (name value : String) : String -> Option String :=
  fun key => if key = name then some value else r.texts key

def set (r : Redis) (name value : String) : Redis where
  texts := r.put name value
  overwrites := r.overwrites + 1

/-- {lit}`set_nx` -/
def setNx (r : Redis) (name value : String) : Redis :=
  match r.texts name with
  | some _ => r
  | none => { r with texts := r.put name value }

/-- {lit}`mget` with the names whose values came through. -/
def mget (r : Redis) (heard : String -> Bool) (name : String) : Option String :=
  if heard name then r.texts name else none

end Redis

/-!
## Servers
-/

/-- What a server waits for. -/
inductive Stage where
  /-- the texts that are present, before seeding -/
  | probing
  /-- the next {lit}`SET NX` -/
  | seeding (entry : String × String) (rest : List (String × String))
  /-- the texts to load -/
  | loading
  /-- nothing: the texts are applied one after the other -/
  | applying (done rest : List (String × String))

def Stage.afterSeed : List (String × String) -> Stage
  | [] => loading
  | entry :: rest => seeding entry rest

/-- A run of {lit}`seed_and_load` or {lit}`load_from_redis`.  `whole` says that no call
of it has been lost so far, and `since` which overwrites its texts contain, unless a
setting has been changed here meanwhile. -/
structure Sync where
  seed : Bool
  stage : Stage
  whole : Bool
  since : Option Nat

/-- A load that has ended, with the texts it applied. -/
structure Loaded where
  seed : Bool
  texts : List (String × String)
  whole : Bool
  since : Option Nat

/-- The number of keys applied. -/
def Loaded.applied (l : Loaded) : Nat := l.texts.length

structure Host where
  settings : AppSettings
  sync : Option Sync
  loaded : Option Loaded

/-- The settings change in this server, not by a load. -/
def Host.change (host : Host) (settings : AppSettings) : Host where
  settings := settings
  sync := host.sync.map fun sync => { sync with since := none }
  loaded := host.loaded.map fun l => { l with since := none }

/-- A run of {lit}`save_to_redis`, which takes the texts when it begins, or the call of
{lit}`set_discord_webhook_url`. -/
structure Saving where
  host : Nat
  entries : Option (List (String × String))

structure World where
  redis : Redis
  hosts : Nat -> Option Host
  saving : List Saving

inductive Action where
  /-- The server starts: the environment, then the rows of its SQLite table. -/
  | boot (h : Nat) (atmosMode discordWebhookUrl : Option String)
      (rows : List (String × String))
  | tick (h : Nat)
  /-- The load goes on; its call arrives or not, and its answer is heard for some
  names. -/
  | advance (h : Nat) (arrives : Bool) (heard : String -> Bool)
  | update (h : Nat) (updates : Value)
  | restore (h : Nat) (rows : List (String × String))
  | setDiscordWebhookUrl (h : Nat) (url : String) (saved : Bool)
  | save (i : Nat) (arrives : Bool)

/-!
## Steps
-/

/-- What one step of a load does to Redis and to its server. -/
def Host.advance (r : Redis) (host : Host) (sync : Sync) (arrives : Bool)
    (heard : String -> Bool) : Redis × Host :=
  let allHeard := AppSettings.redisSettingNames.all heard
  match sync.stage with
  | .probing =>
      let missing := host.settings.settingsEntries.filter fun e =>
        (r.mget heard e.1).isNone
      (r, { host with sync := some { sync with
        stage := .afterSeed missing, whole := sync.whole && allHeard } })
  | .seeding entry rest =>
      (if arrives then r.setNx entry.1 entry.2 else r,
        { host with sync := some { sync with
          stage := .afterSeed rest, whole := sync.whole && arrives } })
  | .loading =>
      let texts := AppSettings.redisSettingNames.filterMap fun name =>
        (r.mget heard name).map (name, ·)
      (r, { host with sync := some { sync with
        stage := .applying [] texts, whole := sync.whole && allHeard,
        since := some r.overwrites } })
  | .applying done (entry :: rest) =>
      (r, { host with
        settings := host.settings.applyKv entry.1 entry.2
        sync := some { sync with stage := .applying (done ++ [entry]) rest } })
  | .applying done [] =>
      (r, { host with
        sync := none
        loaded := some
          { seed := sync.seed, texts := done, whole := sync.whole,
            since := sync.since } })

namespace World

def setHost (w : World) (h : Nat) (host : Host) : World :=
  { w with hosts := fun k => if k = h then some host else w.hosts k }

/-- The settings of a server are changed by its administrator, and then saved. -/
def changed (w : World) (h : Nat) (host : Host) (settings : AppSettings)
    (entries : Option (List (String × String))) : World :=
  { w.setHost h (host.change settings) with saving := w.saving ++ [⟨h, entries⟩] }

/-- One step of saving, where the texts are those of the server when it begins. -/
def saveStep (w : World) (i : Nat) (task : Saving) (arrives : Bool) : World :=
  match task.entries with
  | none =>
      let entries := (w.hosts task.host).map fun host => host.settings.settingsEntries
      { w with saving := w.saving.set i { task with entries := entries } }
  | some [] => { w with saving := w.saving.eraseIdx i }
  | some (entry :: rest) =>
      { w with
        redis := if arrives then w.redis.set entry.1 entry.2 else w.redis
        saving := w.saving.set i { task with entries := some rest } }

/-- {lit}`seed_and_load` -/
def seedAndLoad : Sync where
  seed := true
  stage := .probing
  whole := true
  since := none

/-- {lit}`refresh_from_redis` -/
def refreshFromRedis : Sync where
  seed := false
  stage := .loading
  whole := true
  since := none

def booted (atmosMode discordWebhookUrl : Option String) (rows : List (String × String)) :
    Host where
  settings := (AppSettings.fromEnv atmosMode discordWebhookUrl).applyEntries rows
  sync := some seedAndLoad
  loaded := none

def step (w : World) : Action -> Option World
  | .boot h atmosMode discordWebhookUrl rows =>
      some { w.setHost h (booted atmosMode discordWebhookUrl rows) with
        saving := w.saving.filter fun task => task.host != h }
  | .tick h =>
      match w.hosts h with
      | some host =>
          match host.sync with
          | none => some (w.setHost h { host with sync := some refreshFromRedis })
          | some _ => none
      | none => none
  | .advance h arrives heard =>
      match w.hosts h with
      | some host =>
          match host.sync with
          | some sync =>
              let next := host.advance w.redis sync arrives heard
              some ({ w with redis := next.1 }.setHost h next.2)
          | none => none
      | none => none
  | .update h updates =>
      (w.hosts h).map fun host =>
        match host.settings.apply updates with
        | (settings, .ok _) => w.changed h host settings none
        | (settings, .error _) => w.setHost h (host.change settings)
  | .restore h rows =>
      (w.hosts h).map fun host => w.changed h host (host.settings.applyEntries rows) none
  | .setDiscordWebhookUrl h url saved =>
      (w.hosts h).map fun host =>
        if saved then
          w.changed h host ((Assignment.discordWebhookUrl url).store host.settings)
            (some [("discord_webhook_url", url)])
        else w
  | .save i arrives => w.saving[i]?.map fun task => w.saveStep i task arrives

def system : System World Action where
  step := step

/-- No server is up, and Redis is empty. -/
def start : World where
  redis := { texts := fun _ => none, overwrites := 0 }
  hosts := fun _ => none
  saving := []

def Reachable (w : World) : Prop :=
  exists actions, system.run start actions = some w

/-- The last load of the server applied all settings, no value has been set in Redis
since it was answered, and none has been changed in the server. -/
def UpToDate (w : World) (h : Nat) (host : Host) : Prop :=
  w.hosts h = some host ∧ exists l, l ∈ host.loaded ∧
    l.applied = AppSettings.redisSettingNames.length ∧ l.since = some w.redis.overwrites

end World

open AppSettings

/-!
## Redis only grows
-/

namespace Redis

/-- Nothing is lost, and without an overwrite nothing changes. -/
structure Extends (r r' : Redis) : Prop where
  present : forall name, (r.texts name).isSome = true -> (r'.texts name).isSome = true
  same : r'.overwrites = r.overwrites ->
    forall name value, r.texts name = some value -> r'.texts name = some value
  overwrites : r.overwrites ≤ r'.overwrites

variable {r r' r'' : Redis}

theorem Extends.refl (r : Redis) : r.Extends r :=
  ⟨fun _ h => h, fun _ _ _ h => h, Nat.le_refl _⟩

theorem Extends.trans (h : r.Extends r') (h' : r'.Extends r'') : r.Extends r'' where
  present := fun name hname => h'.present name (h.present name hname)
  same := by
    intro heq name value hvalue
    have hle := h.overwrites
    have hle' := h'.overwrites
    have hfirst : r'.overwrites = r.overwrites := by omega
    have hsecond : r''.overwrites = r'.overwrites := by omega
    exact h'.same hsecond name value (h.same hfirst name value hvalue)
  overwrites := Nat.le_trans h.overwrites h'.overwrites

theorem put_of_eq (r : Redis) (name value : String) :
    r.put name value name = some value := by
  rw [put, if_pos rfl]

theorem put_of_ne (r : Redis) {name key : String} (value : String) (h : key ≠ name) :
    r.put name value key = r.texts key := by
  rw [put, if_neg h]

theorem isSome_put (r : Redis) (name value : String) {key : String}
    (h : (r.texts key).isSome = true) : (r.put name value key).isSome = true := by
  unfold put
  split
  · rfl
  · exact h

theorem mem_put {name value key text : String} (h : r.put name value key = some text) :
    r.texts key = some text ∨ (key, text) = (name, value) := by
  unfold put at h
  split at h
  · rename_i heq
    cases h
    exact Or.inr (congrArg (·, value) heq)
  · exact Or.inl h

theorem extends_set (r : Redis) (name value : String) : r.Extends (r.set name value) where
  present := fun _ hkey => r.isSome_put name value hkey
  same := by
    intro heq
    have hne : r.overwrites + 1 ≠ r.overwrites := Nat.succ_ne_self _
    exact absurd heq hne
  overwrites := Nat.le_succ _

/-- A value that is there already stays: the first writer wins. -/
theorem extends_setNx (r : Redis) (name value : String) :
    r.Extends (r.setNx name value) := by
  unfold setNx
  split
  · exact Extends.refl r
  · rename_i hnone
    have hkeep : forall key old, r.texts key = some old ->
        r.put name value key = some old := by
      intro key old hold
      have hne : key ≠ name := by
        intro heq
        rw [heq, hnone] at hold
        cases hold
      rw [put_of_ne _ _ hne]
      exact hold
    refine ⟨?_, fun _ => hkeep, Nat.le_refl _⟩
    intro key hkey
    rcases Option.isSome_iff_exists.mp hkey with ⟨old, hold⟩
    exact Option.isSome_iff_exists.mpr ⟨old, hkeep key old hold⟩

theorem isSome_setNx (r : Redis) (name value : String) :
    ((r.setNx name value).texts name).isSome = true := by
  unfold setNx
  split
  · rename_i hsome
    rw [hsome]
    rfl
  · exact Option.isSome_iff_exists.mpr ⟨value, r.put_of_eq name value⟩

theorem mem_setNx {name value key text : String}
    (h : (r.setNx name value).texts key = some text) :
    r.texts key = some text ∨ (key, text) = (name, value) := by
  unfold setNx at h
  split at h
  · exact Or.inl h
  · exact mem_put h

end Redis

/-!
## Readable texts
-/

/-- The setting takes a value from the text. -/
def Readable (entry : String × String) : Prop :=
  (kvAssignment entry.1 entry.2).isSome = true

/-- The value of the text is in force. -/
def InForce (s : AppSettings) (entry : String × String) : Prop :=
  exists a, kvAssignment entry.1 entry.2 = some a ∧ a.InForce s

theorem readable_settingsEntries {s : AppSettings} (hs : s.Normal) :
    forall entry, entry ∈ s.settingsEntries -> Readable entry := by
  intro entry hentry
  rw [settingsEntries_eq] at hentry
  rcases List.mem_map.mp hentry with ⟨a, ha, heq⟩
  rw [← heq, Readable, kvAssignment_text (hs a ha)]
  rfl

theorem normal_applyEntries {s : AppSettings} (hs : s.Normal)
    (entries : List (String × String)) : (s.applyEntries entries).Normal := by
  induction entries generalizing s with
  | nil =>
      exact hs
  | cons entry rest ih =>
      exact ih (hs.applyKv entry.1 entry.2)

theorem inForce_applyKv {s : AppSettings} {entry : String × String}
    (h : Readable entry) : InForce (s.applyKv entry.1 entry.2) entry := by
  rcases Option.isSome_iff_exists.mp h with ⟨a, ha⟩
  refine ⟨a, ha, ?_⟩
  rw [applyKv, ha]
  exact Assignment.inForce_store a s

theorem InForce.applyKv {s : AppSettings} {entry : String × String} (h : InForce s entry)
    {key value : String} (hne : entry.1 ≠ key) : InForce (s.applyKv key value) entry := by
  rcases h with ⟨a, ha, hforce⟩
  refine ⟨a, ha, inForce_applyKv_of_ne hforce ?_⟩
  rw [(normal_of_kvAssignment ha).right]
  exact hne

/-- Settings that all have the values of the same texts are the same. -/
theorem eq_of_texts {s u : AppSettings} {texts : String -> String}
    (hs : forall name, name ∈ redisSettingNames -> InForce s (name, texts name))
    (hu : forall name, name ∈ redisSettingNames -> InForce u (name, texts name)) :
    u = s := by
  apply eq_of_inForce
  intro a ha
  have hname : a.name ∈ redisSettingNames := by
    rw [← assignments_names s]
    exact List.mem_map_of_mem ha
  rcases hs a.name hname with ⟨b, hb, hforce⟩
  have heq : b = a := eq_of_name (inForce_iff_mem.mp hforce) ha
    (normal_of_kvAssignment hb).right
  rcases hu a.name hname with ⟨c, hc, hforce'⟩
  rw [hb] at hc
  cases hc
  rw [← heq]
  exact hforce'

/-!
## What holds of every server
-/

def Complete (r : Redis) : Prop :=
  forall name, name ∈ redisSettingNames -> (r.texts name).isSome = true

/-- Where the texts are up to date, Redis has them. -/
def Current (r : Redis) (since : Option Nat) (texts : List (String × String)) : Prop :=
  since = some r.overwrites ->
    forall entry, entry ∈ texts -> r.texts entry.1 = some entry.2

/-- Where the texts are up to date, their values are in force. -/
def Applied (r : Redis) (s : AppSettings) (since : Option Nat)
    (texts : List (String × String)) : Prop :=
  since = some r.overwrites -> forall entry, entry ∈ texts -> InForce s entry

def InOrder (texts : List (String × String)) : Prop :=
  (texts.map Prod.fst).Sublist redisSettingNames

/-- What is left to seed: with that, all names have a text, if no call was lost. -/
structure Pending (r : Redis) (whole : Bool) (rest : List (String × String)) : Prop where
  readable : forall entry, entry ∈ rest -> Readable entry
  covers : whole = true -> forall name, name ∈ redisSettingNames ->
    name ∈ rest.map Prod.fst ∨ (r.texts name).isSome = true

/-- The texts of a load, of which the first ones have been applied. -/
structure Heard (r : Redis) (s : AppSettings) (sync : Sync)
    (done rest : List (String × String)) : Prop where
  inOrder : InOrder (done ++ rest)
  readable : forall entry, entry ∈ done ++ rest -> Readable entry
  current : Current r sync.since (done ++ rest)
  applied : Applied r s sync.since done
  all : sync.seed = true -> sync.whole = true ->
    (done ++ rest).length = redisSettingNames.length

def Sync.Sound (r : Redis) (s : AppSettings) (sync : Sync) : Prop :=
  match sync.stage with
  | .probing => sync.seed = true
  | .seeding entry rest => sync.seed = true ∧ Pending r sync.whole (entry :: rest)
  | .loading => sync.seed = true -> sync.whole = true -> Complete r
  | .applying done rest => Heard r s sync done rest

/-- No load knows of overwrites that are still to come. -/
def Past (r : Redis) (since : Option Nat) : Prop :=
  forall v, v ∈ since -> v ≤ r.overwrites

structure Loaded.Sound (r : Redis) (s : AppSettings) (l : Loaded) : Prop where
  past : Past r l.since
  inOrder : InOrder l.texts
  current : Current r l.since l.texts
  applied : Applied r s l.since l.texts
  all : l.seed = true -> l.whole = true -> l.applied = redisSettingNames.length

/-- A load that applies its texts is no older than the last one. -/
def Newer (r : Redis) (sync : Sync) (l : Loaded) : Prop :=
  forall done rest, sync.stage = .applying done rest ->
    l.since = some r.overwrites -> sync.since = some r.overwrites

structure Host.Sound (r : Redis) (host : Host) : Prop where
  normal : host.settings.Normal
  past : forall sync, sync ∈ host.sync -> Past r sync.since
  sync : forall sync, sync ∈ host.sync -> sync.Sound r host.settings
  loaded : forall l, l ∈ host.loaded -> l.Sound r host.settings
  newer : forall sync, sync ∈ host.sync -> forall l, l ∈ host.loaded -> Newer r sync l

structure World.Sound (w : World) : Prop where
  redis : forall name value, w.redis.texts name = some value -> Readable (name, value)
  hosts : forall h host, w.hosts h = some host -> host.Sound w.redis
  saving : forall task, task ∈ w.saving -> forall entries, entries ∈ task.entries ->
    forall entry, entry ∈ entries -> Readable entry

/-!
## Redis changes
-/

section Extends

variable {r r' : Redis} {since : Option Nat} {texts : List (String × String)}
  {s : AppSettings}

theorem Past.extends (h : Past r since) (hr : r.Extends r') : Past r' since :=
  fun v hv => Nat.le_trans (h v hv) hr.overwrites

/-- What is up to date afterwards was so before. -/
theorem Past.overwrites_eq (h : Past r since) (hr : r.Extends r')
    (hsince : since = some r'.overwrites) : r'.overwrites = r.overwrites := by
  have hle := h r'.overwrites hsince
  have hle' := hr.overwrites
  omega

theorem Current.extends (h : Current r since texts) (hpast : Past r since)
    (hr : r.Extends r') : Current r' since texts := by
  intro hsince entry hentry
  have heq := hpast.overwrites_eq hr hsince
  rw [heq] at hsince
  exact hr.same heq _ _ (h hsince entry hentry)

theorem Applied.extends (h : Applied r s since texts) (hpast : Past r since)
    (hr : r.Extends r') : Applied r' s since texts := by
  intro hsince
  rw [hpast.overwrites_eq hr hsince] at hsince
  exact h hsince

theorem Complete.extends (h : Complete r) (hr : r.Extends r') : Complete r' :=
  fun name hname => hr.present name (h name hname)

theorem Pending.extends {whole : Bool} {rest : List (String × String)}
    (h : Pending r whole rest) (hr : r.Extends r') : Pending r' whole rest where
  readable := h.readable
  covers := fun hwhole name hname =>
    (h.covers hwhole name hname).imp_right (hr.present name)

theorem Heard.extends {sync : Sync} {done rest : List (String × String)}
    (h : Heard r s sync done rest) (hpast : Past r sync.since) (hr : r.Extends r') :
    Heard r' s sync done rest where
  inOrder := h.inOrder
  readable := h.readable
  current := h.current.extends hpast hr
  applied := h.applied.extends hpast hr
  all := h.all

theorem Sync.Sound.extends {sync : Sync} (h : sync.Sound r s) (hpast : Past r sync.since)
    (hr : r.Extends r') : sync.Sound r' s := by
  unfold Sync.Sound at h ⊢
  split
  · rename_i hstage
    rwa [hstage] at h
  · rename_i hstage
    rw [hstage] at h
    exact ⟨h.left, h.right.extends hr⟩
  · rename_i hstage
    rw [hstage] at h
    exact fun hseed hwhole => (h hseed hwhole).extends hr
  · rename_i hstage
    rw [hstage] at h
    exact Heard.extends h hpast hr

theorem Loaded.Sound.extends {l : Loaded} (h : l.Sound r s) (hr : r.Extends r') :
    l.Sound r' s where
  past := h.past.extends hr
  inOrder := h.inOrder
  current := h.current.extends h.past hr
  applied := h.applied.extends h.past hr
  all := h.all

theorem Host.Sound.extends {host : Host} (h : host.Sound r) (hr : r.Extends r') :
    host.Sound r' where
  normal := h.normal
  past := fun sync hsync => (h.past sync hsync).extends hr
  sync := fun sync hsync => (h.sync sync hsync).extends (h.past sync hsync) hr
  loaded := fun l hl => (h.loaded l hl).extends hr
  newer := by
    intro sync hsync l hl done rest hstage hsince
    have heq := (h.loaded l hl).past.overwrites_eq hr hsince
    rw [heq] at hsince ⊢
    exact h.newer sync hsync l hl done rest hstage hsince

end Extends

/-!
## The settings change in the server itself
-/

section Change

variable {r : Redis} {s s' : AppSettings}

theorem Sync.Sound.change {sync : Sync} (h : sync.Sound r s) :
    Sync.Sound r s' { sync with since := none } := by
  unfold Sync.Sound at h ⊢
  split
  · rename_i hstage
    rwa [hstage] at h
  · rename_i hstage
    rwa [hstage] at h
  · rename_i hstage
    rwa [hstage] at h
  · rename_i hstage
    rw [hstage] at h
    have hheard : Heard r s sync _ _ := h
    refine ⟨hheard.inOrder, hheard.readable, ?_, ?_, hheard.all⟩
    · intro hsince
      cases hsince
    · intro hsince
      cases hsince

theorem Host.Sound.change {host : Host} (h : host.Sound r) (hs : s'.Normal) :
    (host.change s').Sound r where
  normal := hs
  past := by
    intro sync hsync v hv
    rcases Option.map_eq_some_iff.mp hsync with ⟨old, _, heq⟩
    rw [← heq] at hv
    cases hv
  sync := by
    intro sync hsync
    rcases Option.map_eq_some_iff.mp hsync with ⟨old, hold, heq⟩
    rw [← heq]
    exact (h.sync old hold).change
  loaded := by
    intro l hl
    rcases Option.map_eq_some_iff.mp hl with ⟨old, hold, heq⟩
    rw [← heq]
    have hsound := h.loaded old hold
    refine ⟨?_, hsound.inOrder, ?_, ?_, hsound.all⟩
    · intro v hv
      cases hv
    · intro hsince
      cases hsince
    · intro hsince
      cases hsince
  newer := by
    intro sync _ l hl done rest _ hsince
    rcases Option.map_eq_some_iff.mp hl with ⟨old, _, heq⟩
    rw [← heq] at hsince
    cases hsince

end Change

/-!
## One step of a load
-/

section Advance

variable {r : Redis} {host : Host} {sync : Sync} {heard : String -> Bool}

theorem mget_eq_some {name value : String} (h : r.mget heard name = some value) :
    r.texts name = some value := by
  unfold Redis.mget at h
  split at h
  · exact h
  · cases h

theorem mget_of_heard (hall : redisSettingNames.all heard = true) {name : String}
    (hname : name ∈ redisSettingNames) : r.mget heard name = r.texts name := by
  unfold Redis.mget
  rw [if_pos (List.all_eq_true.mp hall name hname)]

/-- The texts that a load hears, under their names. -/
def heardTexts (r : Redis) (heard : String -> Bool) (names : List String) :
    List (String × String) :=
  names.filterMap fun name => (r.mget heard name).map (name, ·)

theorem mem_heardTexts {names : List String} {entry : String × String}
    (h : entry ∈ heardTexts r heard names) : r.texts entry.1 = some entry.2 := by
  rcases List.mem_filterMap.mp h with ⟨name, _, hname⟩
  rcases Option.map_eq_some_iff.mp hname with ⟨value, hvalue, heq⟩
  rw [← heq]
  exact mget_eq_some hvalue

theorem sublist_heardTexts (names : List String) :
    ((heardTexts r heard names).map Prod.fst).Sublist names := by
  induction names with
  | nil =>
      exact List.Sublist.slnil
  | cons name rest ih =>
      unfold heardTexts at ih ⊢
      rw [List.filterMap_cons]
      cases r.mget heard name with
      | none =>
          exact ih.cons name
      | some value =>
          exact ih.cons_cons name

theorem length_heardTexts {names : List String}
    (h : forall name, name ∈ names -> (r.mget heard name).isSome = true) :
    (heardTexts r heard names).length = names.length := by
  induction names with
  | nil =>
      rfl
  | cons name rest ih =>
      rcases Option.isSome_iff_exists.mp (h name List.mem_cons_self) with ⟨value, hvalue⟩
      have hrest := ih fun other hother => h other (List.mem_cons_of_mem name hother)
      unfold heardTexts at hrest ⊢
      rw [List.filterMap_cons, hvalue]
      exact congrArg Nat.succ hrest

theorem Pending.sound {s : AppSettings} {rest : List (String × String)} {whole : Bool}
    {since : Option Nat} (h : Pending r whole rest) :
    Sync.Sound r s ⟨true, .afterSeed rest, whole, since⟩ := by
  cases rest with
  | nil =>
      intro _ hwhole name hname
      rcases h.covers hwhole name hname with hrest | hpresent
      · cases hrest
      · exact hpresent
  | cons entry rest =>
      exact ⟨rfl, h⟩

/-- What the answer does not name is seeded. -/
theorem pending_missing (hs : host.settings.Normal) {whole : Bool} :
    Pending r (whole && redisSettingNames.all heard)
      (host.settings.settingsEntries.filter fun e => (r.mget heard e.1).isNone) where
  readable := fun entry hentry =>
    readable_settingsEntries hs entry (List.mem_of_mem_filter hentry)
  covers := by
    intro hwhole name hname
    rw [Bool.and_eq_true] at hwhole
    cases hvalue : r.texts name with
    | some value =>
        exact Or.inr rfl
    | none =>
        left
        rw [← settingsEntries_names host.settings] at hname
        rcases List.mem_map.mp hname with ⟨entry, hentry, heq⟩
        refine List.mem_map.mpr ⟨entry, List.mem_filter.mpr ⟨hentry, ?_⟩, heq⟩
        rw [settingsEntries_names] at hname
        rw [heq, mget_of_heard hwhole.right hname, hvalue]
        rfl

theorem Pending.seeded {entry : String × String} {rest : List (String × String)}
    {whole : Bool} (h : Pending r whole (entry :: rest)) (arrives : Bool) :
    Pending (if arrives then r.setNx entry.1 entry.2 else r) (whole && arrives) rest where
  readable := fun e he => h.readable e (List.mem_cons_of_mem entry he)
  covers := by
    intro hwhole name hname
    rw [Bool.and_eq_true] at hwhole
    rw [hwhole.right, if_pos rfl]
    rcases h.covers hwhole.left name hname with hin | hpresent
    · rcases List.mem_cons.mp hin with hfirst | hrest
      · rw [hfirst]
        exact Or.inr (r.isSome_setNx entry.1 entry.2)
      · exact Or.inl hrest
    · exact Or.inr ((r.extends_setNx entry.1 entry.2).present name hpresent)

theorem Heard.next {s : AppSettings} {entry : String × String}
    {done rest : List (String × String)} (h : Heard r s sync done (entry :: rest)) :
    Heard r (s.applyKv entry.1 entry.2) sync (done ++ [entry]) rest := by
  have heq : done ++ [entry] ++ rest = done ++ entry :: rest := by
    rw [List.append_assoc]
    rfl
  refine ⟨?_, ?_, ?_, ?_, ?_⟩
  · rw [heq]
    exact h.inOrder
  · rw [heq]
    exact h.readable
  · rw [heq]
    exact h.current
  · intro hsince e he
    rcases List.mem_append.mp he with hdone | hlast
    · -- the names are distinct, so that the next text leaves this one in force
      have hdistinct := h.inOrder.nodup redisSettingNames_nodup
      rw [List.map_append, List.nodup_append] at hdistinct
      apply (h.applied hsince e hdone).applyKv
      exact hdistinct.right.right e.1 (List.mem_map_of_mem hdone) entry.1
        (List.mem_map_of_mem List.mem_cons_self)
    · rw [List.mem_singleton.mp hlast]
      exact inForce_applyKv (h.readable entry (List.mem_append_right _ List.mem_cons_self))
  · rw [heq]
    exact h.all

theorem advance_extends (r : Redis) (host : Host) (sync : Sync) (arrives : Bool)
    (heard : String -> Bool) : r.Extends (host.advance r sync arrives heard).1 := by
  unfold Host.advance
  split
  · exact Redis.Extends.refl r
  · split
    · exact r.extends_setNx _ _
    · exact Redis.Extends.refl r
  · exact Redis.Extends.refl r
  · exact Redis.Extends.refl r
  · exact Redis.Extends.refl r

/-- Only a text of the list of {lit}`seed_and_load` is new in Redis. -/
theorem advance_redis (hhost : host.Sound r) (hsync : sync ∈ host.sync) {arrives : Bool}
    {name value : String}
    (h : (host.advance r sync arrives heard).1.texts name = some value) :
    r.texts name = some value ∨ Readable (name, value) := by
  have hsound := hhost.sync sync hsync
  unfold Sync.Sound at hsound
  unfold Host.advance at h
  split at h
  · exact Or.inl h
  · rename_i entry rest hstage
    rw [hstage] at hsound
    have hreadable := hsound.right.readable entry List.mem_cons_self
    cases arrives with
    | false =>
        exact Or.inl h
    | true =>
        rcases Redis.mem_setNx h with hold | hnew
        · exact Or.inl hold
        · rw [hnew]
          exact Or.inr hreadable
  · exact Or.inl h
  · exact Or.inl h
  · exact Or.inl h

/-- A load that goes on in a server where the last one and the settings stay. -/
theorem Host.Sound.withSync (h : host.Sound r) {next : Sync} (hpast : Past r next.since)
    (hnext : next.Sound r host.settings)
    (hnewer : forall l, l ∈ host.loaded -> Newer r next l) :
    Host.Sound r { host with sync := some next } where
  normal := h.normal
  past := by
    intro sync hsync
    cases hsync
    exact hpast
  sync := by
    intro sync hsync
    cases hsync
    exact hnext
  loaded := h.loaded
  newer := by
    intro sync hsync
    cases hsync
    exact hnewer

/-- Before it applies a text, a load is compared with none. -/
theorem newer_of_stage {l : Loaded} (h : forall done rest, sync.stage ≠ .applying done rest) :
    Newer r sync l :=
  fun done rest hstage => absurd hstage (h done rest)

theorem afterSeed_ne (pending done rest : List (String × String)) :
    Stage.afterSeed pending ≠ .applying done rest := by
  intro heq
  cases pending <;> cases heq

theorem heard_loading {s : AppSettings}
    (hredis : forall name value, r.texts name = some value -> Readable (name, value))
    (hcomplete : sync.seed = true -> sync.whole = true -> Complete r) :
    Heard r s ⟨sync.seed, .applying [] (heardTexts r heard redisSettingNames),
      sync.whole && redisSettingNames.all heard, some r.overwrites⟩ []
      (heardTexts r heard redisSettingNames) where
  inOrder := sublist_heardTexts redisSettingNames
  readable := fun entry hentry => hredis entry.1 entry.2 (mem_heardTexts hentry)
  current := fun _ entry hentry => mem_heardTexts hentry
  applied := by
    intro _ entry hentry
    cases hentry
  all := by
    intro hseed hwhole
    rw [Bool.and_eq_true] at hwhole
    apply length_heardTexts
    intro name hname
    rw [mget_of_heard hwhole.right hname]
    exact hcomplete hseed hwhole.left name hname

theorem Heard.finished (h : Heard r host.settings sync done [])
    (hpast : Past r sync.since) :
    Loaded.Sound r host.settings ⟨sync.seed, done, sync.whole, sync.since⟩ := by
  have heq : done ++ [] = done := List.append_nil done
  refine ⟨hpast, ?_, ?_, h.applied, ?_⟩
  · exact heq ▸ h.inOrder
  · exact heq ▸ h.current
  · exact heq ▸ h.all

/-- A text that Redis still has takes no value away that is up to date. -/
theorem Loaded.Sound.next {s : AppSettings} {l : Loaded} (h : l.Sound r s)
    {entry : String × String} (hreadable : Readable entry)
    (hvalue : l.since = some r.overwrites -> r.texts entry.1 = some entry.2) :
    l.Sound r (s.applyKv entry.1 entry.2) where
  past := h.past
  inOrder := h.inOrder
  current := h.current
  applied := by
    intro hsince e he
    by_cases hname : e.1 = entry.1
    · have hold := h.current hsince e he
      rw [hname, hvalue hsince] at hold
      have heq : entry = e := Prod.ext hname.symm (Option.some.inj hold)
      rw [← heq]
      exact inForce_applyKv hreadable
    · exact (h.applied hsince e he).applyKv hname
  all := h.all

/-- A load keeps what holds of its server, one step after the other. -/
theorem Host.Sound.advance (h : host.Sound r) (hsync : sync ∈ host.sync)
    (hredis : forall name value, r.texts name = some value -> Readable (name, value))
    (arrives : Bool) (heard : String -> Bool) :
    (host.advance r sync arrives heard).2.Sound (host.advance r sync arrives heard).1 := by
  have hsound := h.sync sync hsync
  have hpast := h.past sync hsync
  have hextends := advance_extends r host sync arrives heard
  unfold Sync.Sound at hsound
  unfold Host.advance at hextends ⊢
  rcases sync with ⟨seed, stage, whole, since⟩
  cases stage with
  | probing =>
      cases (hsound : seed = true)
      exact h.withSync hpast (pending_missing h.normal).sound
        fun l _ => newer_of_stage (afterSeed_ne _)
  | seeding entry rest =>
      rcases hsound with ⟨hseed, hpending⟩
      cases (hseed : seed = true)
      exact (h.extends hextends).withSync (hpast.extends hextends)
        (hpending.seeded arrives).sound fun l _ => newer_of_stage (afterSeed_ne _)
  | loading =>
      have hheard : Heard r host.settings _ [] _ :=
        @heard_loading r ⟨seed, .loading, whole, since⟩ heard host.settings hredis hsound
      refine h.withSync ?_ hheard ?_
      · intro v hv
        cases hv
        exact Nat.le_refl _
      · intro l _ done rest _ _
        rfl
  | applying done rest =>
      have hheard : Heard r host.settings ⟨seed, .applying done rest, whole, since⟩
        done rest := hsound
      cases rest with
      | nil =>
          refine ⟨h.normal, ?_, ?_, ?_, ?_⟩
          · intro sync hnone
            cases hnone
          · intro sync hnone
            cases hnone
          · intro l hl
            cases hl
            exact hheard.finished hpast
          · intro sync hnone
            cases hnone
      | cons entry rest =>
          have hin : entry ∈ done ++ entry :: rest :=
            List.mem_append_right _ List.mem_cons_self
          refine ⟨h.normal.applyKv _ _, ?_, ?_, ?_, ?_⟩
          · intro sync hnext
            cases hnext
            exact hpast
          · intro sync hnext
            cases hnext
            have hnext := hheard.next
            exact ⟨hnext.inOrder, hnext.readable, hnext.current, hnext.applied, hnext.all⟩
          · intro l hl
            apply (h.loaded l hl).next (hheard.readable entry hin)
            intro hsince
            exact hheard.current (h.newer _ hsync l hl _ _ rfl hsince) entry hin
          · intro sync hnext l hl _ _ _ hsince
            cases hnext
            exact h.newer _ hsync l hl _ _ rfl hsince

end Advance

/-!
## One step of the fleet
-/

namespace World

variable {w w' : World} {h : Nat} {host : Host}

theorem Sound.setHost (hw : w.Sound) (hhost : host.Sound w.redis) :
    (w.setHost h host).Sound where
  redis := hw.redis
  hosts := by
    intro k other hother
    by_cases hk : k = h
    · have heq : (w.setHost h host).hosts k = some host := if_pos hk
      rw [heq] at hother
      cases hother
      exact hhost
    · have heq : (w.setHost h host).hosts k = w.hosts k := if_neg hk
      rw [heq] at hother
      exact hw.hosts k other hother
  saving := hw.saving

/-- Redis grows by readable texts. -/
theorem Sound.withRedis (hw : w.Sound) {r : Redis} (hr : w.redis.Extends r)
    (hnew : forall name value, r.texts name = some value ->
      w.redis.texts name = some value ∨ Readable (name, value)) :
    Sound { w with redis := r } where
  redis := fun name value hvalue =>
    (hnew name value hvalue).elim (hw.redis name value) id
  hosts := fun k other hother => (hw.hosts k other hother).extends hr
  saving := hw.saving

theorem Sound.withSaving (hw : w.Sound) {saving : List Saving}
    (hsaving : forall task, task ∈ saving -> forall entries, entries ∈ task.entries ->
      forall entry, entry ∈ entries -> Readable entry) :
    Sound { w with saving := saving } where
  redis := hw.redis
  hosts := hw.hosts
  saving := hsaving

theorem Sound.changed (hw : w.Sound) (hhost : w.hosts h = some host) {s : AppSettings}
    (hs : s.Normal) {entries : Option (List (String × String))}
    (hentries : forall es, es ∈ entries -> forall e, e ∈ es -> Readable e) :
    (w.changed h host s entries).Sound := by
  have hset : (w.setHost h (host.change s)).Sound :=
    hw.setHost ((hw.hosts h host hhost).change hs)
  exact hset.withSaving (Threads.forall_concat hw.saving hentries)

theorem Sound.saveStep (hw : w.Sound) {i : Nat} {task : Saving}
    (htask : w.saving[i]? = some task) (arrives : Bool) :
    (w.saveStep i task arrives).Sound := by
  have hmine := hw.saving task (List.mem_of_getElem? htask)
  have hset : forall entries : Option (List (String × String)),
      (forall es, es ∈ entries -> forall e, e ∈ es -> Readable e) ->
      forall other, other ∈ w.saving.set i { task with entries := entries } ->
        forall es, es ∈ other.entries -> forall e, e ∈ es -> Readable e := by
    intro entries hentries other hother
    rcases List.mem_or_eq_of_mem_set hother with hold | hnew
    · exact hw.saving other hold
    · rw [hnew]
      exact hentries
  unfold World.saveStep
  split
  · apply hw.withSaving
    apply hset
    intro es hes
    rcases Option.map_eq_some_iff.mp hes with ⟨host, hhost, heq⟩
    rw [← heq]
    exact readable_settingsEntries (hw.hosts _ host hhost).normal
  · exact hw.withSaving (Threads.forall_eraseIdx hw.saving)
  · rename_i entry rest hentries
    have hall := hmine (entry :: rest) hentries
    have hredis : Sound { w with
        redis := if arrives then w.redis.set entry.1 entry.2 else w.redis } := by
      cases arrives with
      | false =>
          exact hw
      | true =>
          apply hw.withRedis (w.redis.extends_set entry.1 entry.2)
          intro name value hvalue
          rcases Redis.mem_put hvalue with hold | hnew
          · exact Or.inl hold
          · rw [hnew]
            exact Or.inr (hall entry List.mem_cons_self)
    apply hredis.withSaving
    apply hset
    intro es hes
    cases hes
    exact fun e he => hall e (List.mem_cons_of_mem entry he)

theorem sound_booted (r : Redis) (atmosMode discordWebhookUrl : Option String)
    (rows : List (String × String)) : (booted atmosMode discordWebhookUrl rows).Sound r where
  normal := normal_applyEntries (normal_fromEnv atmosMode discordWebhookUrl) rows
  past := by
    intro sync hsync v hv
    cases hsync
    cases hv
  sync := by
    intro sync hsync
    cases hsync
    rfl
  loaded := by
    intro l hl
    cases hl
  newer := by
    intro sync _ l hl
    cases hl

theorem sound_tick {r : Redis} (hhost : host.Sound r) :
    Host.Sound r { host with sync := some refreshFromRedis } := by
  refine hhost.withSync ?_ ?_ ?_
  · intro v hv
    cases hv
  · intro hseed
    cases hseed
  · intro l _
    apply newer_of_stage
    intro done rest hstage
    cases hstage

theorem Sound.step (hw : w.Sound) {a : Action} (hstep : w.step a = some w') : w'.Sound := by
  cases a with
  | boot h atmosMode discordWebhookUrl rows =>
      cases hstep
      have hset := hw.setHost (h := h)
        (sound_booted w.redis atmosMode discordWebhookUrl rows)
      exact hset.withSaving fun task htask => hw.saving task (List.mem_of_mem_filter htask)
  | tick h =>
      simp only [World.step] at hstep
      split at hstep
      · rename_i host hhost
        split at hstep
        · cases hstep
          exact hw.setHost (sound_tick (hw.hosts h host hhost))
        · cases hstep
      · cases hstep
  | advance h arrives heard =>
      simp only [World.step] at hstep
      split at hstep
      · rename_i host hhost
        split at hstep
        · rename_i sync hsync
          cases hstep
          have hsound := hw.hosts h host hhost
          have hredis : Sound { w with redis := (host.advance w.redis sync arrives heard).1 } :=
            hw.withRedis (advance_extends w.redis host sync arrives heard)
              fun _ _ => advance_redis hsound hsync
          exact hredis.setHost (hsound.advance hsync hw.redis arrives heard)
        · cases hstep
      · cases hstep
  | update h updates =>
      rcases Option.map_eq_some_iff.mp hstep with ⟨host, hhost, heq⟩
      have hnormal := (hw.hosts h host hhost).normal.apply updates
      split at heq
      · rename_i s _ happly
        rw [happly] at hnormal
        rw [← heq]
        apply hw.changed hhost hnormal
        intro es hes
        cases hes
      · rename_i s _ happly
        rw [happly] at hnormal
        rw [← heq]
        exact hw.setHost ((hw.hosts h host hhost).change hnormal)
  | restore h rows =>
      rcases Option.map_eq_some_iff.mp hstep with ⟨host, hhost, heq⟩
      rw [← heq]
      apply hw.changed hhost (normal_applyEntries (hw.hosts h host hhost).normal rows)
      intro es hes
      cases hes
  | setDiscordWebhookUrl h url saved =>
      rcases Option.map_eq_some_iff.mp hstep with ⟨host, hhost, heq⟩
      split at heq
      · rw [← heq]
        have hurl : (Assignment.discordWebhookUrl url).Normal := trivial
        apply hw.changed hhost ((hw.hosts h host hhost).normal.store hurl)
        intro es hes e he
        cases hes
        rw [List.mem_singleton.mp he]
        rfl
      · rw [← heq]
        exact hw
  | save i arrives =>
      rcases Option.map_eq_some_iff.mp hstep with ⟨task, htask, heq⟩
      rw [← heq]
      exact hw.saveStep htask arrives

theorem sound_start : start.Sound where
  redis := by
    intro name value h
    cases h
  hosts := by
    intro h host hhost
    cases hhost
  saving := by
    intro task htask
    cases htask

theorem Reachable.sound (h : w.Reachable) : w.Sound := by
  rcases h with ⟨actions, hrun⟩
  exact System.run_invariant (M := system) (I := Sound)
    (fun _ _ _ hw hstep => hw.step hstep) sound_start hrun

/-- Redis only grows, in whatever order the calls come. -/
theorem step_extends {a : Action} (hstep : w.step a = some w') :
    w.redis.Extends w'.redis := by
  cases a with
  | boot h atmosMode discordWebhookUrl rows =>
      cases hstep
      exact Redis.Extends.refl _
  | tick h =>
      simp only [World.step] at hstep
      split at hstep
      · split at hstep
        · cases hstep
          exact Redis.Extends.refl _
        · cases hstep
      · cases hstep
  | advance h arrives heard =>
      simp only [World.step] at hstep
      split at hstep
      · split at hstep
        · cases hstep
          exact advance_extends _ _ _ _ _
        · cases hstep
      · cases hstep
  | update h updates =>
      rcases Option.map_eq_some_iff.mp hstep with ⟨host, hhost, heq⟩
      split at heq <;> rw [← heq] <;> exact Redis.Extends.refl _
  | restore h rows =>
      rcases Option.map_eq_some_iff.mp hstep with ⟨host, hhost, heq⟩
      rw [← heq]
      exact Redis.Extends.refl _
  | setDiscordWebhookUrl h url saved =>
      rcases Option.map_eq_some_iff.mp hstep with ⟨host, hhost, heq⟩
      split at heq <;> rw [← heq] <;> exact Redis.Extends.refl _
  | save i arrives =>
      rcases Option.map_eq_some_iff.mp hstep with ⟨task, htask, heq⟩
      rw [← heq]
      unfold World.saveStep
      split
      · exact Redis.Extends.refl _
      · exact Redis.Extends.refl _
      · cases arrives with
        | false => exact Redis.Extends.refl _
        | true => exact Redis.extends_set _ _ _

theorem run_extends {actions : List Action} (hrun : system.run w actions = some w') :
    w.redis.Extends w'.redis :=
  System.run_invariant (M := system) (I := fun v => w.redis.Extends v.redis)
    (fun _ _ _ hv hstep => hv.trans (step_extends hstep)) (Redis.Extends.refl _) hrun

end World

/-!
## Servers that are up to date
-/

/-- A load that applied as many texts as there are settings applied one for each. -/
theorem Loaded.Sound.inForce {r : Redis} {s : AppSettings} {l : Loaded} (h : l.Sound r s)
    (hall : l.applied = redisSettingNames.length) (hsince : l.since = some r.overwrites)
    {name : String} (hname : name ∈ redisSettingNames) :
    exists value, r.texts name = some value ∧ InForce s (name, value) := by
  have hlength : (l.texts.map Prod.fst).length = redisSettingNames.length := by
    rw [List.length_map]
    exact hall
  rw [← h.inOrder.eq_of_length hlength] at hname
  rcases List.mem_map.mp hname with ⟨entry, hentry, heq⟩
  rw [← heq]
  exact ⟨entry.2, h.current hsince entry hentry, h.applied hsince entry hentry⟩

theorem World.UpToDate.inForce {w : World} (hw : w.Sound) {h : Nat} {host : Host}
    (hup : w.UpToDate h host) {name : String} (hname : name ∈ redisSettingNames) :
    exists value, w.redis.texts name = some value ∧ InForce host.settings (name, value) := by
  rcases hup with ⟨hhost, l, hl, hall, hsince⟩
  exact ((hw.hosts h host hhost).loaded l hl).inForce hall hsince hname

theorem World.UpToDate.eq {w : World} (hw : w.Sound) {g h : Nat} {host other : Host}
    (hup : w.UpToDate g host) (hother : w.UpToDate h other) :
    other.settings = host.settings := by
  refine @eq_of_texts _ _ (fun name => (w.redis.texts name).getD "") ?_ ?_
  · intro name hname
    rcases hup.inForce hw hname with ⟨value, hvalue, hforce⟩
    rw [hvalue]
    exact hforce
  · intro name hname
    rcases hother.inForce hw hname with ⟨value, hvalue, hforce⟩
    rw [hvalue]
    exact hforce

/-- However the calls of the servers interleave, and whichever of them are lost: servers
that are up to date have the settings of Redis, and so the same; a server that seeded
and loaded without losing a call has got all settings; and what the first writer put in
Redis stays until a value is set there. -/
theorem servers_converge {w : World} (h : w.Reachable) :
    (forall g host, w.UpToDate g host -> forall name, name ∈ redisSettingNames ->
      exists value, w.redis.texts name = some value ∧ InForce host.settings (name, value)) ∧
    (forall g k host other, w.UpToDate g host -> w.UpToDate k other ->
      other.settings = host.settings) ∧
    (forall g host l, w.hosts g = some host -> l ∈ host.loaded -> l.seed = true ->
      l.whole = true -> l.applied = redisSettingNames.length) ∧
    forall actions w', World.system.run w actions = some w' ->
      (forall name, (w.redis.texts name).isSome = true ->
        (w'.redis.texts name).isSome = true) ∧
      (w'.redis.overwrites = w.redis.overwrites ->
        forall name value, w.redis.texts name = some value ->
          w'.redis.texts name = some value) := by
  have hsound := h.sound
  refine ⟨?_, ?_, ?_, ?_⟩
  · intro g host hup name hname
    exact hup.inForce hsound hname
  · intro g k host other hup hother
    exact hup.eq hsound hother
  · intro g host l hhost hl hseed hwhole
    exact ((hsound.hosts g host hhost).loaded l hl).all hseed hwhole
  · intro actions w' hrun
    have hextends := World.run_extends hrun
    exact ⟨hextends.present, hextends.same⟩

/-- Two servers start at once with settings of their own, and seed in turns. -/
def twoStarts : List Action :=
  [Action.boot 0 none none [], .boot 1 (some "high") none [("track_request_delay_ms", "500")]] ++
    (List.replicate 23 [Action.advance 0 true fun _ => true,
      Action.advance 1 true fun _ => true]).flatten

def isUpToDate (w : World) (h : Nat) : Bool :=
  match w.hosts h with
  | none => false
  | some host =>
      match host.loaded with
      | none => false
      | some l =>
          l.applied == redisSettingNames.length && l.since == some w.redis.overwrites

theorem upToDate_of_isUpToDate {w : World} {h : Nat} (hup : isUpToDate w h = true) :
    exists host, w.UpToDate h host := by
  unfold isUpToDate at hup
  split at hup
  · cases hup
  · rename_i host hhost
    split at hup
    · cases hup
    · rename_i l hl
      rw [Bool.and_eq_true, beq_iff_eq, beq_iff_eq] at hup
      exact ⟨host, hhost, l, hl, hup⟩

theorem servers_converge_twoStarts :
    exists w host other, World.system.run World.start twoStarts = some w ∧
      w.UpToDate 0 host ∧ w.UpToDate 1 other ∧ other.settings = host.settings := by
  have hends : (World.system.run World.start twoStarts).any
      (fun w => isUpToDate w 0 && isUpToDate w 1) = true := by
    decide
  rcases (Option.any_eq_true _ _).mp hends with ⟨w, hrun, hup⟩
  rw [Bool.and_eq_true] at hup
  rcases upToDate_of_isUpToDate hup.left with ⟨host, hhost⟩
  rcases upToDate_of_isUpToDate hup.right with ⟨other, hother⟩
  exact ⟨w, host, other, hrun, hhost, hother,
    (servers_converge ⟨twoStarts, hrun⟩).right.left 0 1 host other hhost hother⟩

end SettingsFleet

end HifiApi
