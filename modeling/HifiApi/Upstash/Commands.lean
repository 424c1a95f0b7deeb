import HifiApi.Base.Numbers
import HifiApi.Upstash.Rest

/-!
# The commands of the store

Every command that the store sends one by one, with the keys of the shared layout.
Names of commands, keys and numbers are never dot segments, so that a command arrives
unless the value it stores, or the member it adds or removes, is one.
-/

namespace HifiApi

namespace UpstashStore

/-!
## Keys
-/

/-- The constant {lit}`PREFIX` in front of a name. -/
def prefixed (name : String) : String := "hifi:" ++ name

def kSettings (name : String) : String := prefixed ("settings:" ++ name)

def kToken (accountId : String) : String := prefixed ("token:" ++ accountId)

def kProxy (accountId : String) : String := prefixed ("proxy:" ++ accountId)

def kApikey (keyId : String) : String := prefixed ("apikey:" ++ keyId)

def kAccount (accountId : String) : String := prefixed ("account:" ++ accountId)

def kAccountsSet : String := prefixed "accounts"

def kApikeydef (keyId : String) : String := prefixed ("apikeydef:" ++ keyId)

def kApikeysSet : String := prefixed "apikeys"

/-- The keys of the layout. -/
inductive LayoutKey : String -> Prop where
  | settings (name : String) : LayoutKey (kSettings name)
  | token (accountId : String) : LayoutKey (kToken accountId)
  | proxy (accountId : String) : LayoutKey (kProxy accountId)
  | apikey (keyId : String) : LayoutKey (kApikey keyId)
  | account (accountId : String) : LayoutKey (kAccount accountId)
  | accountsSet : LayoutKey kAccountsSet
  | apikeydef (keyId : String) : LayoutKey (kApikeydef keyId)
  | apikeysSet : LayoutKey kApikeysSet

theorem LayoutKey.exists_name {key : String} (h : LayoutKey key) :
    exists name, key = prefixed name := by
  cases h <;> exact ⟨_, rfl⟩

/-!
## Commands
-/

inductive RestCommand where
  | ping
  | get (key : String)
  | set (key value : String) (exSecs : Option U64)
  | setNx (key value : String) (exSecs : Option U64)
  | incr (key : String)
  | incrby (key : String) (delta : I64)
  | sadd (setKey member : String)
  | srem (setKey member : String)
  | smembers (setKey : String)

namespace RestCommand

def expiry (exSecs : Option U64) : List String :=
  match exSecs with
  | none => []
  | some ex => ["EX", Nat.repr (max ex.val 1)]

def parts : RestCommand -> List String
  | ping => ["PING"]
  | get key => ["GET", key]
  | set key value exSecs => ["SET", key, value] ++ expiry exSecs
  | setNx key value exSecs => ["SET", key, value] ++ expiry exSecs ++ ["NX"]
  | incr key => ["INCR", key]
  | incrby key delta => ["INCRBY", key, Int.repr delta.val]
  | sadd setKey member => ["SADD", setKey, member]
  | srem setKey member => ["SREM", setKey, member]
  | smembers setKey => ["SMEMBERS", setKey]

def key : RestCommand -> Option String
  | ping => none
  | get key | set key _ _ | setNx key _ _ | incr key | incrby key _ => some key
  | sadd setKey _ | srem setKey _ | smembers setKey => some setKey

/-- The value or the member of a command. -/
def payload : RestCommand -> Option String
  | set _ value _ | setNx _ value _ => some value
  | sadd _ member | srem _ member => some member
  | _ => none

end RestCommand

/-!
## Arguments that are no dot segments
-/

theorem IsDots.chars {part : String} (h : IsDots part) :
    '.' ∈ part.toList ∧ forall c, c ∈ part.toList -> c = '.' := by
  rcases h with hone | htwo
  · rw [hone]
    exact ⟨List.mem_singleton_self _, fun c hc => List.mem_singleton.mp hc⟩
  · have hchars : "..".toList = ['.', '.'] := rfl
    rw [htwo, hchars]
    refine ⟨List.mem_cons_self, fun c hc => ?_⟩
    rwa [List.mem_cons, List.mem_singleton, or_self] at hc

theorem LayoutKey.not_isDots {key : String} (h : LayoutKey key) : ¬ IsDots key := by
  intro hdots
  rcases h.exists_name with ⟨name, hname⟩
  have hcolon : ':' ∈ key.toList := by
    rw [hname, prefixed, String.toList_append]
    exact List.mem_append_left _ (by decide)
  exact absurd (hdots.chars.right _ hcolon) (by decide)

theorem not_isDots_nat (n : Nat) : ¬ IsDots (Nat.repr n) := by
  intro hdots
  exact absurd (Decimal.isDigit_of_mem_repr hdots.chars.left) (by decide)

theorem not_isDots_int (n : Int) : ¬ IsDots (Int.repr n) := by
  intro hdots
  rcases Decimal.mem_repr hdots.chars.left with hdigit | hsign
  · exact absurd hdigit (by decide)
  · exact absurd hsign (by decide)

namespace RestCommand

theorem not_isDots_of_mem_expiry {exSecs : Option U64} {part : String}
    (h : part ∈ expiry exSecs) : ¬ IsDots part := by
  cases exSecs with
  | none => cases h
  | some ex =>
      rcases List.mem_cons.mp h with hname | hseconds
      · rw [hname]
        decide
      · rw [List.mem_singleton.mp hseconds]
        exact not_isDots_nat _

/-- The words of the protocol. -/
def words : List String :=
  ["PING", "GET", "SET", "NX", "INCR", "INCRBY", "SADD", "SREM", "SMEMBERS"]

/-- An argument is a word, the key, the value or the member, or a number. -/
theorem mem_parts {c : RestCommand} {part : String} (h : part ∈ c.parts) :
    part ∈ words ∨ part ∈ c.key ∨ part ∈ c.payload ∨
      (exists exSecs, part ∈ expiry exSecs) ∨ exists n : Int, part = Int.repr n := by
  cases c with
  | set _ _ exSecs | setNx _ _ exSecs =>
      by_cases hexpiry : part ∈ expiry exSecs
      · exact Or.inr (Or.inr (Or.inr (Or.inl ⟨exSecs, hexpiry⟩)))
      · simp only [parts, List.mem_append, List.mem_cons, List.not_mem_nil, hexpiry] at h
        simp only [words, key, payload, List.mem_cons, Option.mem_some_iff]
        tauto
  | incrby _ delta =>
      simp only [parts, List.mem_cons, List.not_mem_nil, or_false] at h
      rcases h with hword | hkey | hnumber
      · rw [hword]
        exact Or.inl (by decide)
      · exact Or.inr (Or.inl (Option.mem_some_iff.mpr hkey.symm))
      · exact Or.inr (Or.inr (Or.inr (Or.inr ⟨_, hnumber⟩)))
  | ping | get _ | incr _ | sadd _ _ | srem _ _ | smembers _ =>
      simp only [parts, List.mem_cons, List.not_mem_nil] at h
      simp only [words, key, payload, List.mem_cons, Option.mem_some_iff]
      tauto

theorem payload_mem_parts {c : RestCommand} {value : String} (h : value ∈ c.payload) :
    value ∈ c.parts := by
  cases c with
  | set _ _ _ | setNx _ _ _ | sadd _ _ | srem _ _ =>
      cases h
      simp [parts]
  | ping | get _ | incr _ | incrby _ _ | smembers _ => cases h

/-- Only the value or the member of a command can be a dot segment. -/
theorem plain_parts_iff {c : RestCommand} (hkey : forall key, key ∈ c.key -> LayoutKey key) :
    (forall part, part ∈ c.parts -> ¬ IsDots part) <->
      forall value, value ∈ c.payload -> ¬ IsDots value := by
  have hwords : forall word, word ∈ words -> ¬ IsDots word := by decide
  constructor
  · intro h value hvalue
    exact h value (payload_mem_parts hvalue)
  · intro h part hpart
    rcases mem_parts hpart with hword | hin | hvalue | ⟨exSecs, hexpiry⟩ | ⟨n, hnumber⟩
    · exact hwords part hword
    · exact (hkey part hin).not_isDots
    · exact h part hvalue
    · exact not_isDots_of_mem_expiry hexpiry
    · rw [hnumber]
      exact not_isDots_int n

end RestCommand

/-- A command with a key of the layout arrives exactly if the value or the member in
it is no dot segment. -/
theorem RestCommand.arrives_iff {base : List Char} (hbase : isHttp base = true)
    (hbare : '?' ∉ base ∧ '#' ∉ base) {c : RestCommand}
    (hkey : forall key, key ∈ c.key -> LayoutKey key) :
    Survives base c.parts <-> forall value, value ∈ c.payload -> ¬ IsDots value := by
  rw [← plain_parts_iff hkey]
  constructor
  · exact plain_of_survives hbase
  · intro hplain
    refine survives_of_addressable hbase ⟨hbare, hplain, fun hnil => ?_⟩
    cases c <;> cases hnil

end UpstashStore

end HifiApi
