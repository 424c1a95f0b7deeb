import HifiApi.Lib.Separated

/-!
# Texts in debug form

An optional text in the format of {lit}`Debug`: in quotes, with the characters
escaped that would not be read as they are.  Which of them are not printable is a
parameter.  The form determines the text, and stands out at the end of a line whose
parts are separated by bars.
-/

namespace HifiApi

namespace DebugText

open Separated

/-- The characters that a letter behind a backslash stands for. -/
def shortEscapes : List (Char × Char) :=
  [('\x00', '0'), ('\t', 't'), ('\r', 'r'), ('\n', 'n'), ('\\', '\\'), ('\"', '\"')]

def shortEscape (c : Char) : Option Char :=
  (shortEscapes.find? fun e => e.1 = c).map Prod.snd

/-- {lit}`escape_debug` -/
def escapeDebug (unprintable : Char -> Bool) (c : Char) : List Char :=
  match shortEscape c with
  | some letter => ['\\', letter]
  | none =>
      if unprintable c then '\\' :: 'u' :: '{' :: (Nat.toDigits 16 c.toNat ++ ['}'])
      else [c]

/-- The debug form of an optional text. -/
def debugOption (unprintable : Char -> Bool) : Option String -> String
  | none => "None"
  | some text =>
      "Some(\"" ++ String.ofList (text.toList.flatMap (escapeDebug unprintable)) ++ "\")"

/-!
## Hexadecimal digits
-/

theorem digitChar_inj {m n : Nat} (hm : m < 16) (hn : n < 16)
    (h : m.digitChar = n.digitChar) : m = n := by
  have hall : forall m : Fin 16, forall n : Fin 16,
      m.val.digitChar = n.val.digitChar -> m.val = n.val := by decide
  exact hall ⟨m, hm⟩ ⟨n, hn⟩ h

theorem not_mem_toDigits {c : Char} (hdigit : forall d : Fin 16, d.val.digitChar ≠ c)
    (n : Nat) : c ∉ Nat.toDigits 16 n := by
  induction n using Nat.strongRecOn with
  | ind n ih =>
      rw [Nat.toDigits_eq_if (by omega)]
      split
      · rename_i hlt
        rw [List.mem_singleton]
        exact Ne.symm (hdigit ⟨n, hlt⟩)
      · rw [List.mem_append, List.mem_singleton]
        rintro (hin | heq)
        · exact ih (n / 16) (by omega) hin
        · exact hdigit ⟨n % 16, Nat.mod_lt n (by omega)⟩ heq.symm

theorem toDigits_inj {m n : Nat} (h : Nat.toDigits 16 m = Nat.toDigits 16 n) : m = n := by
  induction m using Nat.strongRecOn generalizing n with
  | ind m ih =>
      rw [Nat.toDigits_eq_if (by omega), Nat.toDigits_eq_if (n := n) (by omega)] at h
      split at h
      · rename_i hm
        split at h
        · rename_i hn
          exact digitChar_inj hm hn (List.cons.inj h).left
        · have hlength := congrArg List.length h
          rw [List.length_append, List.length_singleton] at hlength
          have hpos := Nat.length_toDigits_pos (b := 16) (n := n / 16)
          rw [List.length_singleton] at hlength
          omega
      · rename_i hm
        split at h
        · have hlength := congrArg List.length h
          rw [List.length_append, List.length_singleton] at hlength
          have hpos := Nat.length_toDigits_pos (b := 16) (n := m / 16)
          rw [List.length_singleton] at hlength
          omega
        · rcases List.append_inj' h rfl with ⟨hhead, hlast⟩
          have hdiv := ih (m / 16) (by omega) hhead
          have hmod := digitChar_inj (Nat.mod_lt m (by omega)) (Nat.mod_lt n (by omega))
            (List.cons.inj hlast).left
          omega

/-!
## Escaped characters
-/

theorem mem_shortEscapes {c letter : Char} (h : shortEscape c = some letter) :
    (c, letter) ∈ shortEscapes := by
  rcases Option.map_eq_some_iff.mp h with ⟨e, he, hletter⟩
  have hfound := List.find?_some he
  have hc : e.1 = c := of_decide_eq_true hfound
  rw [← hc, ← hletter]
  exact List.mem_of_find?_eq_some he

theorem shortEscape_inj {a b letter : Char} (ha : shortEscape a = some letter)
    (hb : shortEscape b = some letter) : a = b := by
  have hall : forall e, e ∈ shortEscapes -> forall e', e' ∈ shortEscapes ->
      e.2 = e'.2 -> e.1 = e'.1 := by decide
  exact hall _ (mem_shortEscapes ha) _ (mem_shortEscapes hb) rfl

theorem shortEscape_ne {c : Char} : shortEscape c ≠ some 'u' := by
  have hall : forall e, e ∈ shortEscapes -> e.2 ≠ 'u' := by decide
  exact fun h => hall _ (mem_shortEscapes h) rfl

theorem shortEscape_none {c : Char} (h : shortEscape c = none) : c ≠ '\\' ∧ c ≠ '\"' := by
  constructor
  · intro hc
    rw [hc] at h
    exact absurd h (by decide)
  · intro hc
    rw [hc] at h
    exact absurd h (by decide)

variable (unprintable : Char -> Bool)

/-- What an escaped character looks like. -/
inductive Escapes (c : Char) : List Char -> Prop where
  | short {letter : Char} (h : shortEscape c = some letter) : Escapes c ['\\', letter]
  | long : Escapes c ('\\' :: 'u' :: '{' :: (Nat.toDigits 16 c.toNat ++ ['}']))
  | plain (h : c ≠ '\\' ∧ c ≠ '\"') : Escapes c [c]

theorem escapes_escapeDebug (c : Char) : Escapes c (escapeDebug unprintable c) := by
  unfold escapeDebug
  cases hshort : shortEscape c with
  | some letter => exact .short hshort
  | none =>
      dsimp only
      split
      · exact .long
      · exact .plain (shortEscape_none hshort)

theorem Escapes.inj {a b : Char} {x y u v : List Char} (hx : Escapes a x) (hy : Escapes b y)
    (h : x ++ u = y ++ v) : a = b ∧ u = v := by
  cases hx with
  | short ha =>
      cases hy with
      | short hb =>
          simp only [List.cons_append, List.nil_append, List.cons.injEq, true_and] at h
          rw [h.left] at ha
          exact ⟨shortEscape_inj ha hb, h.right⟩
      | long =>
          simp only [List.cons_append, List.nil_append, List.cons.injEq, true_and] at h
          rw [h.left] at ha
          exact absurd ha shortEscape_ne
      | plain hb =>
          exact absurd (List.cons.inj h).left.symm hb.left
  | long =>
      cases hy with
      | short hb =>
          simp only [List.cons_append, List.nil_append, List.cons.injEq, true_and] at h
          rw [← h.left] at hb
          exact absurd hb shortEscape_ne
      | long =>
          simp only [List.cons_append, List.cons.injEq, true_and, List.append_assoc] at h
          rcases append_cons_inj (not_mem_toDigits (by decide) _)
            (not_mem_toDigits (by decide) _) h with ⟨hdigits, huv⟩
          exact ⟨Char.toNat_inj.mp (toDigits_inj hdigits), huv⟩
      | plain hb =>
          exact absurd (List.cons.inj h).left.symm hb.left
  | plain ha =>
      cases hy with
      | short hb => exact absurd (List.cons.inj h).left ha.left
      | long => exact absurd (List.cons.inj h).left ha.left
      | plain hb => exact ⟨(List.cons.inj h).left, (List.cons.inj h).right⟩

theorem prefixCode_escapeDebug : PrefixCode (escapeDebug unprintable) where
  ne_nil c := by
    intro hnil
    have hescapes := escapes_escapeDebug unprintable c
    rw [hnil] at hescapes
    cases hescapes
  inj h := (escapes_escapeDebug _ _).inj (escapes_escapeDebug _ _) h

/-- A quote in an escaped text stands behind a backslash. -/
theorem Escapes.quote {c : Char} {x p q : List Char} (hx : Escapes c x)
    (h : x = p ++ '\"' :: q) : p.getLast? = some '\\' := by
  cases hx with
  | short hletter =>
      cases p with
      | nil => exact absurd (List.cons.inj h).left (by decide)
      | cons first rest =>
          have hlength := congrArg List.length h
          rw [List.length_append, List.length_cons, List.length_cons, List.length_cons,
            List.length_cons, List.length_nil] at hlength
          have hrest : rest = [] := List.length_eq_zero_iff.mp (by omega)
          rw [hrest, ← (List.cons.inj h).left]
          rfl
  | long =>
      have hmem : '\"' ∈ '\\' :: 'u' :: '{' :: (Nat.toDigits 16 c.toNat ++ ['}']) := by
        rw [h]
        exact List.mem_append_right _ List.mem_cons_self
      have hdigits : '\"' ∈ Nat.toDigits 16 c.toNat := by simpa using hmem
      exact absurd hdigits (not_mem_toDigits (by decide) _)
  | plain hc =>
      cases p with
      | nil => exact absurd (List.cons.inj h).left hc.right
      | cons first rest =>
          have htail := (List.cons.inj h).right
          exact absurd htail (by simp)

theorem quote_of_flatMap {text p q : List Char}
    (h : text.flatMap (escapeDebug unprintable) = p ++ '\"' :: q) :
    p.getLast? = some '\\' := by
  induction text generalizing p with
  | nil => exact absurd h (by simp)
  | cons c rest ih =>
      rw [List.flatMap_cons] at h
      rcases List.append_eq_append_iff.mp h with ⟨p', hp, hrest⟩ | ⟨r, hc, hrest⟩
      · have hlast := ih hrest
        rw [hp, List.getLast?_append, hlast]
        rfl
      · cases r with
        | nil =>
            have hlast := ih (p := []) hrest.symm
            cases hlast
        | cons first r' =>
            rw [List.cons_append] at hrest
            rw [← (List.cons.inj hrest).left] at hc
            exact (escapes_escapeDebug unprintable c).quote hc

/-!
## Debug forms
-/

def opening : List Char := ['S', 'o', 'm', 'e', '(', '\"']

theorem toList_debugOption_none : (debugOption unprintable none).toList = ['N', 'o', 'n', 'e'] := by
  show "None".toList = _
  decide

theorem toList_debugOption_some (text : String) :
    (debugOption unprintable (some text)).toList =
      opening ++ (text.toList.flatMap (escapeDebug unprintable) ++ ['\"', ')']) := by
  have hopening : "Some(\"".toList = opening := by decide
  have hclosing : "\")".toList = ['\"', ')'] := by decide
  simp only [debugOption, String.toList_append, String.toList_ofList, List.append_assoc,
    hopening, hclosing]

theorem debugOption_none_ne (text : String) :
    (debugOption unprintable none).toList ≠ (debugOption unprintable (some text)).toList := by
  rw [toList_debugOption_none, toList_debugOption_some]
  intro h
  have hhead : some 'N' = some 'S' := congrArg List.head? h
  exact absurd hhead (by decide)

theorem debugOption_inj {a b : Option String}
    (h : (debugOption unprintable a).toList = (debugOption unprintable b).toList) :
    a = b := by
  cases a with
  | none =>
      cases b with
      | none => rfl
      | some text => exact absurd h (debugOption_none_ne unprintable text)
  | some text =>
      cases b with
      | none => exact absurd h.symm (debugOption_none_ne unprintable text)
      | some other =>
          rw [toList_debugOption_some, toList_debugOption_some] at h
          have hescaped := List.append_cancel_right (List.append_cancel_left h)
          have htext := (prefixCode_escapeDebug unprintable).flatMap_injective hescaped
          rw [String.toList_inj.mp htext]

/-- A debug form does not end with a bar and a debug form: within its quotes another
one would begin with a quote that is not escaped. -/
theorem debugOption_ne_append (a b : Option String) (p : List Char) :
    (debugOption unprintable a).toList ≠
      p ++ '|' :: (debugOption unprintable b).toList := by
  intro h
  cases a with
  | none =>
      rw [toList_debugOption_none] at h
      have hbar : '|' ∈ ['N', 'o', 'n', 'e'] := by
        rw [h]
        exact List.mem_append_right _ List.mem_cons_self
      exact absurd hbar (by decide)
  | some text =>
      rw [toList_debugOption_some] at h
      cases b with
      | none =>
          rw [toList_debugOption_none] at h
          have hlast := congrArg List.getLast? h
          rw [← List.append_assoc, List.getLast?_append, List.getLast?_append,
            List.getLast?_append] at hlast
          have hends : some ')' = some 'e' := hlast
          exact absurd hends (by decide)
      | some other =>
          rw [toList_debugOption_some] at h
          have hescaped : opening ++ text.toList.flatMap (escapeDebug unprintable) =
              p ++ ('|' :: opening ++
                other.toList.flatMap (escapeDebug unprintable)) := by
            apply (List.append_left_inj ['\"', ')']).mp
            simpa only [List.append_assoc, List.cons_append] using h
          rcases List.append_eq_append_iff.mp hescaped with
            ⟨p', hp, hrest⟩ | ⟨r, hstart, hrest⟩
          · have hquote := quote_of_flatMap unprintable (p := p' ++ ['|', 'S', 'o', 'm', 'e', '('])
              (q := other.toList.flatMap (escapeDebug unprintable))
              (by rw [hrest, List.append_assoc]; rfl)
            rw [List.getLast?_append] at hquote
            exact absurd (Option.some.inj hquote) (by decide)
          · cases r with
            | nil =>
                have hquote := quote_of_flatMap unprintable (p := ['|', 'S', 'o', 'm', 'e', '('])
                  (q := other.toList.flatMap (escapeDebug unprintable)) hrest.symm
                exact absurd (Option.some.inj hquote) (by decide)
            | cons first r' =>
                have hfirst : first = '|' := (List.cons.inj hrest).left.symm
                have hbar : '|' ∈ opening := by
                  rw [hstart, hfirst]
                  exact List.mem_append_right _ List.mem_cons_self
                exact absurd hbar (by decide)

/-- The debug form at the end of a line is the part behind the last bar that has one
behind it. -/
theorem append_debugOption_inj {a b : Option String} {p q : List Char}
    (h : p ++ '|' :: (debugOption unprintable a).toList =
      q ++ '|' :: (debugOption unprintable b).toList) : p = q ∧ a = b := by
  rcases List.append_eq_append_iff.mp h with ⟨r, hq, hrest⟩ | ⟨r, hp, hrest⟩
  · cases r with
    | nil =>
        rw [List.append_nil] at hq
        exact ⟨hq.symm, debugOption_inj unprintable (List.cons.inj hrest).right⟩
    | cons first r' =>
        exact absurd (List.cons.inj hrest).right (debugOption_ne_append unprintable a b r')
  · cases r with
    | nil =>
        rw [List.append_nil] at hp
        exact ⟨hp, (debugOption_inj unprintable (List.cons.inj hrest).right).symm⟩
    | cons first r' =>
        exact absurd (List.cons.inj hrest).right (debugOption_ne_append unprintable b a r')

end DebugText

end HifiApi
