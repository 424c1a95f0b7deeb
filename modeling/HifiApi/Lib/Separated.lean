import Mathlib.Algebra.GroupWithZero.Nat
import Mathlib.Data.List.Basic
import Mathlib.Tactic.Common

/-!
# Parts between separators

A list of parts is written as one word, with a separator between any two of them.
The number of parts and the word determine the parts as long as none of them holds
the separator; where one does, some other parts of that number give the same word.
A word over a code in which no word of a letter begins another one determines its
letters.
-/

namespace HifiApi

namespace Separated

variable {α β : Type} {sep : α}

/-- The first separator ends the first part. -/
theorem append_cons_inj {a b u v : List α} (ha : sep ∉ a) (hb : sep ∉ b)
    (h : a ++ sep :: u = b ++ sep :: v) : a = b ∧ u = v := by
  induction a generalizing b with
  | nil =>
      cases b with
      | nil => exact ⟨rfl, (List.cons.inj h).right⟩
      | cons y ys =>
          rw [List.nil_append, List.cons_append] at h
          rw [(List.cons.inj h).left] at hb
          exact absurd List.mem_cons_self hb
  | cons x xs ih =>
      cases b with
      | nil =>
          rw [List.nil_append, List.cons_append] at h
          rw [(List.cons.inj h).left] at ha
          exact absurd List.mem_cons_self ha
      | cons y ys =>
          rw [List.cons_append, List.cons_append] at h
          rcases List.cons.inj h with ⟨hhead, htail⟩
          rcases ih (List.not_mem_of_not_mem_cons ha) (List.not_mem_of_not_mem_cons hb) htail
            with ⟨hxs, huv⟩
          exact ⟨by rw [hhead, hxs], huv⟩

/-- The last separator begins the last part. -/
theorem append_cons_inj_right {a b u v : List α} (hu : sep ∉ u) (hv : sep ∉ v)
    (h : a ++ sep :: u = b ++ sep :: v) : a = b ∧ u = v := by
  have hreverse := congrArg List.reverse h
  rw [List.reverse_append, List.reverse_append, List.reverse_cons, List.reverse_cons,
    List.append_assoc, List.append_assoc, List.singleton_append,
    List.singleton_append] at hreverse
  rcases append_cons_inj (fun hin => hu (List.mem_reverse.mp hin))
    (fun hin => hv (List.mem_reverse.mp hin)) hreverse with ⟨huv, hab⟩
  exact ⟨List.reverse_injective hab, List.reverse_injective huv⟩

theorem append_cons_append_cons (a b c : List α) :
    a ++ sep :: (b ++ sep :: c) = (a ++ sep :: b) ++ sep :: c := by
  rw [List.append_assoc, List.cons_append]

/-!
## Several parts
-/

/-- The separators of a word are those of its parts and those between them. -/
theorem count_intercalate [BEq α] [LawfulBEq α] (sep : α) {parts : List (List α)}
    (h : parts ≠ []) :
    (List.intercalate [sep] parts).count sep + 1 =
      parts.length + (parts.map (List.count sep)).sum := by
  induction parts with
  | nil => exact absurd rfl h
  | cons part rest ih =>
      cases rest with
      | nil =>
          simp only [List.intercalate_singleton, List.length_cons, List.length_nil,
            List.map_cons, List.map_nil, List.sum_cons, List.sum_nil]
          omega
      | cons next rest =>
          have hrest := ih (List.cons_ne_nil _ _)
          rw [List.intercalate_cons_cons, List.count_append, List.count_append,
            List.count_singleton_self, List.length_cons, List.map_cons, List.sum_cons]
          omega

theorem sum_count_eq_zero [BEq α] [LawfulBEq α] {parts : List (List α)} :
    (parts.map (List.count sep)).sum = 0 <-> forall part, part ∈ parts -> sep ∉ part := by
  rw [List.sum_eq_zero_iff_forall_eq_nat]
  constructor
  · intro h part hpart
    exact List.count_eq_zero.mp (h _ (List.mem_map_of_mem hpart))
  · intro h n hn
    rcases List.mem_map.mp hn with ⟨part, hpart, hcount⟩
    rw [← hcount]
    exact List.count_eq_zero.mpr (h part hpart)

theorem intercalate_inj_of_free {a b : List (List α)} (hlength : a.length = b.length)
    (ha : forall part, part ∈ a -> sep ∉ part) (hb : forall part, part ∈ b -> sep ∉ part)
    (h : List.intercalate [sep] a = List.intercalate [sep] b) : a = b := by
  induction a generalizing b with
  | nil => exact (List.length_eq_zero_iff.mp hlength.symm).symm
  | cons x xs ih =>
      cases b with
      | nil => cases hlength
      | cons y ys =>
          have hlength' := Nat.succ.inj hlength
          have hx := ha x List.mem_cons_self
          have hy := hb y List.mem_cons_self
          have hxs := fun part hpart => ha part (List.mem_cons_of_mem _ hpart)
          have hys := fun part hpart => hb part (List.mem_cons_of_mem _ hpart)
          cases xs with
          | nil =>
              rw [List.length_eq_zero_iff.mp hlength'.symm] at h ⊢
              rw [List.intercalate_singleton, List.intercalate_singleton] at h
              rw [h]
          | cons x' xs' =>
              cases ys with
              | nil => cases hlength'
              | cons y' ys' =>
                  rw [List.intercalate_cons_cons, List.intercalate_cons_cons,
                    List.append_assoc, List.append_assoc, List.singleton_append,
                    List.singleton_append] at h
                  rcases append_cons_inj hx hy h with ⟨hhead, htail⟩
                  rw [hhead, ih hlength' hxs hys htail]

/-- Parts without the separator are those of no other list of as many parts. -/
theorem intercalate_inj [BEq α] [LawfulBEq α] {a b : List (List α)}
    (hlength : a.length = b.length) (ha : forall part, part ∈ a -> sep ∉ part)
    (h : List.intercalate [sep] a = List.intercalate [sep] b) : a = b := by
  by_cases hnil : a = []
  · rw [hnil] at hlength
    rw [hnil, List.length_eq_zero_iff.mp hlength.symm]
  · have hnil' : b ≠ [] := by
      intro hb
      rw [hb] at hlength
      exact hnil (List.length_eq_zero_iff.mp hlength)
    have hcount := count_intercalate sep hnil
    have hcount' := count_intercalate sep hnil'
    rw [sum_count_eq_zero.mpr ha, h, hlength] at hcount
    have hb : (b.map (List.count sep)).sum = 0 := by omega
    exact intercalate_inj_of_free hlength ha (sum_count_eq_zero.mp hb) h

/-- A separator within a part can as well stand between two parts. -/
theorem exists_intercalate_eq {a : List (List α)} (htwo : 2 ≤ a.length)
    (h : exists part, part ∈ a ∧ sep ∈ part) :
    exists b, b.length = a.length ∧ b ≠ a ∧
      List.intercalate [sep] b = List.intercalate [sep] a := by
  induction a with
  | nil => cases htwo
  | cons x xs ih =>
      cases xs with
      | nil => exact absurd htwo (by simp)
      | cons y ys =>
          by_cases hx : sep ∈ x
          · rcases List.append_of_mem hx with ⟨p, q, hpq⟩
            refine ⟨p :: (q ++ sep :: y) :: ys, rfl, ?_, ?_⟩
            · intro heq
              have hlength := congrArg List.length (List.cons.inj heq).left
              rw [hpq, List.length_append, List.length_cons] at hlength
              omega
            · cases ys with
              | nil => simp [List.intercalate_cons_cons, hpq]
              | cons z zs => simp [List.intercalate_cons_cons, hpq]
          · have hrest : exists part, part ∈ y :: ys ∧ sep ∈ part := by
              rcases h with ⟨part, hpart, hsep⟩
              rcases List.mem_cons.mp hpart with heq | hin
              · exact absurd (heq ▸ hsep) hx
              · exact ⟨part, hin, hsep⟩
            cases ys with
            | nil =>
                rcases hrest with ⟨part, hpart, hsep⟩
                rw [List.mem_singleton.mp hpart] at hsep
                rcases List.append_of_mem hsep with ⟨p, q, hpq⟩
                refine ⟨[x ++ sep :: p, q], rfl, ?_, ?_⟩
                · intro heq
                  have hlength := congrArg List.length (List.cons.inj heq).left
                  rw [List.length_append, List.length_cons] at hlength
                  omega
                · simp [List.intercalate_cons_cons, hpq]
            | cons z zs =>
                rcases ih (by simp) hrest with ⟨b, hb, hne, hword⟩
                cases b with
                | nil => cases hb
                | cons w ws =>
                    refine ⟨x :: w :: ws, congrArg Nat.succ hb, ?_, ?_⟩
                    · intro heq
                      exact hne (List.cons.inj heq).right
                    · rw [List.intercalate_cons_cons, List.intercalate_cons_cons, hword]

/-!
## Codes
-/

/-- No word of a letter begins the word of another one, and none is empty. -/
structure PrefixCode (code : α -> List β) : Prop where
  ne_nil : forall a, code a ≠ []
  inj : forall {a b : α} {u v : List β}, code a ++ u = code b ++ v -> a = b ∧ u = v

theorem PrefixCode.flatMap_injective {code : α -> List β} (hcode : PrefixCode code)
    {s t : List α} (h : s.flatMap code = t.flatMap code) : s = t := by
  induction s generalizing t with
  | nil =>
      cases t with
      | nil => rfl
      | cons b bs =>
          rw [List.flatMap_nil, List.flatMap_cons] at h
          exact absurd (List.append_eq_nil_iff.mp h.symm).left (hcode.ne_nil b)
  | cons a as ih =>
      cases t with
      | nil =>
          rw [List.flatMap_nil, List.flatMap_cons] at h
          exact absurd (List.append_eq_nil_iff.mp h).left (hcode.ne_nil a)
      | cons b bs =>
          rw [List.flatMap_cons, List.flatMap_cons] at h
          rcases hcode.inj h with ⟨hhead, htail⟩
          rw [hhead, ih htail]

end Separated

end HifiApi
