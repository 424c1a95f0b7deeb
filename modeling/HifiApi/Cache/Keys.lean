import HifiApi.Cache.ServedSteps
import Mathlib.Data.Prod.Lex
import Mathlib.Data.String.Basic

/-!
# The keys of the metadata cache

The canonical form of a query.  All three ways through {lit}`normalize_query`
write the sorted pairs, so that two queries get one form exactly when they have
the same pairs, and a canonical query is its own form.
-/

namespace HifiApi

open ResponseCache

/-!
## The order of the pairs
-/

theorem pairLe_iff {a b : String × String} :
    pairLe a b = true <-> toLex a ≤ toLex b := by
  rw [Prod.Lex.toLex_le_toLex]
  simp [pairLe]

theorem pairLe_trans (a b c : String × String) (hab : pairLe a b = true)
    (hbc : pairLe b c = true) : pairLe a c = true := by
  rw [pairLe_iff] at hab hbc ⊢
  exact le_trans hab hbc

theorem pairLe_total (a b : String × String) : (pairLe a b || pairLe b a) = true := by
  rw [Bool.or_eq_true, pairLe_iff, pairLe_iff]
  exact le_total _ _

theorem pairLe_antisymm {a b : String × String} (hab : pairLe a b = true)
    (hba : pairLe b a = true) : a = b := by
  rw [pairLe_iff] at hab hba
  exact toLex.injective (le_antisymm hab hba)

theorem pairwise_sortPairs (pairs : List (String × String)) :
    (pairs.mergeSort pairLe).Pairwise fun a b => pairLe a b = true :=
  List.pairwise_mergeSort pairLe_trans pairLe_total pairs

/-- The sorted list of the pairs does not depend on their order. -/
theorem sortPairs_eq_iff {pairs pairs' : List (String × String)} :
    pairs.mergeSort pairLe = pairs'.mergeSort pairLe <-> pairs.Perm pairs' := by
  constructor
  · intro h
    have hsorted := List.mergeSort_perm pairs pairLe
    rw [h] at hsorted
    exact hsorted.symm.trans (List.mergeSort_perm pairs' pairLe)
  · intro h
    apply List.Perm.eq_of_pairwise (fun a b _ _ => pairLe_antisymm)
      (pairwise_sortPairs pairs) (pairwise_sortPairs pairs')
    exact (List.mergeSort_perm pairs pairLe).trans
      (h.trans (List.mergeSort_perm pairs' pairLe).symm)

theorem sortPairs_of_length {pairs : List (String × String)} (h : pairs.length < 2) :
    pairs.mergeSort pairLe = pairs := by
  cases pairs with
  | nil =>
      exact List.mergeSort_nil
  | cons pair rest =>
      cases rest with
      | nil =>
          exact List.mergeSort_singleton pair
      | cons next rest =>
          exact absurd h (by simp)

/-!
## The canonical form
-/

section Canonical

variable {codec : QueryCodec}

/-- The empty text is read as no pairs, since it is what no pairs are written
as. -/
theorem parse_empty (hempty : codec.serialize [] = "") : codec.parse "" = [] := by
  rw [← hempty, codec.parse_serialize]

/-- Whichever way is taken, the sorted pairs are written. -/
theorem normalizeQuery_eq (hempty : codec.serialize [] = "") (query : Option String) :
    normalizeQuery codec query =
      codec.serialize ((codec.parse (query.getD "")).mergeSort pairLe) := by
  unfold normalizeQuery
  dsimp only
  split
  · rename_i hnone
    rw [hnone, parse_empty hempty, List.mergeSort_nil, hempty]
  · split
    · rename_i hfew
      rw [sortPairs_of_length hfew]
    · rfl

theorem serialize_injective {pairs pairs' : List (String × String)}
    (h : codec.serialize pairs = codec.serialize pairs') : pairs = pairs' := by
  have hparsed := congrArg codec.parse h
  rw [codec.parse_serialize, codec.parse_serialize] at hparsed
  exact hparsed

theorem normalizeQuery_eq_iff (hempty : codec.serialize [] = "")
    (p q : Option String) :
    normalizeQuery codec p = normalizeQuery codec q <->
      (codec.parse (p.getD "")).Perm (codec.parse (q.getD "")) := by
  rw [normalizeQuery_eq hempty, normalizeQuery_eq hempty, ← sortPairs_eq_iff]
  constructor
  · exact serialize_injective
  · exact congrArg codec.serialize

theorem normalizeQuery_normalizeQuery (hempty : codec.serialize [] = "")
    (query : Option String) :
    normalizeQuery codec (some (normalizeQuery codec query)) =
      normalizeQuery codec query := by
  rw [normalizeQuery_eq_iff hempty, Option.getD_some]
  exact parse_normalizeQuery query

/-- Requests for the same share their key. -/
theorem MetadataRequest.key_of_alike (hempty : codec.serialize [] = "")
    {r r' : MetadataRequest} (h : r.Alike codec r') : r.key codec = r'.key codec := by
  rcases h with ⟨hpath, hpairs⟩
  unfold MetadataRequest.key
  rw [hpath, (normalizeQuery_eq_iff hempty r.query r'.query).mpr hpairs]

end Canonical

/-- Two queries get one canonical form exactly when they have the same pairs, a
canonical query is its own form, and two requests share their key exactly when
they ask for the same. -/
theorem normalizeQuery_canonical (codec : QueryCodec)
    (hempty : codec.serialize [] = "") :
    (forall p q, normalizeQuery codec p = normalizeQuery codec q <->
      (codec.parse (p.getD "")).Perm (codec.parse (q.getD ""))) ∧
    (forall query, normalizeQuery codec (some (normalizeQuery codec query)) =
      normalizeQuery codec query) ∧
    forall r r' : MetadataRequest,
      r.key codec = r'.key codec <-> r.Alike codec r' := by
  constructor
  · exact normalizeQuery_eq_iff hempty
  · constructor
    · exact normalizeQuery_normalizeQuery hempty
    · intro r r'
      constructor
      · exact MetadataRequest.alike_of_key
      · exact MetadataRequest.key_of_alike hempty

theorem normalizeQuery_canonical_formUrlencoded :
    normalizeQuery formUrlencoded (some "s=daft+punk&a=1") =
      normalizeQuery formUrlencoded (some "a=1&&s=daft%20punk") := by
  have hcanonical := normalizeQuery_canonical formUrlencoded rfl
  apply (hcanonical.left _ _).mpr
  decide

end HifiApi
