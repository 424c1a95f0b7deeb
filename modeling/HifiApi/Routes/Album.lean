import HifiApi.Base.AppError
import HifiApi.Base.Checked
import HifiApi.Base.Json
import Mathlib.Data.List.Forall2

/-!
# Albums

The items of an album are asked for in chunks of at most a hundred, all at once,
and merged in their order.  A chunk whose request fails is left out, and the
answer does not show it.  What the requests are answered with is a parameter.
-/

namespace HifiApi

namespace Album

/-- The query parameters of a request for items. -/
structure ChunkQuery where
  limit : I64
  offset : I64
  deriving DecidableEq

/-- The requests of the handler. -/
inductive AlbumCall where
  | album (id : I64)
  | items (id : I64) (query : ChunkQuery)
  deriving DecidableEq

structure AlbumParams where
  id : I64
  limit : I64
  offset : I64

def maxChunk : I64 := ⟨100, by decide, by decide⟩

def chunkSize (remaining : I64) : I64 := min remaining maxChunk

theorem chunkSize_val (remaining : I64) :
    (chunkSize remaining).val = min remaining.val 100 := by
  unfold chunkSize
  rcases le_total remaining maxChunk with h | h
  · have hval : remaining.val ≤ 100 := h
    rw [min_eq_left h, min_eq_left hval]
  · have hval : 100 ≤ remaining.val := h
    rw [min_eq_right h, min_eq_right hval]
    rfl

/-- The loop that cuts what remains into chunks; a sum out of range ends it. -/
def chunks (currentOffset remaining : I64) : Option (List ChunkQuery) :=
  if _h : 0 < remaining.val then
    match currentOffset.add? (chunkSize remaining),
        _hrest : remaining.sub? (chunkSize remaining) with
    | some next, some rest =>
        (chunks next rest).map (⟨chunkSize remaining, currentOffset⟩ :: ·)
    | _, _ => none
  else some []
termination_by remaining.val.toNat
decreasing_by
  have hsize := chunkSize_val remaining
  have hval := I64.sub?_eq_some.mp _hrest
  omega

/-- The items of an answer, a page of them or the list itself. -/
def pageItems (data : Value) : List Value :=
  match (data.get "items").bind Value.asArray with
  | some items => items
  | none => data.asArray.getD []

/-- A request that failed has no items. -/
def mergedItems (result : Except AppError Value) : List Value :=
  match result with
  | .ok data => pageItems data
  | .error _ => []

/-- {lit}`get_album`; without a result when the chunks overflow. -/
def getAlbum (apiVersion : String) (params : AlbumParams)
    (ask : AlbumCall -> Except AppError Value) : Option (Except AppError Value) := do
  let queries ← chunks params.offset params.limit
  let results := queries.map fun query => ask (.items params.id query)
  return do
    let albumData ← ask (.album params.id)
    return .object
      [("version", .string apiVersion),
        ("data", albumData.insert "items" (.array (results.flatMap mergedItems)))]

/-!
## The chunks
-/

/-- Chunks of one to a hundred items that follow each other from a first item up
to a last one, which is not among them. -/
inductive Consecutive : Int -> Int -> List ChunkQuery -> Prop where
  | nil {start : Int} : Consecutive start start []
  | cons {start stop : Int} {query : ChunkQuery} {rest : List ChunkQuery}
      (hoffset : query.offset.val = start) (hpos : 1 ≤ query.limit.val)
      (hmax : query.limit.val ≤ 100)
      (h : Consecutive (start + query.limit.val) stop rest) :
      Consecutive start stop (query :: rest)

theorem chunks_of_nonpos {offset remaining : I64} (h : remaining.val ≤ 0) :
    chunks offset remaining = some [] := by
  rw [chunks, dif_neg (by omega)]

theorem chunks_of_pos {offset remaining : I64} (h : 0 < remaining.val) :
    chunks offset remaining =
      (offset.add? (chunkSize remaining)).bind fun next =>
        (remaining.sub? (chunkSize remaining)).bind fun rest =>
          (chunks next rest).map (⟨chunkSize remaining, offset⟩ :: ·) := by
  rw [chunks, dif_pos h]
  split
  · rename_i hnext hrest
    rw [hnext, hrest]
    rfl
  · rename_i hnone
    cases hnext : offset.add? (chunkSize remaining) with
    | none =>
        rfl
    | some next =>
        cases hrest : remaining.sub? (chunkSize remaining) with
        | none =>
            rfl
        | some rest =>
            exact absurd hrest (hnone next rest hnext)

/-- The parts of one round of the loop. -/
theorem chunks_cons {offset remaining : I64} {queries : List ChunkQuery}
    (hpos : 0 < remaining.val) (h : chunks offset remaining = some queries) :
    exists next rest queries', next.val = offset.val + min remaining.val 100 ∧
      rest.val = remaining.val - min remaining.val 100 ∧
      chunks next rest = some queries' ∧
      queries = ⟨chunkSize remaining, offset⟩ :: queries' := by
  rw [chunks_of_pos hpos] at h
  rcases Option.bind_eq_some_iff.mp h with ⟨next, hnext, hrests⟩
  rcases Option.bind_eq_some_iff.mp hrests with ⟨rest, hrest, hmap⟩
  rcases Option.map_eq_some_iff.mp hmap with ⟨queries', hqueries, heq⟩
  rw [I64.add?_eq_some, chunkSize_val] at hnext
  rw [I64.sub?_eq_some, chunkSize_val] at hrest
  exact ⟨next, rest, queries', hnext, hrest, hqueries, heq.symm⟩

theorem consecutive_chunks {offset remaining : I64} {queries : List ChunkQuery}
    (h : chunks offset remaining = some queries) :
    Consecutive offset.val (offset.val + max remaining.val 0) queries := by
  induction hn : remaining.val.toNat using Nat.strong_induction_on
    generalizing offset remaining queries with
  | _ n ih =>
      by_cases hpos : 0 < remaining.val
      · rcases chunks_cons hpos h with ⟨next, rest, queries', hnext, hrest, htail, heq⟩
        have hlater := ih rest.val.toNat (by omega) htail rfl
        have hstop : next.val + max rest.val 0 = offset.val + max remaining.val 0 := by
          omega
        rw [hstop, hnext] at hlater
        rw [heq]
        refine .cons rfl ?_ ?_ ?_
        · rw [chunkSize_val]
          omega
        · rw [chunkSize_val]
          omega
        · rw [chunkSize_val]
          exact hlater
      · rw [chunks_of_nonpos (by omega)] at h
        cases h
        rw [max_eq_right (by omega), Int.add_zero]
        exact .nil

/-- The loop ends with chunks unless the end of the last one is out of range. -/
theorem chunks_isSome_iff {offset remaining : I64} :
    (exists queries, chunks offset remaining = some queries) <->
      remaining.val ≤ 0 ∨ offset.val + remaining.val < 9223372036854775808 := by
  induction hn : remaining.val.toNat using Nat.strong_induction_on
    generalizing offset remaining with
  | _ n ih =>
      by_cases hpos : 0 < remaining.val
      · constructor
        · rintro ⟨queries, h⟩
          rcases chunks_cons hpos h with ⟨next, rest, queries', hnext, hrest, htail, _⟩
          have hupper := next.upper
          have hlater := (ih rest.val.toNat (by omega) rfl).mp ⟨queries', htail⟩
          omega
        · intro hfits
          have hlower := offset.lower
          have hupper := remaining.upper
          let next : I64 :=
            ⟨offset.val + min remaining.val 100, by omega, by omega⟩
          let rest : I64 :=
            ⟨remaining.val - min remaining.val 100, by omega, by omega⟩
          have hnext : offset.add? (chunkSize remaining) = some next := by
            rw [I64.add?_eq_some, chunkSize_val]
          have hrest : remaining.sub? (chunkSize remaining) = some rest := by
            rw [I64.sub?_eq_some, chunkSize_val]
          have hless : rest.val.toNat < n := by
            show (remaining.val - min remaining.val 100).toNat < n
            omega
          have hend : next.val + rest.val = offset.val + remaining.val := by
            show offset.val + min remaining.val 100 +
              (remaining.val - min remaining.val 100) = _
            omega
          rcases (@ih _ hless next rest rfl).mpr (by omega) with ⟨queries, hqueries⟩
          refine ⟨⟨chunkSize remaining, offset⟩ :: queries, ?_⟩
          rw [chunks_of_pos hpos, hnext, Option.bind_some, hrest, Option.bind_some,
            hqueries, Option.map_some]
      · constructor
        · intro _
          exact Or.inl (by omega)
        · intro _
          exact ⟨[], chunks_of_nonpos (by omega)⟩

/-- A chunk of the requested items: it starts a number of hundreds behind the
first one, and is a hundred long or ends with the last one. -/
def IsChunk (params : AlbumParams) (query : ChunkQuery) : Prop :=
  exists i : Nat, 100 * i < params.limit.val ∧
    query.offset.val = params.offset.val + 100 * i ∧
    query.limit.val = min (params.limit.val - 100 * i) 100

theorem mem_chunks_iff {offset remaining : I64} {queries : List ChunkQuery}
    (h : chunks offset remaining = some queries) (id : I64) (query : ChunkQuery) :
    query ∈ queries <-> IsChunk ⟨id, remaining, offset⟩ query := by
  unfold IsChunk
  dsimp only
  induction hn : remaining.val.toNat using Nat.strong_induction_on
    generalizing offset remaining queries with
  | _ n ih =>
      by_cases hpos : 0 < remaining.val
      · rcases chunks_cons hpos h with ⟨next, rest, queries', hnext, hrest, htail, heq⟩
        rw [heq, List.mem_cons, ih rest.val.toNat (by omega) htail rfl]
        constructor
        · rintro (hfirst | ⟨i, hi, hoffset, hlimit⟩)
          · rw [hfirst]
            refine ⟨0, by omega, ?_, ?_⟩
            · show offset.val = _
              omega
            · rw [chunkSize_val]
              omega
          · exact ⟨i + 1, by omega, by omega, by omega⟩
        · rintro ⟨i, hi, hoffset, hlimit⟩
          cases i with
          | zero =>
              left
              cases query with
              | mk limit start =>
                  congr 1
                  · apply I64.val_injective
                    rw [chunkSize_val]
                    dsimp only at hlimit
                    omega
                  · apply I64.val_injective
                    dsimp only at hoffset
                    omega
          | succ i =>
              right
              exact ⟨i, by omega, by omega, by omega⟩
      · rw [chunks_of_nonpos (by omega)] at h
        cases h
        constructor
        · intro hmem
          cases hmem
        · rintro ⟨i, hi, _⟩
          omega

/-!
## The merged items
-/

/-- The chunks cover what is asked for, and an answer has all their items. -/
structure NoHiddenGaps (apiVersion : String) (params : AlbumParams)
    (ask : AlbumCall -> Except AppError Value) : Prop where
  covers : exists queries, chunks params.offset params.limit = some queries ∧
    Consecutive params.offset.val (params.offset.val + max params.limit.val 0) queries
  complete : forall v, getAlbum apiVersion params ask = some (.ok v) ->
    exists queries pages, chunks params.offset params.limit = some queries ∧
      List.Forall₂ (fun query page => ask (.items params.id query) = .ok page)
        queries pages ∧
      (v.index "data").get "items" = some (.array (pages.flatMap pageItems))

section Answers

variable {apiVersion : String} {params : AlbumParams}
  {ask : AlbumCall -> Except AppError Value} {queries : List ChunkQuery}

theorem getAlbum_of_error {e : AppError}
    (hqueries : chunks params.offset params.limit = some queries)
    (halbum : ask (.album params.id) = .error e) :
    getAlbum apiVersion params ask = some (.error e) := by
  unfold getAlbum
  rw [hqueries, halbum]
  rfl

theorem getAlbum_of_ok {albumData : Value}
    (hqueries : chunks params.offset params.limit = some queries)
    (halbum : ask (.album params.id) = .ok albumData) :
    getAlbum apiVersion params ask = some (.ok (.object
      [("version", .string apiVersion),
        ("data", albumData.insert "items" (.array
          (queries.flatMap fun query => mergedItems (ask (.items params.id query)))))])) := by
  unfold getAlbum
  rw [hqueries, halbum]
  show some (Except.ok _) = _
  rw [List.flatMap_map]

/-- Only an object has room for the items. -/
theorem isObject_of_get_insert {v x y : Value} {k : String}
    (h : (v.insert k x).get k = some y) : v.isObject = true := by
  cases v with
  | object fields =>
      rfl
  | _ =>
      cases h

theorem exists_pages
    (h : forall query, query ∈ queries ->
      exists page, ask (.items params.id query) = .ok page) :
    exists pages, List.Forall₂ (fun query page => ask (.items params.id query) = .ok page)
      queries pages := by
  induction queries with
  | nil =>
      exact ⟨[], .nil⟩
  | cons query rest ih =>
      rcases h query List.mem_cons_self with ⟨page, hpage⟩
      rcases ih fun q hq => h q (List.mem_cons_of_mem _ hq) with ⟨pages, hpages⟩
      exact ⟨page :: pages, .cons hpage hpages⟩

theorem flatMap_mergedItems {pages : List Value}
    (h : List.Forall₂ (fun query page => ask (.items params.id query) = .ok page)
      queries pages) :
    (queries.flatMap fun query => mergedItems (ask (.items params.id query))) =
      pages.flatMap pageItems := by
  induction h with
  | nil =>
      rfl
  | cons hpage _ ih =>
      rw [List.flatMap_cons, List.flatMap_cons, ih, hpage]
      rfl

/-- Where the album is found, its items are complete only if every request for
them has been answered. -/
theorem NoHiddenGaps.answered (h : NoHiddenGaps apiVersion params ask)
    {albumData : Value} (halbum : ask (.album params.id) = .ok albumData) :
    albumData.isObject = true ∧ forall query, IsChunk params query ->
      exists page, ask (.items params.id query) = .ok page := by
  rcases h.covers with ⟨queries, hqueries, _⟩
  rcases h.complete _ (getAlbum_of_ok hqueries halbum) with
    ⟨queries', pages, hqueries', hpages, hitems⟩
  refine ⟨isObject_of_get_insert hitems, ?_⟩
  intro query hchunk
  have hmem := (mem_chunks_iff hqueries' params.id query).mpr hchunk
  rcases List.forall₂_iff_get.mp hpages with ⟨hlength, hget⟩
  rcases List.getElem_of_mem hmem with ⟨i, hi, heq⟩
  refine ⟨pages.get ⟨i, hlength ▸ hi⟩, ?_⟩
  rw [← heq]
  exact hget i hi _

end Answers

/-- An album has no hidden gaps exactly if the requested items end within range,
and the request for the album fails, or finds an object while no request for
items fails. -/
theorem noHiddenGaps_iff (apiVersion : String) (params : AlbumParams)
    (ask : AlbumCall -> Except AppError Value) :
    NoHiddenGaps apiVersion params ask <->
      (params.limit.val ≤ 0 ∨
        params.offset.val + params.limit.val < 9223372036854775808) ∧
      ((exists e, ask (.album params.id) = .error e) ∨
        (exists albumData, ask (.album params.id) = .ok albumData ∧
          albumData.isObject = true) ∧
        forall query, IsChunk params query ->
          exists page, ask (.items params.id query) = .ok page) := by
  constructor
  · intro h
    rcases h.covers with ⟨queries, hqueries, _⟩
    refine ⟨chunks_isSome_iff.mp ⟨queries, hqueries⟩, ?_⟩
    cases halbum : ask (.album params.id) with
    | error e =>
        exact Or.inl ⟨e, rfl⟩
    | ok albumData =>
        rcases h.answered halbum with ⟨hobject, hpages⟩
        exact Or.inr ⟨⟨albumData, rfl, hobject⟩, hpages⟩
  · rintro ⟨hfits, hanswers⟩
    rcases chunks_isSome_iff.mpr hfits with ⟨queries, hqueries⟩
    refine ⟨⟨queries, hqueries, consecutive_chunks hqueries⟩, ?_⟩
    intro v hv
    rcases hanswers with ⟨e, herror⟩ | ⟨⟨albumData, halbum, hobject⟩, hpages⟩
    · rw [getAlbum_of_error hqueries herror] at hv
      cases hv
    · have hall : forall query, query ∈ queries ->
          exists page, ask (.items params.id query) = .ok page := by
        intro query hmem
        exact hpages query ((mem_chunks_iff hqueries params.id query).mp hmem)
      rcases exists_pages hall with ⟨pages, hforall⟩
      refine ⟨queries, pages, hqueries, hforall, ?_⟩
      rw [getAlbum_of_ok hqueries halbum, flatMap_mergedItems hforall] at hv
      cases hv
      cases albumData with
      | object fields =>
          exact Value.get_insert_self fields "items" _
      | _ =>
          cases hobject

/-- The first hundred items are missing, and the answer starts with the next. -/
theorem not_noHiddenGaps_failedChunk :
    ¬ NoHiddenGaps "3.0" ⟨⟨1, by decide, by decide⟩, ⟨200, by decide, by decide⟩, 0⟩
      fun
        | .album _ => .ok (.object [])
        | .items _ query =>
            if query.offset = 0 then .error .timeout
            else .ok (.object [("items", .array [.number 101])]) := by
  intro h
  have hchunk : IsChunk ⟨⟨1, by decide, by decide⟩, ⟨200, by decide, by decide⟩, 0⟩
      ⟨⟨100, by decide, by decide⟩, 0⟩ := ⟨0, by decide, by decide, by decide⟩
  rcases (h.answered rfl).right _ hchunk with ⟨page, hpage⟩
  cases hpage

end Album

end HifiApi
