import HifiApi.Cache.Responses

/-!
# Reading a body before it is kept

A body is read chunk by chunk until it ends, breaks off or grows too large.  What
has been read until then stands in front of what is still to come, so that the
answer that is sent on is the one that came in.
-/

namespace HifiApi

namespace ResponseCache

section Reading

variable {response : Streamed} {total : Nat} {taken chunks : List Bytes}

theorem length_flatten_taken (chunk : Bytes) (htotal : total = taken.flatten.length) :
    total + chunk.length = (taken ++ [chunk]).flatten.length := by
  rw [htotal, List.flatten_append, List.length_append, List.flatten_singleton]

/-- A chunk that fits is put behind the others. -/
theorem readChunks_cons (chunk : Bytes) (rest : List (Option Bytes))
    (htotal : total = taken.flatten.length)
    (hfits : (taken ++ [chunk]).flatten.length ≤ maxBodyBytes) :
    readChunks response total taken (some chunk :: rest) =
      readChunks response (total + chunk.length) (taken ++ [chunk]) rest := by
  rw [readChunks]
  rw [length_flatten_taken chunk htotal, if_neg (Nat.not_lt_of_le hfits)]

/-- The chunks that fit are taken one after the other. -/
theorem readChunks_append (rest : List (Option Bytes))
    (htotal : total = taken.flatten.length)
    (hfits : (taken ++ chunks).flatten.length ≤ maxBodyBytes) :
    readChunks response total taken (chunks.map some ++ rest) =
      readChunks response (taken ++ chunks).flatten.length (taken ++ chunks) rest := by
  induction chunks generalizing total taken with
  | nil =>
      rw [List.append_nil, ← htotal, List.map_nil, List.nil_append]
  | cons chunk chunks ih =>
      have hsplit : taken ++ chunk :: chunks = (taken ++ [chunk]) ++ chunks := by
        rw [List.append_assoc, List.singleton_append]
      rw [hsplit] at hfits ⊢
      have hfirst : (taken ++ [chunk]).flatten.length ≤ maxBodyBytes := by
        rw [List.flatten_append, List.length_append] at hfits
        omega
      rw [List.map_cons, List.cons_append, readChunks_cons chunk _ htotal hfirst]
      exact ih (length_flatten_taken chunk htotal) hfits

/-- What has been taken and what is still to come go on together. -/
theorem readChunks_of_large (rest : List (Option Bytes))
    (htotal : total = taken.flatten.length)
    (hsmall : taken.flatten.length ≤ maxBodyBytes)
    (hlarge : maxBodyBytes < (taken ++ chunks).flatten.length) :
    readChunks response total taken (chunks.map some ++ rest) =
      .error { response with chunks := (taken ++ chunks).map some ++ rest } := by
  induction chunks generalizing total taken with
  | nil =>
      rw [List.append_nil] at hlarge
      omega
  | cons chunk chunks ih =>
      by_cases hfits : (taken ++ [chunk]).flatten.length ≤ maxBodyBytes
      · have hsplit : taken ++ chunk :: chunks = (taken ++ [chunk]) ++ chunks := by
          rw [List.append_assoc, List.singleton_append]
        rw [hsplit] at hlarge ⊢
        rw [List.map_cons, List.cons_append, readChunks_cons chunk _ htotal hfits]
        exact ih (length_flatten_taken chunk htotal) hfits hlarge
      · rw [List.map_cons, List.cons_append, readChunks]
        rw [length_flatten_taken chunk htotal, if_pos (Nat.lt_of_not_le hfits)]
        simp

end Reading

/-- A body that is read to its end is kept as it is, one that grows too large
goes on chunk by chunk as it came, and one that breaks off before that is
answered with 502. -/
theorem collectParts_keeps_body (response : Streamed) (chunks : List Bytes) :
    (response.chunks = chunks.map some -> chunks.flatten.length ≤ maxBodyBytes ->
      collectParts response =
        .ok (response.status, textHeaders response.headers, chunks.flatten)) ∧
    (forall rest, response.chunks = chunks.map some ++ rest ->
      maxBodyBytes < chunks.flatten.length ->
      collectParts response = .error response) ∧
    forall rest, response.chunks = chunks.map some ++ none :: rest ->
      chunks.flatten.length ≤ maxBodyBytes ->
      collectParts response = .error bodyReadFailed ∧ bodyReadFailed.status = 502 := by
  have hnone : (0 : Nat) = ([] : List Bytes).flatten.length := rfl
  constructor
  · intro hchunks hfits
    unfold collectParts
    rw [hchunks, ← List.append_nil (chunks.map some), readChunks_append [] hnone hfits]
    rfl
  · constructor
    · intro rest hchunks hlarge
      unfold collectParts
      rw [hchunks, readChunks_of_large rest hnone (Nat.zero_le _) hlarge]
      rw [List.nil_append, ← hchunks]
      rfl
    · intro rest hchunks hfits
      unfold collectParts
      rw [hchunks, readChunks_append (none :: rest) hnone hfits]
      exact ⟨rfl, rfl⟩

/-- A tail after a chunk that just fits, and an error at the end. -/
def oversized : Streamed where
  status := 200
  headers := []
  chunks := [List.replicate maxBodyBytes 97, [116]].map some ++ [none]

/-- Behind the limit an error is passed on; before it there is none to read. -/
theorem collectParts_keeps_body_oversized :
    collectParts oversized = .error oversized ∧
      collectParts ⟨200, [], [some [91], some [], some [93]]⟩ = .ok (200, [], [91, 93]) ∧
      collectParts ⟨200, [], [some [91], none]⟩ = .error bodyReadFailed := by
  constructor
  · apply (collectParts_keeps_body oversized
      [List.replicate maxBodyBytes 97, [116]]).right.left [none] rfl
    rw [List.flatten_cons, List.length_append, List.length_replicate]
    exact Nat.lt_succ_self _
  · constructor
    · exact (collectParts_keeps_body ⟨200, [], [some [91], some [], some [93]]⟩
        [[91], [], [93]]).left rfl (by decide)
    · exact ((collectParts_keeps_body ⟨200, [], [some [91], none]⟩
        [[91]]).right.right [] rfl (by decide)).left

end ResponseCache

end HifiApi
