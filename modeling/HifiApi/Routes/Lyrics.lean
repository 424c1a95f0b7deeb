import HifiApi.Base.Text
import Mathlib.Data.List.Forall2
import Mathlib.Data.List.ReduceOption

/-!
# Plain lyrics

The plain text that is made of timed lyrics when there is no other.  Time tags
are taken off a line one by one; the loop gives the whole line up as soon as it
meets another tag, also behind a time tag, where the brackets belong to the text.
-/

namespace HifiApi

namespace Lyrics

open AccountState Text

/-- A tag in front, without its brackets, and what follows it. -/
def splitTag : List Char -> Option (List Char × List Char)
  | '[' :: rest => splitOnce ']' rest
  | _ => none

def startsWithDigit : List Char -> Bool
  | c :: _ => c.isDigit
  | [] => false

theorem length_lt_of_splitTag {line tag after : List Char}
    (h : splitTag line = some (tag, after)) :
    (trimStart after).length < line.length := by
  unfold splitTag at h
  split at h
  · have hlt := length_lt_of_splitOnce h
    have hle := length_trimStart_le after
    rw [List.length_cons]
    omega
  · cases h

/-- The loop of {lit}`lrc_to_text` over the tags of a line. -/
def dropTags (line : List Char) : Option (List Char) :=
  match _h : splitTag line with
  | none => some line
  | some (tag, after) =>
      if startsWithDigit tag then dropTags (trimStart after) else none
termination_by line.length
decreasing_by exact length_lt_of_splitTag _h

/-- {lit}`lrc_to_text` -/
def lrcToText (lrc : List Char) : List Char :=
  trim (['\n'].intercalate ((lines lrc).filterMap fun line => dropTags (trim line)))

/-- The closure {lit}`non_empty`: an attribute that is a text, without the blanks
around it. -/
def nonEmpty (attributes : Value) (key : String) : Option (List Char) :=
  ((attributes.index key).asStr.map fun s => trim s.toList).filter (· ≠ [])

/-- {lit}`lyrics_from_openapi`: the entry of lyrics, or else the first one. -/
def lyricsFromOpenapi (trackId : Int) (body : Value) : Option Value := do
  let included ← (body.index "included").asArray
  let item ← (included.find? fun item => (item.index "type").asStr = some "lyrics").or
    included.head?
  let attributes := item.index "attributes"
  let lrc := nonEmpty attributes "lrcText"
  let text ← ((nonEmpty attributes "text").or (lrc.map lrcToText)).filter (· ≠ [])
  let rightToLeft :=
    decide ((attributes.index "direction").asStr = some "RIGHT_TO_LEFT")
  return .object
    [("trackId", .number trackId), ("lyrics", .string (String.ofList text)),
      ("subtitles", Value.ofOption (lrc.map String.ofList)),
      ("isRightToLeft", .bool rightToLeft), ("source", .string "openapi_v2")]

/-- Lyrics that are returned have a text. -/
theorem lyrics_of_lyricsFromOpenapi {trackId : Int} {body v : Value}
    (h : lyricsFromOpenapi trackId body = some v) :
    exists text, text ≠ [] ∧ v.get "lyrics" = some (.string (String.ofList text)) := by
  unfold lyricsFromOpenapi at h
  rcases Option.bind_eq_some_iff.mp h with ⟨included, _, hitems⟩
  rcases Option.bind_eq_some_iff.mp hitems with ⟨item, _, htexts⟩
  rcases Option.bind_eq_some_iff.mp htexts with ⟨text, htext, hv⟩
  have hne := (Option.filter_eq_some_iff.mp htext).right
  cases hv
  exact ⟨text, of_decide_eq_true hne, rfl⟩

/-!
## What a line contributes
-/

/-- A closed pair of brackets. -/
def Tag (tag : List Char) (body : List Char) : Prop :=
  tag = '[' :: body ++ [']'] ∧ ']' ∉ body

def TimeTag (tag : List Char) : Prop :=
  exists body, Tag tag body ∧ startsWithDigit body = true

/-- A tag that is not one of time, as {lit}`[ar:…]`. -/
def OtherTag (tag : List Char) : Prop :=
  exists body, Tag tag body ∧ startsWithDigit body = false

def Tagged (line : List Char) : Prop :=
  exists tag body after, Tag tag body ∧ line = tag ++ after

def Timed (line : List Char) : Prop :=
  exists tag after, TimeTag tag ∧ line = tag ++ after

/-- What follows the leading time tags of a line and the blanks after each. -/
inductive AfterTimeTags : List Char -> List Char -> Prop where
  | text {line : List Char} (h : ¬ Timed line) : AfterTimeTags line line
  | tag {tag after rest : List Char} (ht : TimeTag tag)
      (h : AfterTimeTags (trimStart after) rest) : AfterTimeTags (tag ++ after) rest

/-- What a line without the blanks around it is to contribute. -/
structure Contributes (line : List Char) (out : Option (List Char)) : Prop where
  timed : Timed line -> exists rest, AfterTimeTags line rest ∧ out = some rest
  untagged : ¬ Tagged line -> out = some line
  other : OtherTag line -> out = none

/-- Every line contributes what it is to, in the order of the lines. -/
def KeepsSungLines (lrc : List Char) : Prop :=
  exists outs, List.Forall₂ (fun line out => Contributes (trim line) out) (lines lrc) outs ∧
    lrcToText lrc = trim (['\n'].intercalate outs.reduceOption)

/-- The text behind the time tags of a line starts with a tag. -/
def TagsBehindTime (line : List Char) : Prop :=
  Timed line ∧ exists rest, AfterTimeTags line rest ∧ Tagged rest

/-!
## Tags
-/

theorem splitTag_eq_some {line body after : List Char} :
    splitTag line = some (body, after) <->
      Tag ('[' :: body ++ [']']) body ∧ line = '[' :: body ++ [']'] ++ after := by
  have hjoin : '[' :: body ++ [']'] ++ after = '[' :: (body ++ ']' :: after) := by
    simp
  rw [hjoin]
  constructor
  · intro h
    unfold splitTag at h
    split at h
    · rcases splitOnce_eq_some.mp h with ⟨hrest, hnot⟩
      exact ⟨⟨rfl, hnot⟩, by rw [hrest]⟩
    · cases h
  · rintro ⟨htag, hline⟩
    rw [hline]
    exact splitOnce_eq_some.mpr ⟨rfl, htag.right⟩

theorem tagged_iff {line : List Char} :
    Tagged line <-> exists body after, splitTag line = some (body, after) := by
  constructor
  · rintro ⟨tag, body, after, htag, hline⟩
    refine ⟨body, after, splitTag_eq_some.mpr ⟨⟨rfl, htag.right⟩, ?_⟩⟩
    rw [hline, htag.left]
  · rintro ⟨body, after, h⟩
    rcases splitTag_eq_some.mp h with ⟨htag, hline⟩
    exact ⟨_, body, after, htag, hline⟩

theorem timed_iff {line : List Char} :
    Timed line <-> exists body after, splitTag line = some (body, after) ∧
      startsWithDigit body = true := by
  constructor
  · rintro ⟨tag, after, ⟨body, htag, hdigit⟩, hline⟩
    refine ⟨body, after, splitTag_eq_some.mpr ⟨⟨rfl, htag.right⟩, ?_⟩, hdigit⟩
    rw [hline, htag.left]
  · rintro ⟨body, after, h, hdigit⟩
    rcases splitTag_eq_some.mp h with ⟨htag, hline⟩
    exact ⟨_, after, ⟨body, htag, hdigit⟩, hline⟩

theorem Timed.tagged {line : List Char} (h : Timed line) : Tagged line := by
  rcases timed_iff.mp h with ⟨body, after, hsplit, _⟩
  exact tagged_iff.mpr ⟨body, after, hsplit⟩

theorem dropTags_of_none {line : List Char} (h : splitTag line = none) :
    dropTags line = some line := by
  rw [dropTags]
  split
  · rfl
  · rename_i heq
    rw [h] at heq
    cases heq

theorem dropTags_of_some {line body after : List Char}
    (h : splitTag line = some (body, after)) :
    dropTags line =
      if startsWithDigit body then dropTags (trimStart after) else none := by
  rw [dropTags]
  split
  · rename_i heq
    rw [h] at heq
    cases heq
  · rename_i heq
    rw [h] at heq
    cases heq
    rfl

/-!
## One line
-/

theorem AfterTimeTags.cases_split {line rest : List Char} (h : AfterTimeTags line rest) :
    (¬ Timed line ∧ rest = line) ∨
      exists body after, splitTag line = some (body, after) ∧
        startsWithDigit body = true ∧ AfterTimeTags (trimStart after) rest := by
  cases h with
  | text hnot =>
      exact Or.inl ⟨hnot, rfl⟩
  | @tag tag after _ ht hafter =>
      rcases ht with ⟨body, htag, hdigit⟩
      refine Or.inr ⟨body, after, splitTag_eq_some.mpr ⟨⟨rfl, htag.right⟩, ?_⟩, hdigit, hafter⟩
      rw [htag.left]

/-- A line has one text behind its time tags. -/
theorem AfterTimeTags.unique {line rest rest' : List Char} (h : AfterTimeTags line rest)
    (h' : AfterTimeTags line rest') : rest = rest' := by
  induction h with
  | text hnot =>
      rcases h'.cases_split with hsame | hmore
      · exact hsame.right.symm
      · rcases hmore with ⟨body, after, hsplit, hdigit, _⟩
        exact absurd (timed_iff.mpr ⟨body, after, hsplit, hdigit⟩) hnot
  | @tag tag after _ ht _ ih =>
      rcases ht with ⟨body, htag, hdigit⟩
      have hsplit : splitTag (tag ++ after) = some (body, after) := by
        rw [splitTag_eq_some, htag.left]
        exact ⟨⟨rfl, htag.right⟩, rfl⟩
      rcases h'.cases_split with hsame | hmore
      · exact absurd (timed_iff.mpr ⟨body, after, hsplit, hdigit⟩) hsame.left
      · rcases hmore with ⟨body', after', hsplit', _, hafter'⟩
        rw [hsplit] at hsplit'
        cases hsplit'
        exact ih hafter'

/-- The loop ends at the text behind the time tags, and gives it up if that
starts with another tag. -/
theorem dropTags_spec (line : List Char) :
    exists rest, AfterTimeTags line rest ∧
      ((Tagged rest ∧ dropTags line = none) ∨
        (¬ Tagged rest ∧ dropTags line = some rest)) := by
  induction line using dropTags.induct with
  | case1 line hsplit =>
      have hnot : ¬ Tagged line := by
        rw [tagged_iff, hsplit]
        rintro ⟨_, _, h⟩
        cases h
      exact ⟨line, .text fun h => hnot h.tagged, Or.inr ⟨hnot, dropTags_of_none hsplit⟩⟩
  | case2 line body after hsplit hdigit ih =>
      rcases ih with ⟨rest, hafter, hout⟩
      rcases splitTag_eq_some.mp hsplit with ⟨htag, hline⟩
      rw [dropTags_of_some hsplit, if_pos hdigit]
      refine ⟨rest, ?_, hout⟩
      rw [hline]
      exact .tag ⟨body, htag, hdigit⟩ hafter
  | case3 line body after hsplit hdigit =>
      have hnot : ¬ Timed line := by
        rw [timed_iff, hsplit]
        rintro ⟨_, _, h, hdigit'⟩
        cases h
        exact hdigit hdigit'
      have hnone : dropTags line = none := by
        rw [dropTags_of_some hsplit, if_neg hdigit]
      exact ⟨line, .text hnot, Or.inl ⟨tagged_iff.mpr ⟨body, after, hsplit⟩, hnone⟩⟩

theorem contributes_dropTags {line : List Char} (h : ¬ TagsBehindTime line) :
    Contributes line (dropTags line) := by
  rcases dropTags_spec line with ⟨rest, hafter, hout⟩
  constructor
  · intro htimed
    rcases hout with hgone | hkept
    · exact absurd ⟨htimed, rest, hafter, hgone.left⟩ h
    · exact ⟨rest, hafter, hkept.right⟩
  · intro huntagged
    apply dropTags_of_none
    cases hsplit : splitTag line with
    | none =>
        rfl
    | some parts =>
        exact absurd (tagged_iff.mpr ⟨parts.1, parts.2, hsplit⟩) huntagged
  · rintro ⟨body, htag, hdigit⟩
    have hsplit : splitTag line = some (body, []) := by
      rw [splitTag_eq_some, htag.left, List.append_nil]
      exact ⟨⟨rfl, htag.right⟩, rfl⟩
    rw [dropTags_of_some hsplit, hdigit]
    rfl

/-- The characters of a contribution that are not blank. -/
def outInk (out : Option (List Char)) : Nat := (out.map ink).getD 0

theorem outInk_dropTags_le {line : List Char} {out : Option (List Char)}
    (h : Contributes line out) : outInk (dropTags line) ≤ outInk out := by
  rcases dropTags_spec line with ⟨rest, hafter, hgone | hkept⟩
  · rw [hgone.right]
    exact Nat.zero_le _
  · rw [hkept.right]
    by_cases htimed : Timed line
    · rcases h.timed htimed with ⟨rest', hafter', hout⟩
      rw [hout, hafter.unique hafter']
    · have hline := hafter.unique (.text htimed)
      rw [hline] at hkept ⊢
      rw [h.untagged hkept.left]

theorem tagsBehindTime_iff {line : List Char} :
    TagsBehindTime line <-> Timed line ∧ dropTags line = none := by
  rcases dropTags_spec line with ⟨rest, hafter, hout⟩
  constructor
  · rintro ⟨htimed, rest', hafter', htagged⟩
    rw [hafter'.unique hafter] at htagged
    rcases hout with hgone | hkept
    · exact ⟨htimed, hgone.right⟩
    · exact absurd htagged hkept.left
  · rintro ⟨htimed, hnone⟩
    rcases hout with hgone | hkept
    · exact ⟨htimed, rest, hafter, hgone.left⟩
    · rw [hnone] at hkept
      cases hkept.right

/-- A tag behind a time tag is lost, and its brackets are no blanks. -/
theorem outInk_dropTags_lt {line : List Char} {out : Option (List Char)}
    (hbad : TagsBehindTime line) (h : Contributes line out) :
    outInk (dropTags line) < outInk out := by
  rcases h.timed hbad.left with ⟨rest, hafter, hout⟩
  rcases hbad with ⟨htimed, rest', hafter', htagged⟩
  have hnone := (tagsBehindTime_iff.mp ⟨htimed, rest', hafter', htagged⟩).right
  rw [hnone, hout, hafter.unique hafter']
  rcases htagged with ⟨tag, body, after, htag, hrest⟩
  show 0 < ink rest'
  rw [hrest, htag.left]
  exact List.countP_pos_iff.mpr ⟨'[', List.mem_cons_self, by decide⟩

/-!
## All lines
-/

theorem ink_reduceOption (outs : List (Option (List Char))) :
    ink (['\n'].intercalate outs.reduceOption) = (outs.map outInk).sum := by
  rw [ink_intercalate]
  induction outs with
  | nil =>
      rfl
  | cons out rest ih =>
      rw [List.map_cons, List.sum_cons, ← ih]
      cases out with
      | none =>
          rw [List.reduceOption_cons_of_none]
          exact (Nat.zero_add _).symm
      | some text =>
          rw [List.reduceOption_cons_of_some, List.map_cons, List.sum_cons]
          rfl

/-- The lines contribute at least what the loops keep of them, and more where a
tag stands behind a time tag. -/
theorem sum_outInk_le {texts : List (List Char)} {outs : List (Option (List Char))}
    (h : List.Forall₂ (fun line out => Contributes (trim line) out) texts outs) :
    ((texts.map fun line => outInk (dropTags (trim line))).sum ≤ (outs.map outInk).sum) ∧
      ((exists line, line ∈ texts ∧ TagsBehindTime (trim line)) ->
        (texts.map fun line => outInk (dropTags (trim line))).sum <
          (outs.map outInk).sum) := by
  induction h with
  | nil =>
      exact ⟨le_refl _, fun ⟨_, hmem, _⟩ => absurd hmem List.not_mem_nil⟩
  | @cons line out texts outs hline _ ih =>
      have hle := outInk_dropTags_le hline
      simp only [List.map_cons, List.sum_cons]
      refine ⟨Nat.add_le_add hle ih.left, ?_⟩
      rintro ⟨bad, hmem, hbad⟩
      rcases List.mem_cons.mp hmem with hhere | hlater
      · rw [hhere] at hbad
        have hlt := outInk_dropTags_lt hbad hline
        have hrest := ih.left
        omega
      · have hlt := ih.right ⟨bad, hlater, hbad⟩
        omega

theorem lrcToText_eq (lrc : List Char) :
    lrcToText lrc = trim (['\n'].intercalate
      ((lines lrc).map fun line => dropTags (trim line)).reduceOption) := by
  rw [lrcToText, List.reduceOption, List.filterMap_map]
  rfl

theorem not_keepsSungLines {lrc line : List Char} (hmem : line ∈ lines lrc)
    (hbad : TagsBehindTime (trim line)) : ¬ KeepsSungLines lrc := by
  rintro ⟨outs, hlines, htext⟩
  have hlt := (sum_outInk_le hlines).right ⟨line, hmem, hbad⟩
  have hink := congrArg ink htext
  rw [lrcToText_eq, ink_trim, ink_trim, ink_reduceOption, ink_reduceOption,
    List.map_map] at hink
  exact absurd hink (Nat.ne_of_lt hlt)

/-- Lyrics keep every sung line exactly if in no line the text behind the time
tags starts with a tag. -/
theorem keepsSungLines_iff (lrc : List Char) :
    KeepsSungLines lrc <->
      forall line, line ∈ lines lrc -> ¬ TagsBehindTime (trim line) := by
  constructor
  · intro hkeeps line hmem hbad
    exact not_keepsSungLines hmem hbad hkeeps
  · intro hgood
    refine ⟨(lines lrc).map fun line => dropTags (trim line), ?_, lrcToText_eq lrc⟩
    rw [List.forall₂_map_right_iff, List.forall₂_same]
    intro line hmem
    exact contributes_dropTags (hgood line hmem)

/-- A line of the chorus goes missing. -/
theorem not_keepsSungLines_chorus :
    ¬ KeepsSungLines "[00:01.00]Hello\n[00:02.50][Chorus] World".toList := by
  have hbad : TagsBehindTime (trim "[00:02.50][Chorus] World".toList) := by
    have htime : splitTag (trim "[00:02.50][Chorus] World".toList) =
        some ("00:02.50".toList, "[Chorus] World".toList) := by decide
    have hchorus : splitTag (trimStart "[Chorus] World".toList) =
        some ("Chorus".toList, " World".toList) := by decide
    rw [tagsBehindTime_iff, timed_iff, dropTags_of_some htime, if_pos (by decide),
      dropTags_of_some hchorus, if_neg (by decide)]
    exact ⟨⟨_, _, htime, by decide⟩, rfl⟩
  exact not_keepsSungLines (by decide) hbad

end Lyrics

end HifiApi
