import HifiApi.Lib.Separated
import Mathlib.Data.List.TakeWhile

/-!
# Paths of URLs

A URL with an authority is read as its site, its path and the query and fragment
behind them.  The dot segments of a path are removed as RFC 3986 has it, which is a
loop over the characters of an input and an output buffer.  On the segments of a
path the loop is a stack: a segment that is not a dot segment is kept, a single dot
is left out, and two dots take the segment in front of them away.
-/

namespace HifiApi

namespace UrlPath

/-- A URL with an authority; the site is everything in front of the path. -/
structure Url where
  site : List Char
  path : List Char
  tail : List Char
  deriving DecidableEq

/-- The characters that end an authority. -/
def endsAuthority (c : Char) : Bool := c == '/' || c == '?' || c == '#'

/-- The characters that end a path. -/
def endsPath (c : Char) : Bool := c == '?' || c == '#'

/-- The colon and the two slashes are those behind the scheme. -/
def Url.parse (text : List Char) : Url :=
  let scheme := text.takeWhile (· != ':')
  let hierarchy := (text.dropWhile (· != ':')).drop 3
  let behind := hierarchy.dropWhile fun c => !endsAuthority c
  { site := scheme ++ [':', '/', '/'] ++ hierarchy.takeWhile fun c => !endsAuthority c
    path := behind.takeWhile fun c => !endsPath c
    tail := behind.dropWhile fun c => !endsPath c }

/-!
## Removing dot segments
-/

/-- An output buffer without its last segment and the slash in front of that. -/
def dropSegment (out : List Char) : List Char :=
  (out.reverse.dropWhile (· != '/')).tail.reverse

/-- The loop of RFC 3986, section 5.2.4, for a number of rounds. -/
def removeDots : Nat -> List Char -> List Char -> List Char
  | 0, _, out => out
  | rounds + 1, input, out =>
      if input = [] then out
      else if ['.', '.', '/'].isPrefixOf input then removeDots rounds (input.drop 3) out
      else if ['.', '/'].isPrefixOf input then removeDots rounds (input.drop 2) out
      else if ['/', '.', '/'].isPrefixOf input then removeDots rounds (input.drop 2) out
      else if input = ['/', '.'] then removeDots rounds ['/'] out
      else if ['/', '.', '.', '/'].isPrefixOf input then
        removeDots rounds (input.drop 3) (dropSegment out)
      else if input = ['/', '.', '.'] then removeDots rounds ['/'] (dropSegment out)
      else if input = ['.'] ∨ input = ['.', '.'] then removeDots rounds [] out
      else
        removeDots rounds ((input.drop 1).dropWhile (· != '/'))
          (out ++ (input.take 1 ++ (input.drop 1).takeWhile (· != '/')))

/-- Every round takes a character off the input at least. -/
def removeDotSegments (path : List Char) : List Char := removeDots path.length path []

example : removeDotSegments "/a/b/c/./../../g".toList = "/a/g".toList := by decide

/-!
## Segments
-/

/-- The segments of a path that is empty or begins with a slash. -/
def segments (path : List Char) : List (List Char) := (path.splitOn '/').tail

def join (segs : List (List Char)) : List Char := segs.flatMap fun s => '/' :: s

/-- No segment holds a slash. -/
def Free (segs : List (List Char)) : Prop := forall s, s ∈ segs -> '/' ∉ s

def IsDot (s : List Char) : Prop := s = ['.'] ∨ s = ['.', '.']

instance (s : List Char) : Decidable (IsDot s) := inferInstanceAs (Decidable (_ ∨ _))

def push (out : List (List Char)) (s : List Char) : List (List Char) :=
  if s = ['.'] then out
  else if s = ['.', '.'] then out.dropLast
  else out ++ [s]

/-- What is left of segments that more of them follow. -/
def stack (out segs : List (List Char)) : List (List Char) := segs.foldl push out

def EndsInDot (segs : List (List Char)) : Prop :=
  segs.getLast? = some ['.'] ∨ segs.getLast? = some ['.', '.']

instance (segs : List (List Char)) : Decidable (EndsInDot segs) :=
  inferInstanceAs (Decidable (_ ∨ _))

/-- What is left at the end of a path, where a dot segment leaves a slash. -/
def resolve (out segs : List (List Char)) : List (List Char) :=
  stack out segs ++ if EndsInDot segs then [[]] else []

/-- The path of a base in front of a slash, without that slash. -/
def mount (base : List Char) : List Char := (removeDotSegments (base ++ ['/'])).dropLast

/-- The segments that a path has behind the path of a base. -/
def below (base path : List Char) : Option (List (List Char)) :=
  let rest := path.drop (mount base).length
  if (mount base).isPrefixOf path ∧ (rest = [] ∨ rest.head? = some '/') then
    some (segments rest)
  else none

theorem join_cons (s : List Char) (segs : List (List Char)) :
    join (s :: segs) = '/' :: (s ++ join segs) := by
  rw [join, List.flatMap_cons, List.cons_append]
  rfl

theorem join_append (first second : List (List Char)) :
    join (first ++ second) = join first ++ join second :=
  List.flatMap_append

theorem append_join_nil (path : List Char) : path ++ join [] = path := List.append_nil path

theorem free_nil : Free [] := fun _ h => absurd h List.not_mem_nil

theorem free_append {first second : List (List Char)} :
    Free (first ++ second) <-> Free first ∧ Free second :=
  List.forall_mem_append

theorem free_cons {s : List Char} {segs : List (List Char)} :
    Free (s :: segs) <-> '/' ∉ s ∧ Free segs :=
  List.forall_mem_cons

theorem join_eq_intercalate (segs : List (List Char)) :
    join segs = List.intercalate ['/'] ([] :: segs) := by
  induction segs with
  | nil => rfl
  | cons s rest ih =>
      rw [join_cons, ih, List.intercalate_cons_cons, List.nil_append, List.singleton_append]
      cases rest with
      | nil => simp
      | cons next rest =>
          rw [List.intercalate_cons_cons, List.intercalate_cons_cons, List.nil_append,
            List.append_assoc]

/-- The segments that were joined are read again. -/
theorem segments_join {segs : List (List Char)} (h : Free segs) :
    segments (join segs) = segs := by
  have hfree : forall s, s ∈ [] :: segs -> '/' ∉ s :=
    free_cons.mpr ⟨List.not_mem_nil, h⟩
  rw [segments, join_eq_intercalate,
    List.splitOn_intercalate '/' hfree (List.cons_ne_nil _ _), List.tail_cons]

theorem free_splitOn (path : List Char) : Free (path.splitOn '/') := by
  induction path with
  | nil =>
      rw [List.splitOn_nil]
      exact free_cons.mpr ⟨List.not_mem_nil, free_nil⟩
  | cons c rest ih =>
      rw [List.splitOn_cons_eq_if_modifyHead]
      split
      · exact free_cons.mpr ⟨List.not_mem_nil, ih⟩
      · rename_i hc
        cases hparts : rest.splitOn '/' with
        | nil => exact absurd hparts (List.splitOn_ne_nil _ _)
        | cons part parts =>
            rw [hparts] at ih
            rcases free_cons.mp ih with ⟨hpart, hparts⟩
            refine free_cons.mpr ⟨?_, hparts⟩
            rw [List.mem_cons, not_or]
            exact ⟨fun heq => hc (beq_iff_eq.mpr heq.symm), hpart⟩

theorem free_segments (path : List Char) : Free (segments path) :=
  fun s h => free_splitOn path s (List.mem_of_mem_tail h)

/-- A path that is empty or begins with a slash is made of its segments. -/
theorem join_segments {path : List Char} (h : path = [] ∨ path.head? = some '/') :
    join (segments path) = path := by
  rcases h with hnil | hslash
  · rw [hnil]
    rfl
  · cases path with
    | nil => cases hslash
    | cons c rest =>
        cases hslash
        have hsplit : ('/' :: rest).splitOn '/' = [] :: rest.splitOn '/' := by
          rw [List.splitOn_cons_eq_if_modifyHead, if_pos (beq_self_eq_true _)]
        have hread : List.intercalate ['/'] (('/' :: rest).splitOn '/') = '/' :: rest :=
          List.intercalate_splitOn '/'
        rw [segments, join_eq_intercalate, hsplit, List.tail_cons, ← hsplit, hread]

/-!
## Segments on a stack
-/

section Stack

variable {out segs rest : List (List Char)} {s : List Char}

theorem free_dropLast (h : Free out) : Free out.dropLast :=
  fun s hs => h s (List.dropLast_subset _ hs)

theorem push_of_not_isDot (h : ¬ IsDot s) : push out s = out ++ [s] := by
  rw [push, if_neg fun heq => h (Or.inl heq), if_neg fun heq => h (Or.inr heq)]

theorem length_push_of_isDot (h : IsDot s) : (push out s).length ≤ out.length := by
  unfold push
  rcases h with hone | htwo
  · rw [if_pos hone]
  · rw [htwo, if_neg (by decide), if_pos rfl, List.length_dropLast]
    omega

theorem free_stack (hout : Free out) (h : Free segs) : Free (stack out segs) := by
  induction segs generalizing out with
  | nil => exact hout
  | cons s rest ih =>
      rcases free_cons.mp h with ⟨hs, hrest⟩
      refine ih ?_ hrest
      unfold push
      split
      · exact hout
      · split
        · exact free_dropLast hout
        · exact free_append.mpr ⟨hout, free_cons.mpr ⟨hs, free_nil⟩⟩

theorem length_stack_le (out segs : List (List Char)) :
    (stack out segs).length ≤ out.length + segs.length := by
  induction segs generalizing out with
  | nil => exact Nat.le_refl _
  | cons s rest ih =>
      have hrest := ih (push out s)
      rw [List.length_cons]
      show (stack (push out s) rest).length ≤ _
      by_cases hdot : IsDot s
      · have hpush : (push out s).length ≤ out.length := length_push_of_isDot hdot
        omega
      · rw [push_of_not_isDot hdot, List.length_append, List.length_singleton] at hrest
        rw [push_of_not_isDot hdot]
        omega

/-- Segments that are no dot segments are kept. -/
theorem stack_of_plain (h : forall s, s ∈ segs -> ¬ IsDot s) :
    stack out segs = out ++ segs := by
  induction segs generalizing out with
  | nil => exact (List.append_nil out).symm
  | cons s rest ih =>
      have hrest : stack (push out s) rest = push out s ++ rest :=
        ih fun s' hs' => h s' (List.mem_cons_of_mem _ hs')
      rw [push_of_not_isDot (h s List.mem_cons_self), List.append_assoc,
        List.singleton_append] at hrest
      rw [← hrest, stack, List.foldl_cons, push_of_not_isDot (h s List.mem_cons_self), stack]

/-- Every dot segment is missing. -/
theorem length_stack_lt (h : exists s, s ∈ segs ∧ IsDot s) :
    (stack out segs).length < out.length + segs.length := by
  induction segs generalizing out with
  | nil =>
      rcases h with ⟨s, hs, _⟩
      cases hs
  | cons s rest ih =>
      rw [List.length_cons]
      show (stack (push out s) rest).length < _
      by_cases hdot : IsDot s
      · have hle := length_stack_le (push out s) rest
        have hpush : (push out s).length ≤ out.length := length_push_of_isDot hdot
        omega
      · have hrest : exists s', s' ∈ rest ∧ IsDot s' := by
          rcases h with ⟨s', hs', hdot'⟩
          rcases List.mem_cons.mp hs' with heq | hin
          · exact absurd (heq ▸ hdot') hdot
          · exact ⟨s', hin, hdot'⟩
        have hlt : (stack (push out s) rest).length < (push out s).length + rest.length :=
          ih hrest
        rw [push_of_not_isDot hdot, List.length_append, List.length_singleton] at hlt
        rw [push_of_not_isDot hdot]
        omega

theorem exists_isDot_of_endsInDot (h : EndsInDot segs) :
    exists s, s ∈ segs ∧ IsDot s ∧ segs.getLast? = some s := by
  rcases h with hone | htwo
  · exact ⟨_, List.mem_of_getLast? hone, Or.inl rfl, hone⟩
  · exact ⟨_, List.mem_of_getLast? htwo, Or.inr rfl, htwo⟩

theorem resolve_nil (out : List (List Char)) : resolve out [] = out := by
  rw [resolve, if_neg (by decide), List.append_nil]
  rfl

theorem resolve_cons (h : ¬ (IsDot s ∧ rest = [])) :
    resolve out (s :: rest) = resolve (push out s) rest := by
  have hends : EndsInDot (s :: rest) <-> EndsInDot rest := by
    unfold EndsInDot
    cases rest with
    | nil =>
        have hdot : ¬ IsDot s := fun hdot => h ⟨hdot, rfl⟩
        rw [List.getLast?_singleton, Option.some.injEq, Option.some.injEq]
        exact iff_of_false hdot (by decide)
    | cons next more => rw [List.getLast?_cons_cons]
  rw [resolve, resolve]
  simp only [hends, stack, List.foldl_cons]

/-- In front of more segments the end of the path does not matter. -/
theorem resolve_append (hrest : rest ≠ []) :
    resolve out (segs ++ rest) = resolve (stack out segs) rest := by
  have hends : EndsInDot (segs ++ rest) <-> EndsInDot rest := by
    unfold EndsInDot
    rw [List.getLast?_append_of_ne_nil _ hrest]
  rw [resolve, resolve, stack, List.foldl_append]
  simp only [hends, stack]

theorem resolve_of_plain (h : forall s, s ∈ segs -> ¬ IsDot s) :
    resolve out segs = out ++ segs := by
  have hends : ¬ EndsInDot segs := by
    intro hends
    rcases exists_isDot_of_endsInDot hends with ⟨s, hs, hdot, _⟩
    exact h s hs hdot
  rw [resolve, if_neg hends, List.append_nil, stack_of_plain h]

end Stack

/-!
## The loop
-/

section Loop

variable {out segs rest : List (List Char)} {s : List Char}

/-- A path begins with no other segment than its first one. -/
theorem segment_eq {t : List Char} (hs : '/' ∉ s) (ht : '/' ∉ t)
    (h : s ++ join rest = t ∨ exists after, s ++ join rest = t ++ '/' :: after) : s = t := by
  cases rest with
  | nil =>
      rw [join, List.flatMap_nil, List.append_nil] at h
      rcases h with heq | ⟨after, heq⟩
      · exact heq
      · rw [heq, List.mem_append, not_or] at hs
        exact absurd List.mem_cons_self hs.right
  | cons next more =>
      rw [join_cons] at h
      rcases h with heq | ⟨after, heq⟩
      · rw [← heq, List.mem_append, not_or] at ht
        exact absurd List.mem_cons_self ht.right
      · exact (Separated.append_cons_inj hs ht heq).left

theorem takeWhile_segment (hs : '/' ∉ s) :
    (s ++ join rest).takeWhile (· != '/') = s ∧
      (s ++ join rest).dropWhile (· != '/') = join rest := by
  have hkept : forall c, c ∈ s -> (c != '/') = true := by
    intro c hc
    exact bne_iff_ne.mpr fun heq => hs (heq ▸ hc)
  rw [List.takeWhile_append_of_pos hkept, List.dropWhile_append_of_pos hkept]
  cases rest with
  | nil => exact ⟨List.append_nil s, rfl⟩
  | cons next more =>
      rw [join_cons]
      exact ⟨List.append_nil s, rfl⟩

/-- A segment that is no dot segment goes to the output. -/
theorem removeDots_plain {rounds : Nat} {buffer : List Char} (hs : '/' ∉ s)
    (hdot : ¬ IsDot s) :
    removeDots (rounds + 1) (join (s :: rest)) buffer =
      removeDots rounds (join rest) (buffer ++ '/' :: s) := by
  have hother : forall t, '/' ∉ t -> IsDot t ->
      ('/' :: (t ++ ['/'])).isPrefixOf (join (s :: rest)) = false ∧
        join (s :: rest) ≠ '/' :: t := by
    intro t ht htdot
    have hne : s ≠ t := fun heq => hdot (heq ▸ htdot)
    rw [join_cons]
    constructor
    · rw [Bool.eq_false_iff]
      intro hprefix
      rcases List.isPrefixOf_iff_prefix.mp hprefix with ⟨after, hafter⟩
      rw [List.cons_append, List.append_assoc, List.singleton_append] at hafter
      exact hne (segment_eq hs ht (Or.inr ⟨after, (List.cons.inj hafter).right.symm⟩))
    · intro heq
      exact hne (segment_eq hs ht (Or.inl (List.cons.inj heq).right))
  have hone := hother ['.'] (by decide) (Or.inl rfl)
  have htwo := hother ['.', '.'] (by decide) (Or.inr rfl)
  have hsegment : (s ++ join rest).takeWhile (· != '/') = s ∧
      (s ++ join rest).dropWhile (· != '/') = join rest :=
    takeWhile_segment hs
  simp only [List.cons_append, List.nil_append] at hone htwo
  rw [removeDots, hone.left, htwo.left, if_neg hone.right, if_neg htwo.right, join_cons]
  simp [hsegment]

theorem dropSegment_join (h : Free out) : dropSegment (join out) = join out.dropLast := by
  rcases List.eq_nil_or_concat out with hnil | ⟨before, last, hlast⟩
  · rw [hnil]
    rfl
  · rw [hlast] at h ⊢
    rw [List.concat_eq_append] at h ⊢
    have hkept : forall c, c ∈ last.reverse -> (c != '/') = true := by
      intro c hc
      have hfree := (free_append.mp h).right last (List.mem_singleton_self last)
      exact bne_iff_ne.mpr fun heq => hfree (heq ▸ List.mem_reverse.mp hc)
    rw [List.dropLast_concat, join_append, dropSegment, join_cons, List.reverse_append,
      List.reverse_cons, join, List.flatMap_nil, List.append_nil, List.append_assoc,
      List.dropWhile_append_of_pos hkept]
    simp [join]

/-- A single dot is taken off the input, with a slash left at the end of a path. -/
theorem removeDots_single (rounds : Nat) (buffer : List Char) :
    removeDots (rounds + 1) (join [['.']]) buffer = removeDots rounds (join [[]]) buffer ∧
      forall next more, removeDots (rounds + 1) (join (['.'] :: next :: more)) buffer =
        removeDots rounds (join (next :: more)) buffer := by
  constructor
  · simp [removeDots, join]
  · intro next more
    simp [removeDots, join_cons]

/-- Two dots take a segment off the output too. -/
theorem removeDots_double (rounds : Nat) (buffer : List Char) :
    removeDots (rounds + 1) (join [['.', '.']]) buffer =
        removeDots rounds (join [[]]) (dropSegment buffer) ∧
      forall next more, removeDots (rounds + 1) (join (['.', '.'] :: next :: more)) buffer =
        removeDots rounds (join (next :: more)) (dropSegment buffer) := by
  constructor
  · simp [removeDots, join]
  · intro next more
    simp [removeDots, join_cons]

/-- The slash that a dot segment at the end leaves. -/
theorem removeDots_slash {rounds : Nat} (hrounds : 0 < rounds) :
    removeDots rounds (join [[]]) (join out) = join (out ++ [[]]) := by
  cases rounds with
  | zero => cases hrounds
  | succ rounds =>
      rw [removeDots_plain List.not_mem_nil (by decide), join_append]
      cases rounds with
      | zero => rfl
      | succ rounds => rfl

/-- On a path the loop is the stack. -/
theorem removeDots_join {rounds : Nat} (hsegs : Free segs) (hout : Free out)
    (hrounds : (join segs).length ≤ rounds) :
    removeDots rounds (join segs) (join out) = join (resolve out segs) := by
  induction segs generalizing rounds out with
  | nil =>
      rw [resolve_nil]
      cases rounds with
      | zero => rfl
      | succ rounds => rfl
  | cons s rest ih =>
      rcases free_cons.mp hsegs with ⟨hs, hrest⟩
      rw [join_cons, List.length_cons, List.length_append] at hrounds
      cases rounds with
      | zero => omega
      | succ rounds =>
          by_cases hdot : IsDot s
          · cases rest with
            | nil =>
                rcases hdot with hone | htwo
                · rw [hone, List.length_singleton] at hrounds
                  rw [hone, (removeDots_single _ _).left]
                  exact removeDots_slash (by omega)
                · rw [htwo, List.length_cons] at hrounds
                  rw [htwo, (removeDots_double _ _).left, dropSegment_join hout]
                  exact removeDots_slash (by omega)
            | cons next more =>
                have hmore : ¬ (IsDot s ∧ next :: more = []) := by simp
                rw [resolve_cons hmore]
                rcases hdot with hone | htwo
                · rw [hone, (removeDots_single _ _).right]
                  exact ih hrest hout (by omega)
                · rw [htwo, (removeDots_double _ _).right, dropSegment_join hout]
                  exact ih hrest (free_dropLast hout) (by omega)
          · have hplain : '/' :: s = join [s] := by
              rw [join_cons, join, List.flatMap_nil, List.append_nil]
            have hnext : Free (out ++ [s]) :=
              free_append.mpr ⟨hout, free_cons.mpr ⟨hs, free_nil⟩⟩
            rw [removeDots_plain hs hdot, hplain, ← join_append, ih hrest hnext (by omega),
              resolve_cons fun h => hdot h.left, push_of_not_isDot hdot]

theorem removeDotSegments_join (h : Free segs) :
    removeDotSegments (join segs) = join (resolve [] segs) :=
  removeDots_join h free_nil (Nat.le_refl _)

end Loop

/-!
## Behind a base
-/

section Base

variable {b out segs found : List (List Char)}

theorem mount_join (h : Free b) : mount (join b) = join (stack [] b) := by
  have hslash : ['/'] = join [[]] := rfl
  have hplain : forall s, s ∈ [([] : List Char)] -> ¬ IsDot s := by decide
  have hfree : Free (b ++ [[]]) :=
    free_append.mpr ⟨h, free_cons.mpr ⟨List.not_mem_nil, free_nil⟩⟩
  rw [mount, hslash, ← join_append, removeDotSegments_join hfree,
    resolve_append (List.cons_ne_nil _ _), resolve_of_plain hplain, join_append, ← hslash,
    List.dropLast_concat]

theorem head?_join (segs : List (List Char)) :
    join segs = [] ∨ (join segs).head? = some '/' := by
  cases segs with
  | nil => exact Or.inl rfl
  | cons s rest =>
      rw [join_cons]
      exact Or.inr rfl

/-- The segments behind a base are those behind what the base leaves. -/
theorem below_eq_some (hb : Free b) (hout : Free out) :
    below (join b) (join out) = some segs <-> Free segs ∧ out = stack [] b ++ segs := by
  unfold below
  dsimp only
  rw [mount_join hb]
  constructor
  · intro h
    split at h
    · rename_i hcond
      rcases List.isPrefixOf_iff_prefix.mp hcond.left with ⟨rest, hrest⟩
      have hrest' := hcond.right
      rw [← hrest, List.drop_left] at h hrest'
      cases h
      refine ⟨free_segments rest, ?_⟩
      have hstack := free_stack free_nil hb
      rw [← segments_join hout, ← hrest, ← join_segments hrest', ← join_append,
        segments_join (free_append.mpr ⟨hstack, free_segments rest⟩),
        join_segments hrest']
    · cases h
  · rintro ⟨hfree, rfl⟩
    rw [join_append, List.drop_left, if_pos, segments_join hfree]
    exact ⟨List.isPrefixOf_iff_prefix.mpr (List.prefix_append _ _), head?_join segs⟩

theorem free_resolve (hout : Free out) (h : Free segs) : Free (resolve out segs) := by
  refine free_append.mpr ⟨free_stack hout h, ?_⟩
  split
  · exact free_cons.mpr ⟨List.not_mem_nil, free_nil⟩
  · exact free_nil

theorem below_removeDotSegments (hb : Free b) (hsegs : Free segs) :
    below (join b) (removeDotSegments (join b ++ join segs)) = some found <->
      Free found ∧ resolve [] (b ++ segs) = stack [] b ++ found := by
  have hfree : Free (b ++ segs) := free_append.mpr ⟨hb, hsegs⟩
  rw [← join_append, removeDotSegments_join hfree]
  exact below_eq_some hb (free_resolve free_nil hfree)

/-- Segments that are no dot segments are found behind the base. -/
theorem below_of_plain (hb : Free b) (hsegs : Free segs) (hne : segs ≠ [])
    (h : forall s, s ∈ segs -> ¬ IsDot s) :
    below (join b) (removeDotSegments (join b ++ join segs)) = some segs := by
  refine (below_removeDotSegments hb hsegs).mpr ⟨hsegs, ?_⟩
  rw [resolve_append hne, resolve_of_plain h]

/-- Of segments with a dot segment fewer are found, or an empty one in the place of
the last, which has been a dot segment. -/
theorem below_of_isDot (hb : Free b) (hsegs : Free segs)
    (h : exists s, s ∈ segs ∧ IsDot s)
    (hfound : below (join b) (removeDotSegments (join b ++ join segs)) = some found) :
    found.length < segs.length ∨ EndsInDot segs ∧ found.getLast? = some [] := by
  have hne : segs ≠ [] := by
    rintro rfl
    rcases h with ⟨s, hs, _⟩
    cases hs
  have hresolve := ((below_removeDotSegments hb hsegs).mp hfound).right
  have hlt : (stack (stack [] b) segs).length < (stack [] b).length + segs.length :=
    length_stack_lt h
  rw [resolve_append hne, resolve] at hresolve
  have hlength := congrArg List.length hresolve
  rw [List.length_append, List.length_append] at hlength
  by_cases hends : EndsInDot segs
  · rw [if_pos hends, List.length_singleton] at hlength
    rw [if_pos hends] at hresolve
    by_cases hshort : found.length < segs.length
    · exact Or.inl hshort
    · right
      have hfound' : found ≠ [] := by
        rintro rfl
        exact hshort (List.length_pos_iff.mpr hne)
      have hlast := congrArg List.getLast? hresolve
      rw [List.getLast?_concat, List.getLast?_append_of_ne_nil _ hfound'] at hlast
      exact ⟨hends, hlast.symm⟩
  · rw [if_neg hends, List.length_nil] at hlength
    left
    omega

/-- Nothing is found behind a base alone, unless it ends in a dot segment. -/
theorem below_nil_iff (hb : Free b) :
    below (join b) (removeDotSegments (join b)) = some [] <-> ¬ EndsInDot b := by
  have hspec : below (join b) (removeDotSegments (join b ++ join [])) = some [] <->
      Free [] ∧ resolve [] (b ++ []) = stack [] b ++ [] :=
    below_removeDotSegments hb free_nil
  rw [append_join_nil] at hspec
  rw [hspec, List.append_nil, List.append_nil, resolve, List.append_right_eq_self]
  constructor
  · rintro ⟨_, hnone⟩ hends
    rw [if_pos hends] at hnone
    cases hnone
  · intro hends
    exact ⟨free_nil, if_neg hends⟩

end Base

/-!
## Texts behind a URL
-/

section Parse

theorem takeWhile_append_stop {α : Type} {p : α -> Bool} {l suffix : List α}
    (h : forall c, c ∈ suffix.head? -> p c = false) :
    (l ++ suffix).takeWhile p = l.takeWhile p ∧
      (l ++ suffix).dropWhile p = l.dropWhile p ++ suffix := by
  induction l with
  | nil =>
      cases suffix with
      | nil => exact ⟨rfl, rfl⟩
      | cons c rest =>
          have hc : ¬ p c = true := by
            rw [h c rfl]
            exact Bool.false_ne_true
          rw [List.nil_append, List.takeWhile_cons_of_neg hc, List.dropWhile_cons_of_neg hc]
          exact ⟨rfl, rfl⟩
  | cons c rest ih =>
      rw [List.cons_append]
      by_cases hc : p c = true
      · rw [List.takeWhile_cons_of_pos hc, List.dropWhile_cons_of_pos hc,
          List.takeWhile_cons_of_pos hc, List.dropWhile_cons_of_pos hc, ih.left, ih.right]
        exact ⟨rfl, rfl⟩
      · rw [List.takeWhile_cons_of_neg hc, List.dropWhile_cons_of_neg hc,
          List.takeWhile_cons_of_neg hc, List.dropWhile_cons_of_neg hc]
        exact ⟨rfl, rfl⟩

theorem takeWhile_append_go {α : Type} {p : α -> Bool} {l suffix : List α}
    (h : forall c, c ∈ suffix -> p c = true) :
    (l.dropWhile p = [] -> (l ++ suffix).takeWhile p = l.takeWhile p ++ suffix ∧
      (l ++ suffix).dropWhile p = []) ∧
    (l.dropWhile p ≠ [] -> (l ++ suffix).dropWhile p ≠ []) := by
  constructor
  · intro hnone
    rw [List.dropWhile_eq_nil_iff] at hnone
    have hall : forall c, c ∈ l ++ suffix -> p c = true := by
      intro c hc
      rcases List.mem_append.mp hc with hin | hin
      · exact hnone c hin
      · exact h c hin
    rw [List.takeWhile_eq_self_iff.mpr hall, List.dropWhile_eq_nil_iff.mpr hall,
      List.takeWhile_eq_self_iff.mpr hnone]
    exact ⟨rfl, rfl⟩
  · intro hsome hnone
    rw [List.dropWhile_eq_nil_iff] at hnone
    apply hsome
    rw [List.dropWhile_eq_nil_iff]
    intro c hc
    exact hnone c (List.mem_append_left _ hc)

/-- A path is empty or begins with a slash. -/
theorem head?_path (text : List Char) :
    (Url.parse text).path = [] ∨ (Url.parse text).path.head? = some '/' := by
  have hstop := List.head?_dropWhile_not (fun c => !endsAuthority c)
    ((text.dropWhile (· != ':')).drop 3)
  unfold Url.parse
  dsimp only
  cases hbehind : ((text.dropWhile (· != ':')).drop 3).dropWhile
      fun c => !endsAuthority c with
  | nil => exact Or.inl rfl
  | cons c rest =>
      rw [hbehind] at hstop
      have hends : endsAuthority c = true := by simpa using hstop
      simp only [endsAuthority, Bool.or_eq_true, beq_iff_eq] at hends
      rcases hends with (hslash | hquery) | hfragment
      · rw [hslash]
        exact Or.inr rfl
      · rw [hquery]
        exact Or.inl rfl
      · rw [hfragment]
        exact Or.inl rfl

theorem parse_eq {scheme : List Char} (h : ':' ∉ scheme) (rest : List Char) :
    let behind := rest.dropWhile fun c => !endsAuthority c
    Url.parse (scheme ++ ':' :: '/' :: '/' :: rest) =
      ⟨scheme ++ [':', '/', '/'] ++ rest.takeWhile fun c => !endsAuthority c,
        behind.takeWhile fun c => !endsPath c, behind.dropWhile fun c => !endsPath c⟩ := by
  have hkept : forall c, c ∈ scheme -> (c != ':') = true := by
    intro c hc
    exact bne_iff_ne.mpr fun heq => h (heq ▸ hc)
  unfold Url.parse
  rw [List.takeWhile_append_of_pos hkept, List.dropWhile_append_of_pos hkept,
    List.takeWhile_cons_of_neg (by decide), List.dropWhile_cons_of_neg (by decide),
    List.append_nil]
  rfl

/-- Without a question mark and a hash sign there is neither query nor fragment. -/
theorem tail_eq_nil_iff {scheme : List Char} (h : ':' ∉ scheme) (rest : List Char) :
    (Url.parse (scheme ++ ':' :: '/' :: '/' :: rest)).tail = [] <->
      forall c, c ∈ rest -> endsPath c = false := by
  rw [parse_eq h]
  dsimp only
  rw [List.dropWhile_eq_nil_iff]
  constructor
  · intro hnone c hc
    rw [← List.takeWhile_append_dropWhile (p := fun c => !endsAuthority c) (l := rest)] at hc
    rcases List.mem_append.mp hc with hauthority | hbehind
    · have hends := List.mem_takeWhile_imp hauthority
      simp only [endsAuthority, Bool.not_eq_true', Bool.or_eq_false_iff] at hends
      rw [endsPath, hends.left.right, hends.right]
      rfl
    · have hends := hnone c hbehind
      rwa [Bool.not_eq_true'] at hends
  · intro hnone c hc
    rw [hnone c ((List.dropWhile_sublist _).subset hc)]
    rfl

/-- A text that begins with a slash, and ends no path, is part of the path unless
there is a query or a fragment in front of it. -/
theorem parse_append {scheme suffix : List Char} (rest : List Char) (hscheme : ':' ∉ scheme)
    (hslash : suffix = [] ∨ suffix.head? = some '/')
    (hsuffix : forall c, c ∈ suffix -> endsPath c = false) :
    let base := scheme ++ ':' :: '/' :: '/' :: rest
    (Url.parse (base ++ suffix)).site = (Url.parse base).site ∧
      ((Url.parse base).tail = [] ->
        (Url.parse (base ++ suffix)).path = (Url.parse base).path ++ suffix ∧
          (Url.parse (base ++ suffix)).tail = []) ∧
      ((Url.parse base).tail ≠ [] -> (Url.parse (base ++ suffix)).tail ≠ []) := by
  have hauthority : forall c, c ∈ suffix.head? -> (!endsAuthority c) = false := by
    intro c hc
    rcases hslash with hnil | hhead
    · rw [hnil] at hc
      cases hc
    · rw [hhead] at hc
      cases hc
      rfl
  have hpath : forall c, c ∈ suffix -> (!endsPath c) = true := by
    intro c hc
    rw [hsuffix c hc]
    rfl
  have hstop := takeWhile_append_stop (l := rest) hauthority
  dsimp only
  rw [List.append_assoc, List.cons_append, List.cons_append, List.cons_append,
    parse_eq hscheme, parse_eq hscheme]
  dsimp only
  rw [hstop.left, hstop.right]
  have hrest := takeWhile_append_go (l := rest.dropWhile fun c => !endsAuthority c) hpath
  exact ⟨rfl, hrest⟩

end Parse

end UrlPath

end HifiApi
