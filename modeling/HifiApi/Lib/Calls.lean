import Mathlib.Tactic.Common

/-!
# Programs over outside calls

A program makes calls, goes on by their answers, and ends with a result.  A watch
writes down the calls and their answers, says which calls may be made, and which
answers can come.  A program that keeps to a watch does so in every run, however
far the run has come.
-/

namespace HifiApi

/-- Programs that make calls; the type of an answer depends on its call. -/
inductive Prog {Call : Type} (Answer : Call -> Type) (α : Type) where
  | done (result : α)
  | call (c : Call) (next : Answer c -> Prog Answer α)

/-- A call with its answer. -/
structure CallEvent {Call : Type} (Answer : Call -> Type) where
  call : Call
  answer : Answer call

namespace Prog

variable {Call : Type} {Answer : Call -> Type} {α β σ ρ : Type}

def bind : Prog Answer α -> (α -> Prog Answer β) -> Prog Answer β
  | done result, f => f result
  | call c next, f => call c fun answer => (next answer).bind f

instance : Monad (Prog Answer) where
  pure := done
  bind := bind

/-- A single call. -/
def ask (c : Call) : Prog Answer (Answer c) := call c done

/-- A bounded loop: each round goes on with a new state, or leaves the loop with a
result. -/
def times (body : Nat -> σ -> Prog Answer (σ ⊕ ρ)) : Nat -> Nat -> σ ->
    Prog Answer (σ ⊕ ρ)
  | 0, _, s => done (.inl s)
  | left + 1, i, s =>
      (body i s).bind fun out =>
        match out with
        | .inl s' => times body left (i + 1) s'
        | .inr result => done (.inr result)

/-- Every call of the program, whatever the answers, is one of these. -/
def Only (P : Call -> Prop) : Prog Answer α -> Prop
  | done _ => True
  | call c next => P c ∧ forall answer, Only P (next answer)

theorem only_bind {P : Call -> Prop} {p : Prog Answer α} {f : α -> Prog Answer β}
    (hp : p.Only P) (hf : forall result, (f result).Only P) : (p >>= f).Only P := by
  induction p with
  | done result =>
      exact hf result
  | call c next ih =>
      exact ⟨hp.left, fun answer => ih answer (hp.right answer)⟩

theorem only_ask {P : Call -> Prop} {c : Call} (h : P c) :
    (ask c : Prog Answer (Answer c)).Only P :=
  ⟨h, fun _ => trivial⟩

theorem Only.mono {P Q : Call -> Prop} (hle : forall c, P c -> Q c)
    {p : Prog Answer α} (h : p.Only P) : p.Only Q := by
  induction p with
  | done result =>
      trivial
  | call c next ih =>
      exact ⟨hle c h.left, fun answer => ih answer (h.right answer)⟩

theorem only_times {P : Call -> Prop} {body : Nat -> σ -> Prog Answer (σ ⊕ ρ)}
    (h : forall i s, (body i s).Only P) (left i : Nat) (s : σ) :
    (times body left i s).Only P := by
  induction left generalizing i s with
  | zero =>
      trivial
  | succ left ih =>
      apply only_bind (h i s)
      intro out
      cases out with
      | inl s' => exact ih (i + 1) s'
      | inr result => trivial

/-- What is left of a program after some answers. -/
inductive Runs : Prog Answer α -> List (CallEvent Answer) -> Prog Answer α -> Prop
  | here (p : Prog Answer α) : Runs p [] p
  | heard {c : Call} {next : Answer c -> Prog Answer α} {answer : Answer c}
      {trace : List (CallEvent Answer)} {p : Prog Answer α} :
      Runs (next answer) trace p -> Runs (call c next) (⟨c, answer⟩ :: trace) p

theorem Only.runs {P : Call -> Prop} {p q : Prog Answer α}
    {trace : List (CallEvent Answer)} (h : p.Only P) (hruns : p.Runs trace q) :
    forall e, e ∈ trace -> P e.call := by
  induction hruns with
  | here p =>
      exact fun _ he => nomatch he
  | heard _ ih =>
      rw [List.forall_mem_cons]
      exact ⟨h.left, ih (h.right _)⟩

theorem Runs.snoc {p q : Prog Answer α} {trace : List (CallEvent Answer)} {c : Call}
    {next : Answer c -> Prog Answer α} (h : Runs p trace q) (hq : q = call c next)
    (answer : Answer c) : Runs p (trace ++ [⟨c, answer⟩]) (next answer) := by
  induction h with
  | here p =>
      rw [hq]
      exact .heard (.here _)
  | heard _ ih =>
      exact .heard (ih hq)

end Prog

/-- What is written down, which calls may be made, and which answers can come. -/
structure Watch {Call : Type} (Answer : Call -> Type) (G : Type) where
  may : G -> Call -> Prop
  hears : G -> (c : Call) -> Answer c -> Prop
  note : G -> (c : Call) -> Answer c -> G

namespace Watch

variable {Call : Type} {Answer : Call -> Type} {G G' : Type} {α β σ ρ : Type}

/-- What is written down after a trace. -/
def journal (W : Watch Answer G) (g : G) (trace : List (CallEvent Answer)) : G :=
  trace.foldl (fun g e => W.note g e.call e.answer) g

/-- All the answers of a trace can come. -/
def Heard (W : Watch Answer G) : G -> List (CallEvent Answer) -> Prop
  | _, [] => True
  | g, e :: rest => W.hears g e.call e.answer ∧ Heard W (W.note g e.call e.answer) rest

/-- The program makes no call but those it may make, and it ends as is said. -/
def Keeps (W : Watch Answer G) : G -> Prog Answer α -> (G -> α -> Prop) -> Prop
  | g, .done result, post => post g result
  | g, .call c next, post =>
      W.may g c ∧ forall answer, W.hears g c answer ->
        Keeps W (W.note g c answer) (next answer) post

variable {W : Watch Answer G} {g : G}

/-!
## The rules of a program
-/

@[simp] theorem keeps_done {result : α} {post : G -> α -> Prop} :
    W.Keeps g (.done result) post <-> post g result := Iff.rfl

@[simp] theorem keeps_pure {result : α} {post : G -> α -> Prop} :
    W.Keeps g (pure result) post <-> post g result := Iff.rfl

@[simp] theorem keeps_call {c : Call} {next : Answer c -> Prog Answer α}
    {post : G -> α -> Prop} :
    W.Keeps g (.call c next) post <->
      W.may g c ∧ forall answer, W.hears g c answer ->
        W.Keeps (W.note g c answer) (next answer) post := Iff.rfl

@[simp] theorem keeps_ask {c : Call} {post : G -> Answer c -> Prop} :
    W.Keeps g (Prog.ask c) post <->
      W.may g c ∧ forall answer, W.hears g c answer ->
        post (W.note g c answer) answer := Iff.rfl

theorem keeps_bind {p : Prog Answer α} {f : α -> Prog Answer β}
    {post : G -> β -> Prop} :
    W.Keeps g (p.bind f) post <->
      W.Keeps g p fun g' result => W.Keeps g' (f result) post := by
  induction p generalizing g with
  | done result =>
      exact Iff.rfl
  | call c next ih =>
      constructor
      · intro h
        exact ⟨h.left, fun answer hanswer => ih answer |>.mp (h.right answer hanswer)⟩
      · intro h
        exact ⟨h.left, fun answer hanswer => ih answer |>.mpr (h.right answer hanswer)⟩

@[simp] theorem keeps_bind' {p : Prog Answer α} {f : α -> Prog Answer β}
    {post : G -> β -> Prop} :
    W.Keeps g (p >>= f) post <->
      W.Keeps g p fun g' result => W.Keeps g' (f result) post :=
  keeps_bind

theorem Keeps.mono {p : Prog Answer α} {post post' : G -> α -> Prop}
    (h : W.Keeps g p post) (hpost : forall g result, post g result -> post' g result) :
    W.Keeps g p post' := by
  induction p generalizing g with
  | done result =>
      exact hpost g result h
  | call c next ih =>
      exact ⟨h.left, fun answer hanswer => ih answer (h.right answer hanswer)⟩

/-- A loop keeps an invariant of its rounds. -/
theorem keeps_times {body : Nat -> σ -> Prog Answer (σ ⊕ ρ)}
    (inv : Nat -> G -> σ -> Prop) (post : G -> ρ -> Prop) (bound : Nat)
    (hround : forall i g s, i < bound -> inv i g s ->
      W.Keeps g (body i s) fun g' out =>
        match out with
        | .inl s' => inv (i + 1) g' s'
        | .inr result => post g' result)
    {left i : Nat} {s : σ} (hbound : i + left = bound) (h : inv i g s) :
    W.Keeps g (Prog.times body left i s) fun g' out =>
      match out with
      | .inl s' => inv bound g' s'
      | .inr result => post g' result := by
  induction left generalizing g i s with
  | zero =>
      rw [Nat.add_zero] at hbound
      rw [← hbound]
      exact h
  | succ left ih =>
      rw [Prog.times, keeps_bind]
      apply (hround i g s (by omega) h).mono
      intro g' out hout
      cases out with
      | inl s' =>
          exact ih (by omega) hout
      | inr result =>
          exact hout

/-- The rule of a loop that something follows: what the rounds keep, and what holds
when one of them has left the loop. -/
theorem keeps_times_bind {body : Nat -> σ -> Prog Answer (σ ⊕ ρ)}
    {f : σ ⊕ ρ -> Prog Answer α} {post : G -> α -> Prop}
    (inv : Nat -> G -> σ -> Prop) (exit : G -> ρ -> Prop) {bound : Nat} {s : σ}
    (hstart : inv 0 g s)
    (hround : forall i g s, i < bound -> inv i g s ->
      W.Keeps g (body i s) fun g' out =>
        match out with
        | .inl s' => inv (i + 1) g' s'
        | .inr result => exit g' result)
    (hends : forall g s, inv bound g s -> W.Keeps g (f (.inl s)) post)
    (hexit : forall g result, exit g result -> W.Keeps g (f (.inr result)) post) :
    W.Keeps g ((Prog.times body bound 0 s).bind f) post := by
  rw [keeps_bind]
  apply (keeps_times inv exit bound hround (Nat.zero_add bound) hstart).mono
  intro g' out hout
  cases out with
  | inl s' => exact hends g' s' hout
  | inr result => exact hexit g' result hout

/-!
## The rules of a run
-/

theorem Keeps.runs {p q : Prog Answer α} {post : G -> α -> Prop}
    {trace : List (CallEvent Answer)} (h : W.Keeps g p post) (hruns : p.Runs trace q)
    (hheard : W.Heard g trace) : W.Keeps (W.journal g trace) q post := by
  induction hruns generalizing g with
  | here p =>
      exact h
  | heard _ ih =>
      exact ih (h.right _ hheard.left) hheard.right

theorem heard_of {g : G} {trace : List (CallEvent Answer)}
    (h : forall e, e ∈ trace -> forall g, W.hears g e.call e.answer) : W.Heard g trace := by
  induction trace generalizing g with
  | nil =>
      trivial
  | cons e rest ih =>
      rw [List.forall_mem_cons] at h
      exact ⟨h.left g, ih h.right⟩

/-- What a permitted call keeps, every run of the program keeps. -/
theorem Keeps.invariant (inv : G -> Prop)
    (hstep : forall g c answer, inv g -> W.may g c -> W.hears g c answer ->
      inv (W.note g c answer))
    {p q : Prog Answer α} {post : G -> α -> Prop} {trace : List (CallEvent Answer)}
    (h : W.Keeps g p post) (hruns : p.Runs trace q) (hheard : W.Heard g trace)
    (hinv : inv g) : inv (W.journal g trace) := by
  induction hruns generalizing g with
  | here p =>
      exact hinv
  | heard _ ih =>
      exact ih (h.right _ hheard.left) hheard.right
        (hstep g _ _ hinv h.left hheard.left)

/-- Where fewer answers can come, there is no more to keep to. -/
theorem Keeps.narrow {hears : G -> (c : Call) -> Answer c -> Prop}
    (hfewer : forall g c answer, hears g c answer -> W.hears g c answer)
    {p : Prog Answer α} {post : G -> α -> Prop} (h : W.Keeps g p post) :
    ({ W with hears := hears } : Watch Answer G).Keeps g p post := by
  induction p generalizing g with
  | done result =>
      exact h
  | call c next ih =>
      constructor
      · exact h.left
      · intro answer hanswer
        exact ih answer (h.right answer (hfewer g c answer hanswer))

/-- Calls that are not watched leave the journal as it is. -/
theorem keeps_of_only {P : Call -> Prop}
    (hquiet : forall g c, P c -> W.may g c ∧ forall answer, W.note g c answer = g)
    {p : Prog Answer α} (h : p.Only P) :
    W.Keeps g p fun g' _ => g' = g := by
  induction p with
  | done result =>
      rfl
  | call c next ih =>
      constructor
      · exact (hquiet g c h.left).left
      · intro answer _
        rw [(hquiet g c h.left).right answer]
        exact ih answer (h.right answer)

/-- A watch that sees no more than another one is kept to with it. -/
theorem Keeps.simulate {W' : Watch Answer G'} {g' : G'} (R : G -> G' -> Prop)
    (hmay : forall g g' c, R g g' -> W.may g c -> W'.may g' c)
    (hhears : forall g g' c answer, R g g' -> W'.hears g' c answer ->
      W.hears g c answer)
    (hnote : forall g g' c answer, R g g' -> W.may g c -> W'.hears g' c answer ->
      R (W.note g c answer) (W'.note g' c answer))
    {p : Prog Answer α} {post : G -> α -> Prop} (h : W.Keeps g p post) (hR : R g g') :
    W'.Keeps g' p fun g' result => exists g, R g g' ∧ post g result := by
  induction p generalizing g g' with
  | done result =>
      exact ⟨g, hR, h⟩
  | call c next ih =>
      constructor
      · exact hmay g g' c hR h.left
      · intro answer hanswer
        apply ih answer (h.right answer (hhears g g' c answer hR hanswer))
        exact hnote g g' c answer hR h.left hanswer

end Watch

end HifiApi
