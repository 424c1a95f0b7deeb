import HifiApi.Lib.Migrations

/-!
# Runs with starts

Starts, crashes and writes of servers that share a database, in any order.
-/

namespace HifiApi

variable {Table Name Cell : Type} {fold : Name -> Name}
  {defaults : Table -> Name -> Cell} {ms : List (Migration Table Name Cell)}
  {db : Database Table Name Cell}

/-- What a server has brought about by its start. -/
def Starter.Fair (ms : List (Migration Table Name Cell)) (db : Database Table Name Cell) :
    Starter Table Name Cell -> Prop
  | starting rest seen =>
      (exists done, startProgram ms = done ++ rest ∧ forall s, s ∈ done -> s.Holds db) ∧
        Knows db seen
  | up => forall s, s ∈ startProgram ms -> s.Holds db
  | failed => True
  | down => True

theorem Starter.Fair.grows {db' : Database Table Name Cell} {server : Starter Table Name Cell}
    (h : server.Fair ms db) (hgrows : db.Grows db') : server.Fair ms db' := by
  cases server with
  | starting rest seen =>
      rcases h with ⟨⟨done, heq, hdone⟩, hknows⟩
      exact ⟨⟨done, heq, fun s hs => (hdone s hs).grows hgrows⟩, hknows.grows hgrows⟩
  | up =>
      exact fun s hs => (h s hs).grows hgrows
  | failed =>
      trivial
  | down =>
      trivial

variable [DecidableEq Table] [DecidableEq Name]

omit [DecidableEq Table] in
/-- A statement that names only what the program wants is no error. -/
theorem Database.Complete.write_ne_none (h : db.Complete ms) {m : Migration Table Name Cell}
    (hm : m ∈ ms) {statement : SqlWrite Name Cell}
    (hnames : forall n, n ∈ statement.names -> n ∈ m.wanted.map SqlColumn.name) :
    ((db m.table).bind fun t => t.write (defaults m.table) statement) ≠ none := by
  rcases h m hm with ⟨htable, hcolumns⟩
  rcases Option.ne_none_iff_exists'.mp htable with ⟨t, ht⟩
  have hthere : forall n, n ∈ statement.names -> n ∈ t.names := by
    intro n hn
    rcases List.mem_map.mp (hnames n hn) with ⟨c, hc, rfl⟩
    rcases hcolumns c hc with ⟨t', ht', hname⟩
    rw [ht] at ht'
    cases ht'
    exact hname
  have hexists : exists t', t.write (defaults m.table) statement = some t' :=
    SqlTable.exists_write hthere
  rcases hexists with ⟨t', hwrite⟩
  rw [ht, Option.bind_some, hwrite]
  exact Option.some_ne_none t'

/-- What a write does to the database. -/
theorem Legacy.write (h : Legacy fold defaults ms db) {table : Table}
    {t t' : SqlTable Name Cell} (ht : db table = some t) {statement : SqlWrite Name Cell}
    (hwrite : t.write (defaults table) statement = some t') :
    Legacy fold defaults ms (db.put table t') ∧ db.Grows (db.put table t') ∧
      forall table', (db.put table t').readings defaults table' =
        if table' = table then
          SqlTable.applyReadings (defaults table) statement (db.readings defaults table')
        else db.readings defaults table' := by
  rcases SqlTable.readings_write hwrite (h.defaults table t ht) with ⟨hcolumns, hreadings⟩
  have hnames : t'.names = t.names := congrArg (List.map SqlColumn.name) hcolumns
  refine ⟨?_, ?_, ?_⟩
  · apply h.put
    · rw [hnames]
      exact h.folded table t ht
    · rw [hcolumns]
      exact h.defaults table t ht
    · rintro m hm rfl
      rw [hnames]
      exact h.enough m hm t ht
  · apply Database.grows_put
    intro u hu n hn
    rw [ht] at hu
    cases hu
    rw [hnames]
    exact hn
  · intro table'
    rw [Database.readings_put]
    split
    · rename_i heq
      rw [heq, hreadings, Database.readings_some ht]
    · rfl

/-- What is read of a table after the writes that were noted. -/
def readAfter (defaults : Table -> Name -> Cell) (table : Table)
    (log : List (WriteMark Table Name Cell)) (vs : List (Name -> Cell)) :
    List (Name -> Cell) :=
  log.foldl (fun vs m =>
    match m with
    | .wrote table' w =>
        if table' = table then SqlTable.applyReadings (defaults table) w vs else vs
    | .rejected _ _ => vs) vs

namespace StartWorld

/-- The database is as the writes alone have made it, and rejected writes name what the
program does not want. -/
structure Unseen (fold : Name -> Name) (defaults : Table -> Name -> Cell)
    (ms : List (Migration Table Name Cell)) (db : Database Table Name Cell)
    (w : StartWorld Table Name Cell) (log : List (WriteMark Table Name Cell)) : Prop where
  legacy : Legacy fold defaults ms w.db
  fair : forall server, server ∈ w.servers -> server.Fair ms w.db
  readings : forall table,
    w.db.readings defaults table = readAfter defaults table log (db.readings defaults table)
  rejected : forall table statement, .rejected table statement ∈ log ->
    forall m, m ∈ ms -> m.table = table ->
      exists n, n ∈ statement.names ∧ n ∉ m.wanted.map SqlColumn.name

namespace Unseen

variable {w : StartWorld Table Name Cell} {log : List (WriteMark Table Name Cell)}

/-- A step that notes nothing, and does not show in what is read. -/
theorem quiet (h : Unseen fold defaults ms db w log) {w' : StartWorld Table Name Cell}
    (hlegacy : Legacy fold defaults ms w'.db)
    (hfair : forall server, server ∈ w'.servers -> server.Fair ms w'.db)
    (hsame : forall table, w'.db.readings defaults table = w.db.readings defaults table) :
    Unseen fold defaults ms db w' (log ++ []) := by
  rw [List.append_nil]
  exact ⟨hlegacy, hfair, fun table => (hsame table).trans (h.readings table), h.rejected⟩

theorem go (hsound : Migratable fold defaults ms) (h : Unseen fold defaults ms db w log) {k : Nat}
    {w' : StartWorld Table Name Cell} (hstep : step fold defaults ms w (.go k) = some w') :
    Unseen fold defaults ms db w' (log ++ []) := by
  simp only [step] at hstep
  split at hstep
  · rename_i seen hk
    cases hstep
    rcases h.fair _ (List.mem_of_getElem? hk) with ⟨⟨done, heq, hdone⟩, _⟩
    refine h.quiet h.legacy ?_ fun _ => rfl
    intro server hserver
    rcases List.mem_or_eq_of_mem_set hserver with hold | hnew
    · exact h.fair server hold
    · rw [hnew]
      intro s hs
      rw [heq, List.append_nil] at hs
      exact hdone s hs
  · rename_i s rest seen hk
    rcases h.fair _ (List.mem_of_getElem? hk) with ⟨⟨done, heq, hdone⟩, hknows⟩
    split at hstep
    · cases hstep
      refine h.quiet h.legacy ?_ fun _ => rfl
      intro server hserver
      rcases List.mem_or_eq_of_mem_set hserver with hold | hnew
      · exact h.fair server hold
      · rw [hnew]
        trivial
    · rename_i db' seen' hexecute
      cases hstep
      have hmem : s ∈ startProgram ms := by
        rw [heq]
        exact List.mem_append_right _ List.mem_cons_self
      have hexecutes := executes_of_execute hsound h.legacy hmem hexecute
      refine h.quiet hexecutes.legacy ?_ hexecutes.unseen
      intro server hserver
      rcases List.mem_or_eq_of_mem_set hserver with hold | hnew
      · exact (h.fair server hold).grows hexecutes.grows
      · rw [hnew]
        refine ⟨⟨done ++ [s], ?_, ?_⟩, hexecutes.knows hknows⟩
        · rw [heq, List.append_assoc]
          rfl
        · intro s' hs'
          rcases List.mem_append.mp hs' with hold | hlast
          · exact (hdone s' hold).grows hexecutes.grows
          · rw [List.mem_singleton.mp hlast]
            exact hexecutes.holds hknows
  · cases hstep

theorem write (h : Unseen fold defaults ms db w log) {k : Nat} {table : Table}
    {statement : SqlWrite Name Cell} {w' : StartWorld Table Name Cell}
    (hstep : step fold defaults ms w (.write k table statement) = some w') :
    Unseen fold defaults ms db w' (log ++ w.marks defaults (.write k table statement)) := by
  simp only [step] at hstep
  split at hstep
  · rename_i hk
    simp only [marks]
    split at hstep
    · rename_i hnone
      cases hstep
      refine ⟨h.legacy, h.fair, ?_, ?_⟩
      · intro table'
        rw [readAfter, List.foldl_append]
        exact h.readings table'
      · intro table' statement' hmem
        rcases List.mem_append.mp hmem with hold | hnew
        · exact h.rejected table' statement' hold
        · cases List.mem_singleton.mp hnew
          rintro m hm rfl
          by_contra hall
          have hcomplete := h.legacy.complete (h.fair _ (List.mem_of_getElem? hk))
          have hnames : forall n, n ∈ statement.names -> n ∈ m.wanted.map SqlColumn.name := by
            intro n hn
            by_contra hnot
            exact hall ⟨n, hn, hnot⟩
          exact hcomplete.write_ne_none hm hnames hnone
    · rename_i t' hsome
      cases hstep
      rcases Option.bind_eq_some_iff.mp hsome with ⟨t, ht, hwrite⟩
      rcases h.legacy.write ht hwrite with ⟨hlegacy, hgrows, hreadings⟩
      refine ⟨hlegacy, fun server hserver => (h.fair server hserver).grows hgrows, ?_, ?_⟩
      · intro table'
        rw [readAfter, List.foldl_append, hreadings, h.readings table']
        by_cases heq : table' = table
        · subst heq
          rw [if_pos rfl]
          exact (if_pos rfl).symm
        · rw [if_neg heq]
          exact (if_neg (Ne.symm heq)).symm
      · intro table' statement' hmem
        rcases List.mem_append.mp hmem with hold | hnew
        · exact h.rejected table' statement' hold
        · cases List.mem_singleton.mp hnew
  · cases hstep

theorem step (hsound : Migratable fold defaults ms) (h : Unseen fold defaults ms db w log)
    {a : StartAction Table Name Cell} {w' : StartWorld Table Name Cell}
    (hstep : (system fold defaults ms).step w a = some w') :
    Unseen fold defaults ms db w' (log ++ w.marks defaults a) := by
  cases a with
  | launch =>
      cases hstep
      refine h.quiet h.legacy ?_ fun _ => rfl
      intro server hserver
      rcases List.mem_append.mp hserver with hold | hnew
      · exact h.fair server hold
      · rw [List.mem_singleton.mp hnew]
        exact ⟨⟨[], rfl, fun _ hs => absurd hs List.not_mem_nil⟩,
          fun _ _ hn => absurd hn List.not_mem_nil⟩
  | go k =>
      exact h.go hsound hstep
  | kill k =>
      simp only [system, StartWorld.step] at hstep
      split at hstep
      · cases hstep
        refine h.quiet h.legacy ?_ fun _ => rfl
        intro server hserver
        rcases List.mem_or_eq_of_mem_set hserver with hold | hnew
        · exact h.fair server hold
        · rw [hnew]
          trivial
      · cases hstep
  | write k table statement =>
      exact h.write hstep

end Unseen

/-- A start that goes on alone executes the rest of its statements and is up. -/
theorem up_of_executeAll {rest : List (Statement Table Name Cell)}
    {seen : Table -> List Name} {next : Database Table Name Cell × (Table -> List Name)}
    (hnext : executeAll fold rest db seen = some next)
    {servers : List (Starter Table Name Cell)} {k : Nat}
    (hk : servers[k]? = some (.starting rest seen)) :
    exists w, (system fold defaults ms).run ⟨db, servers⟩
        (List.replicate (rest.length + 1) (.go k)) = some w ∧
      w.servers[k]? = some .up := by
  have hlt := (List.getElem?_eq_some_iff.mp hk).choose
  induction rest generalizing db seen servers with
  | nil =>
      refine ⟨⟨db, servers.set k .up⟩, ?_, List.getElem?_set_self hlt⟩
      refine System.run_cons_some.mpr ⟨⟨db, servers.set k .up⟩, ?_, rfl⟩
      simp only [system, StartWorld.step, hk]
  | cons s rest ih =>
      simp only [executeAll] at hnext
      split at hnext
      · cases hnext
      · rename_i mid hmid
        have hset := List.getElem?_set_self (a := Starter.starting rest mid.2) hlt
        rcases ih hnext hset (by rw [List.length_set]; exact hlt) with ⟨w, hrun, hup⟩
        refine ⟨w, System.run_cons_some.mpr ⟨_, ?_, hrun⟩, hup⟩
        simp only [system, StartWorld.step, hk, hmid]

/-- In every run, what is read is what the writes alone have made of it; a server that is
up finds all that the program wants, and has no statement rejected but one that names a
column the program does not want; and a start that is left alone comes up. -/
theorem starts_unseen (hsound : Migratable fold defaults ms) (hlegacy : Legacy fold defaults ms db)
    {actions : List (StartAction Table Name Cell)} {w : StartWorld Table Name Cell}
    (hrun : (system fold defaults ms).run ⟨db, []⟩ actions = some w) :
    Unseen fold defaults ms db w
        ((system fold defaults ms).history (marks defaults) ⟨db, []⟩ actions) ∧
      (.up ∈ w.servers -> w.db.Complete ms) ∧
      exists w', (system fold defaults ms).run w
          (.launch :: List.replicate ((startProgram ms).length + 1) (.go w.servers.length)) =
            some w' ∧
        w'.servers[w.servers.length]? = some .up := by
  have hend : Unseen fold defaults ms db w
      ([] ++ (system fold defaults ms).history (marks defaults) ⟨db, []⟩ actions) := by
    refine System.run_history_invariant (P := fun _ _ => True)
      (I := Unseen fold defaults ms db) ?_ ?_
      (System.along_of_forall_mem fun _ _ => trivial) hrun
    · exact fun _ _ _ _ h _ hstep => h.step hsound hstep
    · exact ⟨hlegacy, fun _ hserver => absurd hserver List.not_mem_nil, fun _ => rfl,
        fun _ _ hmem => absurd hmem List.not_mem_nil⟩
  rw [List.nil_append] at hend
  refine ⟨hend, fun hup => hend.legacy.complete (hend.fair _ hup), ?_⟩
  rcases exists_start hsound hend.legacy (fun _ => []) with ⟨next, hnext⟩
  have hlast : (w.servers ++ [Starter.starting (startProgram ms) fun _ => []])[w.servers.length]? =
      some (.starting (startProgram ms) fun _ => []) := by
    rw [List.getElem?_append_right (Nat.le_refl _), Nat.sub_self]
    rfl
  have halone : exists w', (system fold defaults ms).run ⟨w.db, w.servers ++ [_]⟩
      (List.replicate ((startProgram ms).length + 1) (.go w.servers.length)) = some w' ∧
      w'.servers[w.servers.length]? = some .up := up_of_executeAll hnext hlast
  rcases halone with ⟨w', hrun', hup⟩
  exact ⟨w', System.run_cons_some.mpr ⟨_, rfl, hrun'⟩, hup⟩

end StartWorld

end HifiApi
