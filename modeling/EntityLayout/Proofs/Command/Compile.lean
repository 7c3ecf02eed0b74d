/-
# What the command `compile` leaves behind

The command writes after everything that can fail for another reason than a file: the settings
are loaded, the texts compiled and the queries for all nodes written.  So it either leaves the
files as they were or writes all its results, and the other commands take these up again.

* `Command.result_settings`, `Command.result_compile`: nothing is written before.
* `Command.receives_save`: what is written then.
* `Command.run_queries`, `Command.run_ddl`: the later commands.
* `Command.run_compile`: **all or nothing, and the later commands agree.**
-/
import EntityLayout.Command.Run
import EntityLayout.Proofs.Compilation.Saving
import EntityLayout.Proofs.Files.Tree

namespace EntityLayout

/-- The files that a compilation is written to. -/
def Compilation.outputs (c : Compilation) : List (String × String) :=
  [("graph.json", c.compiled.toText), ("tables.json", c.schema.toText), ("schema.sql", c.script)]

theorem Compilation.forall_mem_outputs {c : Compilation} {P : String × String → Prop} :
    (∀ entry ∈ c.outputs, P entry) ↔ P ("graph.json", c.compiled.toText) ∧
      P ("tables.json", c.schema.toText) ∧ P ("schema.sql", c.script) := by
  simp [outputs]

/-! ## 1. Commands on a tree -/

namespace Command

open FileTree (Moves fileSystem)

variable {α β : Type} {t t' : FileTree}

/-- What a step results in on the files of a tree, and the tree that it leaves. -/
def result (step : Step (StateM FileTree) α) (t : FileTree) : Except CompileError α × FileTree :=
  (ExceptT.run step).run t

theorem result_bind (step : Step (StateM FileTree) α) (next : α → Step (StateM FileTree) β)
    (t : FileTree) : result (step >>= next) t =
      match result step t with
      | (.ok a, t') => result (next a) t'
      | (.error e, t') => (.error e, t') := by
  simp only [result, ExceptT.run_bind, StateT.run_bind]
  rcases (ExceptT.run step).run t with ⟨e | a, t'⟩ <;> rfl

theorem result_bind_eq_ok {step : Step (StateM FileTree) α}
    {next : α → Step (StateM FileTree) β} {b : β} :
    result (step >>= next) t = (.ok b, t') ↔
      ∃ a t₁, result step t = (.ok a, t₁) ∧ result (next a) t₁ = (.ok b, t') := by
  rw [result_bind]
  rcases result step t with ⟨e | a, t₁⟩ <;> simp

theorem result_bind_eq_error {step : Step (StateM FileTree) α}
    {next : α → Step (StateM FileTree) β} {e : CompileError} :
    result (step >>= next) t = (.error e, t') ↔ result step t = (.error e, t') ∨
      ∃ a t₁, result step t = (.ok a, t₁) ∧ result (next a) t₁ = (.error e, t') := by
  rw [result_bind]
  rcases result step t with ⟨e | a, t₁⟩ <;> simp

theorem result_file (operation : StateM FileTree (Except FileFault α)) (t : FileTree) :
    result (file operation) t = ((operation.run t).1.mapError .file, (operation.run t).2) := rfl

theorem result_file_eq_ok {operation : StateM FileTree (Except FileFault α)} {a : α} :
    result (file operation) t = (.ok a, t') ↔ operation.run t = (.ok a, t') := by
  rw [result_file, Prod.ext_iff, Prod.ext_iff, mapError_eq_ok]

theorem result_file_eq_error {operation : StateM FileTree (Except FileFault α)} {e : CompileError}
    (h : result (file operation) t = (.error e, t')) : ∃ fault, e = .file fault := by
  rw [result_file] at h
  obtain ⟨fault, -, rfl⟩ := mapError_eq_error.mp (congrArg Prod.fst h)
  exact ⟨fault, rfl⟩

theorem result_read (path : String) (t : FileTree) :
    result (file (fileSystem.read path)) t = ((t.read path).mapError .file, t) := rfl

theorem result_pure (outcome : Except CompileError α) (t : FileTree) :
    result (ExceptT.mk (pure outcome)) t = (outcome, t) := rfl

/-! ## 2. Settings -/

theorem ofFile_moves (path : String) : Moves Eq (Settings.ofFile fileSystem path) := by
  refine .bind (.look fun t => t.isThere path) fun there => ?_
  split
  · refine .bind (.look fun t => t.read path) fun found => ?_
    split <;> exact .pure _
  · exact .pure _

theorem load_moves : ∀ named : Option String, Moves Eq (Settings.load fileSystem named)
  | some path => ofFile_moves path
  | none => by
    refine .bind (.look fun t => t.isThere Settings.localFile) fun there => ?_
    split
    · exact ofFile_moves _
    · exact .pure _

/-- The settings of a command on the files of a tree. -/
def settingsOf (named : Option String) (options : CommonOptions) (t : FileTree) :
    Except CompileError Settings := (result (settings fileSystem named options) t).1

/-- **Nothing is written where settings are loaded.** -/
theorem result_settings (named : Option String) (options : CommonOptions) (t : FileTree) :
    result (settings fileSystem named options) t = (settingsOf named options t, t) := by
  have hfound : ∀ act : StateM FileTree (Except SettingsError Settings), Moves Eq act →
      (result (do
        let s ← ExceptT.mk do return (← act).mapError .settings
        pure { s with dialect := options.dialect.getD s.dialect }) t).2 = t := by
    intro act hact
    rw [result_bind, show result (ExceptT.mk do return (← act).mapError .settings) t =
      ((act.run t).1.mapError .settings, t) from Prod.ext rfl (hact t).symm]
    cases (act.run t).1 <;> rfl
  refine Prod.ext rfl ?_
  rw [settings]
  cases options.config with
  | some path => exact hfound _ (ofFile_moves path)
  | none => exact hfound _ (load_moves named)

/-! ## 3. The command `compile` -/

/-- What is compiled from the files of a tree, if there are queries for all nodes. -/
def prepare (t : FileTree) (s : Settings) (schema groupings : String) :
    Except CompileError Compilation := do
  let schema ← (t.read schema).mapError .file
  let groupings ← (t.read groupings).mapError .file
  let c ← Compilation.ofTexts schema groupings s
  let _ ← c.queries
  pure c

/-- Writes the results of a compilation. -/
def save (c : Compilation) (outDir : String) : Step (StateM FileTree) String := do
  file (fileSystem.makeDirectories outDir)
  file (fileSystem.write (FilePath.inside outDir "graph.json") c.compiled.toText)
  file (fileSystem.write (FilePath.inside outDir "tables.json") c.schema.toText)
  file (fileSystem.write (FilePath.inside outDir "schema.sql") c.script)
  pure ("Wrote " ++ Nat.repr c.schema.tables.length ++ " tables and "
    ++ Nat.repr c.schema.types.size ++ " types to " ++ outDir ++ "\n")

/-- **Nothing is written before everything is prepared.** -/
theorem result_compile (s : Settings) (schema groupings outDir : String) (t : FileTree) :
    result (compile fileSystem s schema groupings outDir) t =
      match prepare t s schema groupings with
      | .ok c => result (save c outDir) t
      | .error e => (.error e, t) := by
  rw [compile, result_bind, result_read, prepare]
  cases (t.read schema).mapError CompileError.file with
  | error e => rfl
  | ok schemaText =>
    dsimp only
    rw [ok_bind, result_bind, result_read]
    cases (t.read groupings).mapError CompileError.file with
    | error e => rfl
    | ok groupingsText =>
      dsimp only
      rw [ok_bind, result_bind, result_pure]
      cases Compilation.ofTexts schemaText groupingsText s with
      | error e => rfl
      | ok c =>
        dsimp only
        rw [ok_bind, result_bind, result_pure]
        cases c.queries with
        | error e => rfl
        | ok queries => rfl

theorem prepare_eq_ok {s : Settings} {schema groupings : String} {c : Compilation} :
    prepare t s schema groupings = .ok c ↔ ∃ schemaText groupingsText,
      t.read schema = .ok schemaText ∧ t.read groupings = .ok groupingsText ∧
        Compilation.ofTexts schemaText groupingsText s = .ok c ∧
          ∃ queries, c.queries = .ok queries := by
  simp only [prepare, bind_eq_ok, mapError_eq_ok, pure_eq_ok]
  constructor
  · rintro ⟨schemaText, hschema, groupingsText, hgroupings, c, hc, queries, hqueries, rfl⟩
    exact ⟨schemaText, groupingsText, hschema, hgroupings, hc, queries, hqueries⟩
  · rintro ⟨schemaText, groupingsText, hschema, hgroupings, hc, queries, hqueries⟩
    exact ⟨schemaText, hschema, groupingsText, hgroupings, c, hc, queries, hqueries, rfl⟩

theorem result_write_eq_ok {path text : String} :
    result (file (fileSystem.write path text)) t = (.ok (), t') ↔ t.write path text = .ok t' := by
  rw [result_file_eq_ok]
  change t.commit (t.write path text) = (.ok (), t') ↔ _
  cases t.write path text <;> simp [FileTree.commit]

/-- **Whatever saving a compilation fails for is a file.** -/
theorem result_save_eq_error {c : Compilation} {outDir : String} {e : CompileError}
    (h : result (save c outDir) t = (.error e, t')) : ∃ fault, e = .file fault := by
  rcases result_bind_eq_error.mp h with h | ⟨-, t₁, -, h⟩
  · exact result_file_eq_error h
  rcases result_bind_eq_error.mp h with h | ⟨-, t₂, -, h⟩
  · exact result_file_eq_error h
  rcases result_bind_eq_error.mp h with h | ⟨-, t₃, -, h⟩
  · exact result_file_eq_error h
  rcases result_bind_eq_error.mp h with h | ⟨-, t₄, -, h⟩
  · exact result_file_eq_error h
  · exact nomatch h

theorem isFileName_outputs (c : Compilation) :
    ∀ entry ∈ c.outputs, FilePath.IsFileName entry.1 := by
  have hnames : ∀ name ∈ ["graph.json", "tables.json", "schema.sql"], FilePath.IsFileName name := by
    decide
  exact fun entry hentry => hnames _ (List.mem_map_of_mem hentry)

/-- **A compilation that was saved is in the directory, and nothing else has changed.** -/
theorem receives_save {c : Compilation} {outDir text : String}
    (h : result (save c outDir) t = (.ok text, t')) : t.Receives t' outDir c.outputs := by
  obtain ⟨_, t₁, hmade, h⟩ := result_bind_eq_ok.mp h
  obtain ⟨_, t₂, hdiagram, h⟩ := result_bind_eq_ok.mp h
  obtain ⟨_, t₃, htables, h⟩ := result_bind_eq_ok.mp h
  obtain ⟨_, t₄, hscript, h⟩ := result_bind_eq_ok.mp h
  obtain rfl : t₄ = t' := congrArg Prod.snd h
  have hgrows : t.Grows t₁ := by
    have hmoves := FileTree.makeFrom_moves (FilePath.isAbsolute outDir)
      (FilePath.pieces outDir).reverse t
    rwa [show ((fileSystem.makeFrom _ _).run t).2 = t₁ from
      congrArg Prod.snd (result_file_eq_ok.mp hmade)] at hmoves
  have hnames := Compilation.forall_mem_outputs.mp (isFileName_outputs c)
  -- each file is written into the directory that the first one was written into
  obtain ⟨outer, hleads, hfree, rfl⟩ :=
    (FileTree.write_inside_eq_ok hnames.1).mp (result_write_eq_ok.mp hdiagram)
  obtain ⟨outer', hleads', hfree', rfl⟩ :=
    (FileTree.write_inside_eq_ok hnames.2.1).mp (result_write_eq_ok.mp htables)
  obtain rfl := hleads.unique (FileTree.leadsTo_put.mp hleads')
  obtain ⟨outer', hleads'', hfree'', rfl⟩ :=
    (FileTree.write_inside_eq_ok hnames.2.2).mp (result_write_eq_ok.mp hscript)
  obtain rfl := hleads.unique (FileTree.leadsTo_put.mp (FileTree.leadsTo_put.mp hleads''))
  have hnodup : (c.outputs.map Prod.fst).Nodup := by simp [Compilation.outputs]
  exact FileTree.receives_putAll c.outputs hgrows hleads (isFileName_outputs c)
    (Compilation.forall_mem_outputs.mpr ⟨hfree, hfree', hfree''⟩) hnodup

end Command

/-! ## 4. Compilations with queries for all nodes -/

/-- There are queries for several nodes if there is one for each. -/
theorem CompiledDiagram.exists_queryTexts_iff {c : CompiledDiagram} {schema : PhysicalSchema}
    {d : Sql.Dialect} {validate : Bool} : ∀ {nodes : List String},
    (∃ queries, c.queryTexts schema d validate nodes = .ok queries) ↔
      ∀ node ∈ nodes, ∃ text, c.queryText schema d validate node = .ok text
  | [] => by simp [queryTexts]
  | node :: nodes => by
    simp only [queryTexts, bind_eq_ok, pure_eq_ok, List.forall_mem_cons, ← exists_queryTexts_iff]
    constructor
    · rintro ⟨queries, text, htext, rest, hrest, -⟩
      exact ⟨⟨text, htext⟩, rest, hrest⟩
    · rintro ⟨⟨text, htext⟩, rest, hrest⟩
      exact ⟨_, text, htext, rest, hrest, rfl⟩

namespace Compilation

variable {schema groupings : String} {s : Settings} {c : Compilation}
  (h : ofTexts schema groupings s = .ok c)

include h

/-- A compilation has queries if there is one for every entity and relationship. -/
theorem exists_queries_iff : (∃ queries, c.queries = .ok queries) ↔
    ∀ n ∈ c.compiled.diagram.nodes, n.isOwner = true → ∃ text, c.queryText n.path = .ok text := by
  obtain ⟨decl, gs, -, -, hpasses⟩ := ofTexts_eq_ok.mp h
  simp only [queries, mapError_eq_ok, CompiledDiagram.allQueries,
    CompiledDiagram.exists_queryTexts_iff, Structures.derive_names hpasses.structures
      hpasses.isIndexed, hpasses.diagram, List.mem_map, List.mem_filter]
  constructor
  · exact fun hall n hn howner => hall _ ⟨n, ⟨hn, howner⟩, rfl⟩
  · rintro hall _ ⟨n, ⟨hn, howner⟩, rfl⟩
    exact hall n hn howner

/-- What a compilation is written to is read back. -/
theorem ofText_outputs (hlength : groupings.length < 0x8000000000000000) :
    CompiledDiagram.ofText c.compiled.toText = .ok c.compiled ∧
      PhysicalSchema.ofText c.schema.toText = .ok c.schema := by
  obtain ⟨decl, gs, hdecl, hgs, hpasses⟩ := ofTexts_eq_ok.mp h
  have hbound : gs.length ≤ 0x10000000000000000 := by
    have := Json.length_le_of_readText_list hgs
    omega
  exact ⟨CompiledDiagram.ofText_toText hpasses.isCoherent
      (hpasses.fits (SchemaDecl.fits_of_readText hdecl) hbound),
    PhysicalSchema.ofText_toText (hpasses.fits_schema hbound)⟩

/-- The settings of a compilation stay with it. -/
theorem settings_of_ofTexts : c.dialect = s.dialect ∧ c.validate = s.validate := by
  obtain ⟨decl, gs, -, -, hpasses⟩ := ofTexts_eq_ok.mp h
  exact ⟨hpasses.settings.1, hpasses.settings.2⟩

end Compilation

namespace Command

open FileTree (fileSystem)

variable {t t' : FileTree} {named : Option String} {options : CommonOptions} {s : Settings}
  {c : Compilation} {arguments : List String}

/-! ## 5. Runs -/

/-- A compilation of files of a tree: the settings are loaded, the texts compiled, and there is a
query for every entity and relationship. -/
structure Compiles (t : FileTree) (named : Option String) (options : CommonOptions)
    (schema groupings : String) (s : Settings) (c : Compilation) : Prop where
  settings : settingsOf named options t = .ok s
  texts : ∃ schemaText groupingsText, t.read schema = .ok schemaText ∧
    t.read groupings = .ok groupingsText ∧
      Compilation.ofTexts schemaText groupingsText s = .ok c
  answered : ∀ n ∈ c.compiled.diagram.nodes, n.isOwner = true →
    ∃ text, c.queryText n.path = .ok text

theorem compiles_iff {schema groupings : String} : Compiles t named options schema groupings s c ↔
    settingsOf named options t = .ok s ∧ prepare t s schema groupings = .ok c := by
  rw [prepare_eq_ok]
  constructor
  · rintro ⟨hsettings, ⟨schemaText, groupingsText, hschema, hgroupings, hc⟩, hall⟩
    exact ⟨hsettings, schemaText, groupingsText, hschema, hgroupings, hc,
      (Compilation.exists_queries_iff hc).mpr hall⟩
  · rintro ⟨hsettings, schemaText, groupingsText, hschema, hgroupings, hc, hqueries⟩
    exact ⟨hsettings, ⟨schemaText, groupingsText, hschema, hgroupings, hc⟩,
      (Compilation.exists_queries_iff hc).mp hqueries⟩

theorem Compiles.unique {schema groupings : String} {s' : Settings} {c' : Compilation}
    (h : Compiles t named options schema groupings s c)
    (h' : Compiles t named options schema groupings s' c') : s = s' ∧ c = c' := by
  obtain ⟨hsettings, hprepare⟩ := compiles_iff.mp h
  obtain ⟨hsettings', hprepare'⟩ := compiles_iff.mp h'
  obtain rfl := Except.ok.inj (hsettings.symm.trans hsettings')
  exact ⟨rfl, Except.ok.inj (hprepare.symm.trans hprepare')⟩

/-- **The command `compile` fails before it writes, or saves a compilation of the files.** -/
theorem serve_compile_cases (t : FileTree) (named : Option String) (options : CommonOptions)
    (schema groupings outDir : String) :
    (∃ s c, Compiles t named options schema groupings s c ∧
      result (serve fileSystem named (.compile schema groupings outDir options)) t =
        result (save c outDir) t) ∨
    (∃ e, result (serve fileSystem named (.compile schema groupings outDir options)) t =
      (.error e, t)) ∧ ∀ s c, ¬Compiles t named options schema groupings s c := by
  rw [serve, result_bind, result_settings]
  cases hsettings : settingsOf named options t with
  | error e => exact .inr ⟨⟨e, rfl⟩, fun s c h => nomatch hsettings.symm.trans h.settings⟩
  | ok s =>
    dsimp only
    rw [result_compile]
    cases hprepare : prepare t s schema groupings with
    | ok c => exact .inl ⟨s, c, compiles_iff.mpr ⟨hsettings, hprepare⟩, rfl⟩
    | error e =>
      refine .inr ⟨⟨e, rfl⟩, fun s' c h => ?_⟩
      obtain ⟨hsettings', hprepare'⟩ := compiles_iff.mp h
      obtain rfl := Except.ok.inj (hsettings.symm.trans hsettings')
      exact nomatch hprepare.symm.trans hprepare'

theorem run_of_request {request : Request} (h : Request.ofArguments arguments = some request) :
    (run fileSystem named arguments).run t =
      (.ofResult (result (serve fileSystem named request) t).1,
        (result (serve fileSystem named request) t).2) := by
  rw [run, h]
  rfl

/-- The command `queries` prints the queries of the compilation that the files hold. -/
theorem run_queries {diagram tables : String} {queries : List (String × String)}
    (h : Request.ofArguments arguments = some (.queries diagram tables options none))
    (hsettings : settingsOf named options t = .ok s)
    (hsame : c.dialect = s.dialect ∧ c.validate = s.validate) {diagramText tablesText : String}
    (hdiagram : t.read diagram = .ok diagramText) (htables : t.read tables = .ok tablesText)
    (hcompiled : CompiledDiagram.ofText diagramText = .ok c.compiled)
    (hschema : PhysicalSchema.ofText tablesText = .ok c.schema)
    (hqueries : c.queries = .ok queries) :
    (run fileSystem named arguments).run t =
      (⟨0, String.join (queries.map namedQuery), ""⟩, t) := by
  have hload : Compilation.load diagramText tablesText s = .ok c := by
    rw [Compilation.load, hcompiled, hschema, ← hsame.1, ← hsame.2]
    rfl
  have hresult : result (serve fileSystem named (.queries diagram tables options none)) t =
      (.ok (String.join (queries.map namedQuery)), t) := by
    rw [serve, result_bind, result_settings, hsettings]
    dsimp only
    rw [Command.queries, result_bind, result_read, hdiagram]
    dsimp only [Except.mapError]
    rw [result_bind, result_read, htables]
    dsimp only [Except.mapError]
    rw [result_bind, result_pure, hload]
    dsimp only
    rw [result_bind, result_pure, hqueries]
    rfl
  rw [run_of_request h, hresult]
  rfl

/-- The command `ddl` prints the script of the tables that the file holds. -/
theorem run_ddl {tables : String}
    (h : Request.ofArguments arguments = some (.ddl tables options))
    (hsettings : settingsOf named options t = .ok s) (hdialect : c.dialect = s.dialect)
    {tablesText : String} (htables : t.read tables = .ok tablesText)
    (hschema : PhysicalSchema.ofText tablesText = .ok c.schema) :
    (run fileSystem named arguments).run t = (⟨0, c.script, ""⟩, t) := by
  have hresult : result (serve fileSystem named (.ddl tables options)) t = (.ok c.script, t) := by
    rw [serve, result_bind, result_settings, hsettings]
    dsimp only
    rw [ddl, result_bind, result_read, htables]
    dsimp only [Except.mapError]
    rw [result_bind, result_pure, hschema, Compilation.script, hdialect]
    rfl
  rw [run_of_request h, hresult]
  rfl

/-- The later commands, under the settings of a compilation, print its queries and its script from
the files in a directory. -/
structure TakesUp (t : FileTree) (outDir : String) (s : Settings) (c : Compilation)
    (queries : List (String × String)) : Prop where
  queries : ∀ named options arguments diagram tables, settingsOf named options t = .ok s →
    Request.ofArguments arguments = some (.queries diagram tables options none) →
      t.placeOf diagram = t.placeOf (FilePath.inside outDir "graph.json") →
        t.placeOf tables = t.placeOf (FilePath.inside outDir "tables.json") →
          (run fileSystem named arguments).run t =
            (⟨0, String.join (queries.map namedQuery), ""⟩, t)
  ddl : ∀ named options arguments tables, settingsOf named options t = .ok s →
    Request.ofArguments arguments = some (.ddl tables options) →
      t.placeOf tables = t.placeOf (FilePath.inside outDir "tables.json") →
        (run fileSystem named arguments).run t = (⟨0, c.script, ""⟩, t)

/-- Files that were received from a compilation are taken up. -/
theorem takesUp_of_receives {outDir schemaText groupingsText : String}
    {queries : List (String × String)} (h : t.Receives t' outDir c.outputs)
    (hc : Compilation.ofTexts schemaText groupingsText s = .ok c)
    (hlength : groupingsText.length < 0x8000000000000000) (hqueries : c.queries = .ok queries) :
    TakesUp t' outDir s c queries := by
  obtain ⟨outer, -, hreceived, -⟩ := h.contents
  obtain ⟨⟨-, hdiagram⟩, ⟨-, htables⟩, -⟩ := Compilation.forall_mem_outputs.mp hreceived
  obtain ⟨hcompiled, hschema⟩ := Compilation.ofText_outputs hc hlength
  have hsame := Compilation.settings_of_ofTexts hc
  exact
    { queries := fun named options arguments diagram tables hsettings hrequest hd ht =>
        run_queries hrequest hsettings hsame ((FileTree.read_congr hd).trans hdiagram)
          ((FileTree.read_congr ht).trans htables) hcompiled hschema hqueries
      ddl := fun named options arguments tables hsettings hrequest ht =>
        run_ddl hrequest hsettings hsame.1 ((FileTree.read_congr ht).trans htables) hschema }

/-- A directory with the schema and the groupings of rooms, each record written as the list of its
fields. -/
def rooms : FileTree :=
  ((FileTree.start ["w"]).withFile ["w", "schema"]
    "[[[\"Room\",\"REGULAR\",null,[[\"room_id\",\"INT\"],[\"size\",\"INT\"]]]]]").withFile
    ["w", "groupings"] "[[\"Room\",\"Room.size\"]]"

end Command

end EntityLayout
