import ClientGen.Proofs.CommandLine.Writing
import ClientGen.Proofs.Extraction.Found

/-! A run of `generate`. What is refused is refused before anything is written; what is generated goes
to the files of the planned artifacts, and nowhere else. Formatters may change files afterwards, so that is told
of the files that they spare. -/
namespace ClientGen.CommandLine
variable {programs : Programs} {w : Workspace} {a : GenerateArguments} {c : Config} {d : Document} {m : Model}
  {f : Failure} {target target' : Target} {artifact artifact' : Artifact} {path : String} {table : MappingTable}
  {packages : List Package} {format : Bool}

/-! ### What a run asks for -/

namespace GenerateArguments

def mappingPath (a : GenerateArguments) (c : Config) : String := a.mapping.getD c.mappingFile

def requested (a : GenerateArguments) (c : Config) : List Target :=
  if a.targets.isEmpty then c.targets else a.targets

/-- Where a client goes, and where its formatters are started. -/
def folder (a : GenerateArguments) (c : Config) (target : Target) : String :=
  Path.join (a.output.getD c.output) target.word

/-- Where a file of a client goes. -/
def outputPath (a : GenerateArguments) (c : Config) (target : Target) (artifact : Artifact) : Path :=
  Path.ofText (Path.join (a.folder c target) (target.fileName artifact))

end GenerateArguments

/-- The configuration and the document that a run has read. -/
structure Reads (w : Workspace) (a : GenerateArguments) (c : Config) (d : Document) : Prop where
  config : readConfig w = .ok c
  document : readDocument w (a.input.getD c.input) = .ok d

/-- ... and whose schemas can all be converted, so that it can be extracted. -/
structure Extracts (w : Workspace) (a : GenerateArguments) (c : Config) (d : Document) : Prop
    extends Reads w a c d where
  converts : d.Converts

/-- What is prepared from them, with the mapping that is there. -/
def prepared (w : Workspace) (a : GenerateArguments) (c : Config) (d : Document) :
    Except MappingError Prepared :=
  d.extract.prepare (readMapping w (a.mappingPath c)) c.fingerprint

/-- What can keep a run from generating, before anything is written. -/
inductive Refused (w : Workspace) (a : GenerateArguments) : Failure → Prop
  | config {f : Failure} : readConfig w = .error f → Refused w a f
  | document {c : Config} {f : Failure} : readConfig w = .ok c →
    readDocument w (a.input.getD c.input) = .error f → Refused w a f
  | mapping {c : Config} {d : Document} {e : MappingError} : Extracts w a c d →
    prepared w a c d = .error e → Refused w a (.mapping e)
  | rendering {c : Config} {d : Document} {m : Model} {target : Target} {artifact : Artifact}
    {e : GenerateError} :
    Extracts w a c d → prepared w a c d = .ok (.ready m) → target ∈ a.requested c →
    artifact ∈ m.plan c.options → target.render m c.options artifact = .error e →
    Refused w a (.generate target e)

/-- The clients that are rendered, all of them before the first is written. -/
structure Renders (w : Workspace) (a : GenerateArguments) (c : Config) (d : Document) (m : Model)
    (packages : List Package) : Prop extends Extracts w a c d where
  ready : prepared w a c d = .ok (.ready m)
  packages : (a.requested c).mapM (Plan.package m c.options (a.output.getD c.output)) = .ok packages

/-! ### Planning -/

namespace Plan

theorem make_of_reads (h : Reads w a c d) : make w a =
    ((prepared w a c d).mapError Failure.mapping >>= fun p =>
    match p with
    | .bootstrap table => return .bootstrap (a.mappingPath c) table
    | .ready m => do
      let packages ← (a.requested c).mapM (package m c.options (a.output.getD c.output))
      return .write packages c.format) := by
  rw [make, h.config, ok_bind, h.document, ok_bind]
  rfl

theorem renderFile_eq_ok {o : Options} {file : SourceFile} : m.renderFile target o artifact = .ok file ↔
    ∃ ls, target.render m o artifact = .ok ls ∧ file = ⟨target.fileName artifact, Lines.text ls⟩ := by
  rw [Model.renderFile, exceptMap_eq_ok]
  exact exists_congr fun ls => and_congr_right fun _ => eq_comm

theorem package_eq_ok {o : Options} {output : String} {p : Package} :
    package m o output target = .ok p ↔
    ∃ files, m.generate target o = .ok files ∧ p = ⟨target, Path.join output target.word, files⟩ := by
  simp only [package, bind_eq_ok, pure_eq_ok, mapError_eq_ok]
  exact exists_congr fun files => and_congr_right fun _ => eq_comm

/-- A client fails at one of its planned files. -/
theorem exists_of_package_eq_error {o : Options} {output : String}
    (h : package m o output target = .error f) :
    ∃ artifact ∈ m.plan o, ∃ e, target.render m o artifact = .error e ∧ f = .generate target e := by
  rcases bind_eq_error.mp h with h | ⟨files, -, h⟩
  · obtain ⟨e, he, rfl⟩ := mapError_eq_error.mp h
    obtain ⟨artifact, hmem, hr⟩ := exists_of_mapM_eq_error he
    refine ⟨artifact, hmem, e, ?_, rfl⟩
    cases hl : target.render m o artifact with
    | error e' => simpa [Model.renderFile, hl, Except.map] using hr
    | ok ls => simp [Model.renderFile, hl, Except.map] at hr
  · cases h

theorem reads_unique {c' : Config} {d' : Document} (h : Reads w a c d) (h' : Reads w a c' d') :
    c = c' ∧ d = d' := by
  obtain rfl : c = c' := Except.ok.inj (h.config.symm.trans h'.config)
  exact ⟨rfl, Except.ok.inj (h.document.symm.trans h'.document)⟩

/-- Only what is refused keeps a plan from being made, if what is read can be extracted. -/
theorem refused_of_make (hconverts : ∀ c d, Reads w a c d → d.Converts) (h : make w a = .error f) :
    Refused w a f := by
  cases hc : readConfig w with
  | error e =>
    rw [make, hc] at h
    obtain rfl : e = f := by simpa using h
    exact .config hc
  | ok c =>
    cases hd : readDocument w (a.input.getD c.input) with
    | error e =>
      rw [make, hc, ok_bind, hd] at h
      obtain rfl : e = f := by simpa using h
      exact .document hc hd
    | ok d =>
      have hread : Reads w a c d := ⟨hc, hd⟩
      have hextracts : Extracts w a c d := ⟨hread, hconverts c d hread⟩
      rw [make_of_reads hread] at h
      rcases bind_eq_error.mp h with h | ⟨p, hp, h⟩
      · obtain ⟨e, he, rfl⟩ := mapError_eq_error.mp h
        exact .mapping hextracts he
      · cases p with
        | bootstrap table => cases h
        | ready m =>
          rcases bind_eq_error.mp h with h | ⟨packages, -, h⟩
          · obtain ⟨target, ht, h⟩ := exists_of_mapM_eq_error h
            obtain ⟨artifact, hmem, e, he, rfl⟩ := exists_of_package_eq_error h
            exact .rendering hextracts (mapError_eq_ok.mp hp) ht hmem he
          · cases h

/-- What is refused is not refused for what can never be extracted. -/
theorem converts_of_refused (h : Refused w a f) (hread : Reads w a c d) : d.Converts := by
  cases h with
  | config hc => simp [hread.config] at hc
  | document hc hd =>
    obtain rfl := Except.ok.inj (hread.config.symm.trans hc)
    simp [hread.document] at hd
  | mapping hextracts _ =>
    obtain ⟨-, rfl⟩ := reads_unique hread hextracts.toReads
    exact hextracts.converts
  | rendering hextracts _ _ _ _ =>
    obtain ⟨-, rfl⟩ := reads_unique hread hextracts.toReads
    exact hextracts.converts

/-- What is written when the mapping is missing. -/
theorem make_of_missing (h : Reads w a c d) (hm : w.has (a.mappingPath c) = false) :
    make w a = .ok (.bootstrap (a.mappingPath c) (.identity d.extract)) := by
  rw [make_of_reads h, prepared, readMapping, if_neg (by simp [hm])]
  rfl

theorem exists_reads_of_make {plan : Plan} (h : make w a = .ok plan) : ∃ c d, Reads w a c d := by
  rw [make] at h
  obtain ⟨c, hc, h⟩ := bind_eq_ok.mp h
  obtain ⟨d, hd, -⟩ := bind_eq_ok.mp h
  exact ⟨c, d, hc, hd⟩

/-- A plan to write holds every requested client. -/
theorem exists_of_make_eq_write (hread : Reads w a c d) (h : make w a = .ok (.write packages format)) :
    ∃ m, prepared w a c d = .ok (.ready m) ∧
      (a.requested c).mapM (package m c.options (a.output.getD c.output)) = .ok packages ∧
      format = c.format := by
  rw [make_of_reads hread] at h
  obtain ⟨p, hp, h⟩ := bind_eq_ok.mp h
  cases p with
  | bootstrap table => cases h
  | ready m =>
    obtain ⟨packages', hpackages, h⟩ := bind_eq_ok.mp h
    cases h
    exact ⟨m, mapError_eq_ok.mp hp, hpackages, rfl⟩

theorem make_of_renders (h : Renders w a c d m packages) : make w a = .ok (.write packages c.format) := by
  rw [make_of_reads h.toReads, h.ready]
  change (do
    let packages ← (a.requested c).mapM (package m c.options (a.output.getD c.output))
    return Plan.write packages c.format) = _
  rw [h.packages]
  rfl

/-- With every client that is written, every planned file is rendered. -/
theorem exists_rendered
    (h : (a.requested c).mapM (package m c.options (a.output.getD c.output)) = .ok packages)
    (ht : target ∈ a.requested c) (hmem : artifact ∈ m.plan c.options) :
    ∃ ls, target.render m c.options artifact = .ok ls := by
  obtain ⟨p, hp⟩ := exists_mapM_eq_ok.mp ⟨packages, h⟩ target ht
  obtain ⟨files, hfiles, -⟩ := package_eq_ok.mp hp
  obtain ⟨file, hfile⟩ := exists_mapM_eq_ok.mp ⟨files, hfiles⟩ artifact hmem
  obtain ⟨ls, hls, -⟩ := renderFile_eq_ok.mp hfile
  exact ⟨ls, hls⟩

/-- One refusal is enough. -/
theorem exists_make_eq_error (h : Refused w a f) : ∃ f', make w a = .error f' := by
  cases hm : make w a with
  | error f' => exact ⟨f', rfl⟩
  | ok plan =>
    obtain ⟨c, d, hread⟩ := exists_reads_of_make hm
    cases h with
    | config hc => simp [hread.config] at hc
    | document hc hd =>
      obtain rfl := Except.ok.inj (hread.config.symm.trans hc)
      simp [hread.document] at hd
    | mapping hextracts he =>
      obtain ⟨rfl, rfl⟩ := reads_unique hread hextracts.toReads
      rw [make_of_reads hread, he] at hm
      cases hm
    | rendering hextracts hp ht hmem he =>
      obtain ⟨rfl, rfl⟩ := reads_unique hread hextracts.toReads
      rw [make_of_reads hread, hp] at hm
      obtain ⟨p, hready, hm⟩ := bind_eq_ok.mp hm
      cases hready
      obtain ⟨packages, hpackages, -⟩ := bind_eq_ok.mp hm
      obtain ⟨ls, hls⟩ := exists_rendered hpackages ht hmem
      rw [he] at hls
      cases hls

/-- What is written are the planned files of the requested clients. -/
theorem mem_entries_iff
    (h : (a.requested c).mapM (package m c.options (a.output.getD c.output)) = .ok packages)
    {e : Path × String} : e ∈ packages.flatMap Package.entries ↔
      ∃ target ∈ a.requested c, ∃ artifact ∈ m.plan c.options, ∃ ls,
        target.render m c.options artifact = .ok ls ∧
          e = (a.outputPath c target artifact, Lines.text ls) := by
  rw [List.mem_flatMap]
  constructor
  · rintro ⟨p, hp, he⟩
    obtain ⟨target, ht, hp⟩ := (mem_iff_of_mapM_eq_ok h).mp hp
    obtain ⟨files, hfiles, rfl⟩ := package_eq_ok.mp hp
    obtain ⟨file, hfile, rfl⟩ := List.mem_map.mp he
    obtain ⟨artifact, hmem, hfile⟩ := (mem_iff_of_mapM_eq_ok hfiles).mp hfile
    obtain ⟨ls, hls, rfl⟩ := renderFile_eq_ok.mp hfile
    exact ⟨target, ht, artifact, hmem, ls, hls, rfl⟩
  · rintro ⟨target, ht, artifact, hmem, ls, hls, rfl⟩
    obtain ⟨p, hp⟩ := exists_mapM_eq_ok.mp ⟨packages, h⟩ target ht
    obtain ⟨files, hfiles, rfl⟩ := package_eq_ok.mp hp
    have hfile : ⟨target.fileName artifact, Lines.text ls⟩ ∈ files :=
      (mem_iff_of_mapM_eq_ok hfiles).mpr ⟨artifact, hmem, renderFile_eq_ok.mpr ⟨ls, hls, rfl⟩⟩
    refine ⟨_, (mem_iff_of_mapM_eq_ok h).mpr ⟨target, ht, hp⟩, ?_⟩
    rw [Package.entries, List.mem_map, GenerateArguments.outputPath]
    exact ⟨_, hfile, rfl⟩

end Plan

/-! ### File names -/

/-- Which file has a name. -/
def artifactOf? : String → Option (Target × Artifact)
  | "types.ts" => some (.typescript, .types)
  | "schemas.ts" => some (.typescript, .validators)
  | "runtime.ts" => some (.typescript, .runtime)
  | "client.ts" => some (.typescript, .flatClient)
  | "services.ts" => some (.typescript, .serviceClient)
  | "streaming.ts" => some (.typescript, .streaming)
  | "index.ts" => some (.typescript, .index)
  | "types.py" => some (.python, .types)
  | "schemas.py" => some (.python, .validators)
  | "runtime.py" => some (.python, .runtime)
  | "client.py" => some (.python, .flatClient)
  | "services.py" => some (.python, .serviceClient)
  | "streaming.py" => some (.python, .streaming)
  | "__init__.py" => some (.python, .index)
  | _ => none

theorem artifactOf?_fileName (target : Target) (artifact : Artifact) :
    artifactOf? (target.fileName artifact) = some (target, artifact) := by
  cases target <;> cases artifact <;> rfl

theorem isName_fileName (target : Target) (artifact : Artifact) :
    Path.IsName (target.fileName artifact) := by
  cases target <;> cases artifact <;> decide

/-- Every file of a client is in the folder that its formatters are started in. -/
theorem outputPath_eq : a.outputPath c target artifact =
    Path.ofText (a.folder c target) ++ [target.fileName artifact] :=
  Path.ofText_join (isName_fileName target artifact)

/-- Every file of a run has a path of its own. -/
theorem outputPath_inj (h : a.outputPath c target artifact = a.outputPath c target' artifact') :
    target = target' ∧ artifact = artifact' := by
  rw [outputPath_eq, outputPath_eq] at h
  have hname : target.fileName artifact = target'.fileName artifact' := by
    simpa using congrArg List.getLast? h
  have hfile := congrArg artifactOf? hname
  rw [artifactOf?_fileName, artifactOf?_fileName] at hfile
  exact Prod.mk.inj (Option.some.inj hfile)

/-- So there is one text for each of them. -/
theorem text_of_mem_entries {text : String} {ls : Lines}
    (h : (a.requested c).mapM (Plan.package m c.options (a.output.getD c.output)) = .ok packages)
    (he : (a.outputPath c target artifact, text) ∈ packages.flatMap Package.entries)
    (hls : target.render m c.options artifact = .ok ls) : text = Lines.text ls := by
  obtain ⟨target', -, artifact', -, ls', hls', hentry⟩ := (Plan.mem_entries_iff h).mp he
  obtain ⟨hpath, htext⟩ := Prod.mk.inj hentry
  obtain ⟨rfl, rfl⟩ := outputPath_inj hpath
  rw [htext, Except.ok.inj (hls'.symm.trans hls)]

/-! ### Running -/

/-- The run ends as writing does: with what is there then, or with a failure that is reported last. -/
def Outcome.Ends (r : Outcome) (exit : Nat) : Except Failure Workspace → Prop
  | .ok w => r.exit = exit ∧ r.workspace = w
  | .error f => r.exit = 1 ∧ ∃ log : Lines, r.stderr = Lines.text log ++ f.report

theorem ends_finish (r : Writing) (last : Lines) (exit : Nat) : (r.finish last exit).Ends exit r.result := by
  obtain ⟨w, log, failed⟩ := r
  cases failed with
  | none => exact ⟨rfl, rfl⟩
  | some f => exact ⟨rfl, log, rfl⟩

namespace Plan

theorem run_bootstrap (programs : Programs) (w : Workspace) (path : String) (table : MappingTable) :
    (run programs w (.bootstrap path table)).Ends 2
      ((w.write path table.toText).mapError (.unwritten path)) := by
  rw [run, ← result_writeFile]
  exact ends_finish _ _ _

/-- The mapping is there then, or nothing is. -/
theorem run_bootstrap_cases (programs : Programs) (w : Workspace) (path : String) (table : MappingTable) :
    ((run programs w (.bootstrap path table)).exit = 2 ∧ (run programs w (.bootstrap path table)).workspace =
        { w with files := w.files.put (Path.ofText path) table.toText }) ∨
      ∃ e, (run programs w (.bootstrap path table)).Ends 1 (.error (.unwritten path e)) ∧
        (run programs w (.bootstrap path table)).workspace = w := by
  have hends := run_bootstrap programs w path table
  cases hw : w.write path table.toText with
  | ok w' =>
    rw [hw] at hends
    exact .inl ⟨hends.1, hends.2.trans (Workspace.write_eq_ok hw)⟩
  | error e =>
    rw [hw] at hends
    refine .inr ⟨e, hends, ?_⟩
    rw [run, writeFile, hw]
    rfl

theorem run_write (programs : Programs) (w : Workspace) (packages : List Package) (format : Bool) :
    (run programs w (.write packages format)).Ends 0
      (packages.foldlM (Package.written programs format) w) := by
  cases packages with
  | nil => exact ⟨rfl, rfl⟩
  | cons p packages =>
    have hresult := Writing.result_foldl (fun r p => Package.result_write programs format r p)
      (p :: packages) (w, [], none)
    rw [run]
    · exact (hresult.trans (ok_bind _ _)) ▸ ends_finish _ _ _
    · exact List.cons_ne_nil p packages

end Plan

/-- What a run of `generate` has come to. -/
structure Generates (programs : Programs) (w : Workspace) (a : GenerateArguments) (r : Outcome) : Prop where
  /-- What is refused leaves everything as it was, whatever else could have been rendered. -/
  refused : ∀ f, Refused w a f →
    r.exit = 1 ∧ r.workspace = w ∧ ∃ f', Refused w a f' ∧ r.stderr = f'.report
  /-- A missing mapping is written, and nothing else. -/
  bootstrapped : ∀ c d, Extracts w a c d → w.has (a.mappingPath c) = false →
    r.Ends 2 ((w.write (a.mappingPath c) (MappingTable.identity d.extract).toText).mapError
      (.unwritten (a.mappingPath c))) ∧
    (r.exit = 2 → r.workspace = { w with
      files := w.files.put (Path.ofText (a.mappingPath c)) (MappingTable.identity d.extract).toText }) ∧
    (r.exit ≠ 2 → r.workspace = w)
  /-- What is rendered is written, package by package, up to the first folder or file that fails. -/
  written : ∀ c d m packages, Renders w a c d m packages →
    r.Ends 0 (packages.foldlM (Package.written programs c.format) w)
  /-- Every planned file of every requested client holds what is rendered for it, and all others are as
  they were: all of them if nothing is to be formatted, and else those that no formatter touches. -/
  generated : ∀ c d, Extracts w a c d → r.exit = 0 → ∃ m, prepared w a c d = .ok (.ready m) ∧
    ∀ p, (c.format → ∀ target ∈ a.requested c, programs.Spares target (a.folder c target) p) →
      (∀ target ∈ a.requested c, ∀ artifact ∈ m.plan c.options, p = a.outputPath c target artifact →
        ∃ ls, target.render m c.options artifact = .ok ls ∧
          r.workspace.files.get? p = some (Lines.text ls)) ∧
      ((∀ target ∈ a.requested c, ∀ artifact ∈ m.plan c.options, p ≠ a.outputPath c target artifact) →
        r.workspace.files.get? p = w.files.get? p)
  /-- Nothing else can go wrong but writing. -/
  exits : (∀ c d, Reads w a c d → d.Converts) → r.exit = 0 ∨ r.exit = 2 ∨ (∃ f, Refused w a f) ∨
    ∃ f : Failure, f.isWriting ∧ r.Ends 1 (.error f)

theorem generates_of_error (hm : Plan.make w a = .error f) : Generates programs w a (.failure w [] f) where
  refused f' hf' := ⟨rfl, rfl, f,
    Plan.refused_of_make (fun _ _ => Plan.converts_of_refused hf') hm, String.empty_append⟩
  bootstrapped c d hextracts hmissing := by
    rw [Plan.make_of_missing hextracts.toReads hmissing] at hm
    cases hm
  written c d m packages hrenders := by
    rw [Plan.make_of_renders hrenders] at hm
    cases hm
  generated _ _ _ h := by cases h
  exits hconverts := .inr (.inr (.inl ⟨f, Plan.refused_of_make hconverts hm⟩))

theorem not_refused_of_make {plan : Plan} (hm : Plan.make w a = .ok plan) : ¬Refused w a f := by
  intro h
  obtain ⟨f', hf⟩ := Plan.exists_make_eq_error h
  rw [hm] at hf
  cases hf

theorem generates_of_bootstrap (hm : Plan.make w a = .ok (.bootstrap path table)) :
    Generates programs w a (Plan.run programs w (.bootstrap path table)) where
  refused _ h := (not_refused_of_make hm h).elim
  bootstrapped c d hextracts hmissing := by
    rw [Plan.make_of_missing hextracts.toReads hmissing] at hm
    cases hm
    refine ⟨Plan.run_bootstrap programs w _ _, ?_⟩
    rcases Plan.run_bootstrap_cases programs w _ _ with ⟨hexit, hthere⟩ | ⟨e, hends, hsame⟩
    · exact ⟨fun _ => hthere, fun h => (h hexit).elim⟩
    · refine ⟨fun h => ?_, fun _ => hsame⟩
      rw [hends.1] at h
      cases h
  written c d m packages hrenders := by
    rw [Plan.make_of_renders hrenders] at hm
    cases hm
  generated c d hextracts h := by
    rcases Plan.run_bootstrap_cases programs w path table with ⟨hexit, -⟩ | ⟨e, hends, -⟩
    · rw [hexit] at h
      cases h
    · rw [hends.1] at h
      cases h
  exits _ := by
    rcases Plan.run_bootstrap_cases programs w path table with ⟨hexit, -⟩ | ⟨e, hends, -⟩
    · exact .inr (.inl hexit)
    · exact .inr (.inr (.inr ⟨.unwritten path e, rfl, hends⟩))

theorem generates_of_write (hm : Plan.make w a = .ok (.write packages format)) :
    Generates programs w a (Plan.run programs w (.write packages format)) where
  refused _ h := (not_refused_of_make hm h).elim
  bootstrapped c d hextracts hmissing := by
    rw [Plan.make_of_missing hextracts.toReads hmissing] at hm
    cases hm
  written c d m packages' hrenders := by
    rw [Plan.make_of_renders hrenders] at hm
    cases hm
    exact Plan.run_write programs w _ _
  generated c d hextracts h := by
    obtain ⟨m, hready, hpackages, rfl⟩ := Plan.exists_of_make_eq_write hextracts.toReads hm
    refine ⟨m, hready, fun p hspares => ?_⟩
    have hends := Plan.run_write programs w packages c.format
    cases hwritten : packages.foldlM (Package.written programs c.format) w with
    | error f =>
      rw [hwritten] at hends
      rw [hends.1] at h
      cases h
    | ok w' =>
      rw [hwritten] at hends
      have hfiles : Entries.get? w'.files p =
          Entries.get? (w.files.putAll (packages.flatMap Package.entries)) p := by
        refine get?_written_all (fun hformat q hq => ?_) hwritten
        obtain ⟨target, ht, hq⟩ := (mem_iff_of_mapM_eq_ok hpackages).mp hq
        obtain ⟨files, -, rfl⟩ := Plan.package_eq_ok.mp hq
        exact hspares hformat target ht
      rw [hends.2, hfiles]
      refine ⟨fun target ht artifact hmem hp => ?_, fun hp => ?_⟩
      · subst hp
        obtain ⟨ls, hls⟩ := Plan.exists_rendered hpackages ht hmem
        have hentry :
            (a.outputPath c target artifact, Lines.text ls) ∈ packages.flatMap Package.entries :=
          (Plan.mem_entries_iff hpackages).mpr ⟨target, ht, artifact, hmem, ls, hls, rfl⟩
        refine ⟨ls, hls, Entries.get?_putAll_of_mem (fun e he hpath => ?_) (Entries.mem_keys_of_mem hentry)⟩
        refine text_of_mem_entries hpackages ?_ hls
        rw [← hpath]
        exact he
      · refine Entries.get?_putAll_of_not_mem fun hk => ?_
        obtain ⟨e, he, hpath⟩ := List.mem_map.mp hk
        obtain ⟨target, ht, artifact, hmem, ls, -, hentry⟩ := (Plan.mem_entries_iff hpackages).mp he
        exact hp target ht artifact hmem (by rw [← hpath, hentry])
  exits _ := by
    have hends := Plan.run_write programs w packages format
    cases hwritten : packages.foldlM (Package.written programs format) w with
    | ok w' =>
      rw [hwritten] at hends
      exact .inl hends.1
    | error f =>
      rw [hwritten] at hends
      exact .inr (.inr (.inr ⟨f, isWriting_of_written_all hwritten, hends⟩))

theorem generates (programs : Programs) (w : Workspace) (a : GenerateArguments) :
    Generates programs w a (generate programs w a) := by
  rw [generate]
  split
  · rename_i plan hm
    cases plan with
    | bootstrap path table => exact generates_of_bootstrap hm
    | write packages format => exact generates_of_write hm
  · rename_i f hm
    exact generates_of_error hm

/-- Formatters that keep to their folder leave all as it was outside of the folders of the clients. -/
theorem Generates.outside {r : Outcome} {p : Path} (h : Generates programs w a r) (hkeep : programs.KeepToFolder)
    (hextracts : Extracts w a c d) (hexit : r.exit = 0)
    (hp : ∀ target ∈ a.requested c, ¬Path.ofText (a.folder c target) <+: p) :
    r.workspace.files.get? p = w.files.get? p := by
  obtain ⟨m, -, hfiles⟩ := h.generated c d hextracts hexit
  have hspares : ∀ target ∈ a.requested c, programs.Spares target (a.folder c target) p :=
    fun target ht => hkeep.spares (hp target ht)
  refine (hfiles p fun _ => hspares).2 fun target ht artifact _ heq => hp target ht ?_
  rw [heq, outputPath_eq]
  exact List.prefix_append _ _

/-- A project whose clients are to be formatted. -/
def pets : Workspace := .ofFiles [
  ([".sdkgen.yaml"], "input: openapi.json\nformat: true\n"),
  (["openapi.json"],
    "\x7b\"openapi\":\"3.1\",\"info\":\x7b\"title\":\"Pets\",\"version\":\"1\"\x7d,"
      ++ "\"paths\":\x7b\"/\":\x7b\"get\":\x7b\"responses\":\x7b\x7d\x7d\x7d\x7d,"
      ++ "\"components\":\x7b\"schemas\":\x7b\"Pet\":\x7b\x7d\x7d\x7d\x7d")]

def noArguments : GenerateArguments := ⟨none, none, none, []⟩

def petsConfig : Config := { Config.default with input := "openapi.json", format := true }

/-- What a file holds once the files in the folder have been formatted, each by one more line break. -/
def formattedText (folder : String) (p : Path) (text : String) : String :=
  if Path.ofText folder <+: p then text ++ "\n" else text

/-- On this machine, `ruff` is the only program that is installed. -/
def onlyRuff : Programs := fun c folder w =>
  if c.program = "ruff" then
    .ok ({ w with files := w.files.map fun e => (e.1, formattedText folder e.1 e.2) }, .success)
  else noPrograms c folder w

theorem keepToFolder_onlyRuff : onlyRuff.KeepToFolder := by
  intro c folder w w' ending h p hp
  rw [onlyRuff] at h
  split at h
  · cases h
    have hsame : formattedText folder p = id := funext fun _ => if_neg hp
    rw [Entries.get?_mapValues, hsame, Option.map_id_apply]
  · cases h

theorem spares_onlyRuff (folder : String) (path : Path) : onlyRuff.Spares .typescript folder path := by
  intro c hc w w' ending h
  obtain rfl := List.mem_singleton.mp hc
  cases h

/-- The same project with a mapping that is still empty. -/
def mappedPets : Workspace := pets.put ["sdkgen.mapping.json"] "\x7b\x7d"

theorem exists_extracts_pets :
    ∃ d, Extracts pets noArguments petsConfig d ∧ Extracts mappedPets noArguments petsConfig d := by
  have hconfig : readConfig pets = .ok petsConfig ∧ readConfig mappedPets = .ok petsConfig := by decide +kernel
  have hsame : mappedPets.read "openapi.json" = pets.read "openapi.json" := by decide +kernel
  have hconverts : (readDocument pets "openapi.json").toOption.any (fun d => d.Converts) := by decide +kernel
  cases hd : readDocument pets "openapi.json" with
  | error f => simp [hd, Except.toOption] at hconverts
  | ok d =>
    rw [hd] at hconverts
    have hd' : readDocument mappedPets "openapi.json" = .ok d := by
      rw [readDocument, hsame]
      exact hd
    have hconverts : d.Converts := of_decide_eq_true hconverts
    exact ⟨d, ⟨⟨hconfig.1, hd⟩, hconverts⟩, ⟨⟨hconfig.2, hd'⟩, hconverts⟩⟩

end ClientGen.CommandLine
