import ClientGen.CommandLine.Run
import ClientGen.Proofs.Workspace

/-! Writing the files of packages, one after the other. It ends with the first folder that cannot be made or file
that cannot be written, and otherwise it comes to what the formatters make of the files. -/
namespace ClientGen.CommandLine
variable {programs : Programs} {w w' : Workspace} {r : Writing} {p : Package} {packages : List Package}
  {format : Bool} {f : Failure} {path : Path} {target : Target} {folder : String}

/-- Whether a file or a folder could not be written. -/
def Failure.isWriting : Failure → Bool
  | .unwritten _ _ => true
  | .folder _ _ => true
  | _ => false

/-! ### What writing comes to -/

namespace Package

/-- The files of a package, by the paths that they are written to. -/
def entries (p : Package) : Entries Path String :=
  p.files.map fun f => (Path.ofText (Path.join p.folder f.name), f.text)

def opened (p : Package) (w : Workspace) : Except Failure Workspace :=
  match w.makeFolders p.folder with
  | (w, none) => .ok w
  | (_, some e) => .error (.folder p.folder e)

def put (p : Package) (w : Workspace) (f : SourceFile) : Except Failure Workspace :=
  let path := Path.join p.folder f.name
  (w.write path f.text).mapError (.unwritten path)

def formatted (programs : Programs) (format : Bool) (p : Package) (w : Workspace) : Workspace :=
  if format then (programs.start p.folder (formatters p.target) w).1 else w

/-- What is there once the package is written and formatted, or else the first failure. -/
def written (programs : Programs) (format : Bool) (w : Workspace) (p : Package) : Except Failure Workspace := do
  let w ← p.opened w
  let w ← p.files.foldlM p.put w
  return p.formatted programs format w

end Package

namespace Writing

/-- What is there so far, or the failure that has ended it. -/
def result : Writing → Except Failure Workspace
  | (w, _, none) => .ok w
  | (_, _, some f) => .error f

theorem result_andThen (r : Writing) (next : Workspace → Writing) :
    (r.andThen next).result = r.result >>= fun w => (next w).result := by
  obtain ⟨w, said, failed⟩ := r
  cases failed with
  | some f => rfl
  | none =>
    rw [andThen]
    generalize hnext : next w = s
    obtain ⟨w', more, failed⟩ := s
    cases failed <;> simp [result, hnext]

theorem result_say (r : Writing) (line : String) : (r.say line).result = r.result := by
  rw [say, result_andThen]
  cases r.result <;> rfl

theorem result_foldl {α : Type} {next : Writing → α → Writing} {step : Workspace → α → Except Failure Workspace}
    (h : ∀ r x, (next r x).result = r.result >>= fun w => step w x) (xs : List α) (r : Writing) :
    (xs.foldl next r).result = r.result >>= fun w => xs.foldlM step w := by
  induction xs generalizing r with
  | nil => cases hr : r.result <;> simp [hr]
  | cons x xs ih =>
    rw [List.foldl_cons, ih, h]
    cases r.result <;> simp [List.foldlM_cons]

end Writing

theorem result_writeFile (failure : FileError → Failure) (path text : String) (log : Lines) (w : Workspace) :
    (writeFile failure path text log w).result = (w.write path text).mapError failure := by
  rw [writeFile]
  cases w.write path text <;> rfl

theorem result_makeFolders (p : Package) (w : Workspace) : (makeFolders p.folder w).result = p.opened w := by
  rw [makeFolders, Package.opened]
  obtain ⟨w', e⟩ := w.makeFolders p.folder
  cases e <;> rfl

namespace Package

theorem result_format (programs : Programs) (format : Bool) (p : Package) (w : Workspace) :
    (p.format programs format w).result = .ok (p.formatted programs format w) := by
  rw [Package.format, formatted]
  split <;> rfl

/-- What is said while a package is written does not matter. -/
theorem result_write (programs : Programs) (format : Bool) (r : Writing) (p : Package) :
    (p.write programs format r).result = r.result >>= fun w => written programs format w p := by
  have hfiles (r : Writing) : (p.files.foldl (fun r f => r.andThen (p.writeFile f)) r).result =
      r.result >>= fun w => p.files.foldlM p.put w := by
    refine Writing.result_foldl (fun r f => ?_) p.files r
    rw [Writing.result_andThen]
    exact bind_congr fun w => result_writeFile _ _ _ _ w
  rw [Package.write, Writing.result_say, Writing.result_andThen, hfiles, Writing.result_andThen,
    Writing.result_say, bind_assoc, bind_assoc]
  refine bind_congr fun w => ?_
  simp only [result_makeFolders, result_format, written]
  rfl

end Package

/-! ### What is written where -/

/-- Started in a folder for a target, no formatter touches the file at the path. -/
def Programs.Spares (programs : Programs) (target : Target) (folder : String) (path : Path) : Prop :=
  ∀ c ∈ formatters target, ∀ w w' ending, programs c folder w = .ok (w', ending) →
    Entries.get? w'.files path = Entries.get? w.files path

/-- Programs change files in the folder only that they are started in. -/
def Programs.KeepToFolder (programs : Programs) : Prop :=
  ∀ c folder w w' ending, programs c folder w = .ok (w', ending) →
    ∀ path, ¬Path.ofText folder <+: path → Entries.get? w'.files path = Entries.get? w.files path

theorem Programs.KeepToFolder.spares (h : programs.KeepToFolder) (hpath : ¬Path.ofText folder <+: path) :
    programs.Spares target folder path := fun c _ w w' ending hrun => h c folder w w' ending hrun path hpath

theorem get?_start {cs : List Invocation} (h : ∀ c ∈ cs, ∀ w w' ending, programs c folder w = .ok (w', ending) →
      Entries.get? w'.files path = Entries.get? w.files path) (w : Workspace) :
    Entries.get? (programs.start folder cs w).1.files path = Entries.get? w.files path := by
  induction cs generalizing w with
  | nil => rfl
  | cons c cs ih =>
    obtain ⟨hc, hcs⟩ := List.forall_mem_cons.mp h
    rw [Programs.start]
    split
    · rename_i w' ending hrun
      exact (ih hcs w').trans (hc w w' ending hrun)
    · rfl

namespace Package

theorem files_opened (h : p.opened w = .ok w') : w'.files = w.files := by
  have hfiles : (w.makeFolders p.folder).1.files = w.files := Workspace.files_makeFolders
  rw [opened] at h
  split at h
  · rename_i hmade
    cases h
    rw [← hfiles, hmade]
  · cases h

theorem files_put {file : SourceFile} (h : p.put w file = .ok w') :
    w'.files = w.files.put (Path.ofText (Path.join p.folder file.name)) file.text := by
  rw [Workspace.write_eq_ok (mapError_eq_ok.mp h)]

theorem files_foldlM_put {files : List SourceFile} (h : files.foldlM p.put w = .ok w') : w'.files =
    w.files.putAll (files.map fun f => (Path.ofText (Path.join p.folder f.name), f.text)) := by
  induction files generalizing w with
  | nil =>
    cases h
    rfl
  | cons f files ih =>
    rw [List.foldlM_cons] at h
    obtain ⟨next, hnext, h⟩ := bind_eq_ok.mp h
    rw [ih h, files_put hnext]
    rfl

theorem get?_formatted (hs : format → programs.Spares p.target p.folder path) :
    Entries.get? (p.formatted programs format w).files path = Entries.get? w.files path := by
  rw [formatted]
  split
  · exact get?_start (hs ‹_›) w
  · rfl

/-- A package is written file by file, and a file that formatters spare stays as it is written. -/
theorem get?_written (hs : format → programs.Spares p.target p.folder path)
    (h : p.written programs format w = .ok w') :
    Entries.get? w'.files path = Entries.get? (w.files.putAll p.entries) path := by
  obtain ⟨opened, hopened, h⟩ := bind_eq_ok.mp h
  obtain ⟨filled, hfilled, h⟩ := bind_eq_ok.mp h
  cases h
  rw [get?_formatted hs, files_foldlM_put hfilled, files_opened hopened, entries]

/-- Whatever the formatters do, only a folder or a file can fail. -/
theorem isWriting_of_written (h : p.written programs format w = .error f) : f.isWriting := by
  rcases bind_eq_error.mp h with h | ⟨opened, -, h⟩
  · rw [Package.opened] at h
    split at h
    · cases h
    · cases h
      rfl
  · rcases bind_eq_error.mp h with h | ⟨filled, -, h⟩
    · obtain ⟨_, _, _, _, -, -, hput⟩ := foldlM_eq_error.mp h
      obtain ⟨e, -, rfl⟩ := mapError_eq_error.mp hput
      rfl
    · cases h

end Package

/-- Packages are written one by one, each over those before it. -/
theorem get?_written_all (hs : format → ∀ p ∈ packages, programs.Spares p.target p.folder path)
    (h : packages.foldlM (Package.written programs format) w = .ok w') :
    Entries.get? w'.files path = Entries.get? (w.files.putAll (packages.flatMap Package.entries)) path := by
  induction packages generalizing w with
  | nil =>
    cases h
    rfl
  | cons p packages ih =>
    rw [List.foldlM_cons] at h
    obtain ⟨next, hnext, h⟩ := bind_eq_ok.mp h
    have hthis := Package.get?_written (fun hformat => hs hformat p List.mem_cons_self) hnext
    rw [ih (fun hformat q hq => hs hformat q (List.mem_cons_of_mem p hq)) h, List.flatMap_cons,
      Entries.putAll_append]
    exact Entries.get?_putAll_congr hthis _

theorem isWriting_of_written_all (h : packages.foldlM (Package.written programs format) w = .error f) :
    f.isWriting := by
  obtain ⟨_, _, _, _, -, -, h⟩ := foldlM_eq_error.mp h
  exact Package.isWriting_of_written h

end ClientGen.CommandLine
