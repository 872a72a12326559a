import ClientGen.Workspace
import ClientGen.Proofs.Entries
import ClientGen.Proofs.Outcome

/-! Where a written path leads, and what writing there changes: one file, which is then read again, and
no file at all where a folder is made. -/
namespace ClientGen
variable {w w' : Workspace} {path text folder name : String} {p q start : Path}
  {parts outer : List String}

namespace Path

/-- A plain name is one part of a path. -/
def IsName (name : String) : Prop := '/' ∉ name.toList ∧ name ≠ "" ∧ name ≠ "." ∧ name ≠ ".."

instance (name : String) : Decidable (IsName name) := inferInstanceAs (Decidable (_ ∧ _))

/-- The parts before a slash and those after it. -/
theorem parts_append_slash (before after : List Char) :
    Path.parts (String.ofList (before ++ '/' :: after)) =
    Path.parts (String.ofList before) ++ Path.parts (String.ofList after) := by
  simp only [Path.parts, String.toList_ofList, List.splitOn_append_cons_self, List.map_append,
    List.filter_append]

theorem parts_name (h : IsName name) : Path.parts name = [name] := by
  rw [Path.parts, List.splitOn_eq_singleton h.1]
  simp [h.2.1]

theorem parts_join (h : IsName name) : Path.parts (join folder name) = Path.parts folder ++ [name] := by
  have hname : Path.parts (String.ofList name.toList) = [name] := by
    rw [String.ofList_toList, parts_name h]
  rw [join]
  split
  · rename_i hf
    obtain rfl : folder = "" := String.toList_eq_nil_iff.mp (List.getLast?_eq_none_iff.mp hf)
    rw [String.empty_append, parts_name h]
    rfl
  · rename_i hf
    obtain ⟨before, hb⟩ := List.getLast?_eq_some_iff.mp hf
    have hfolder : folder = String.ofList (before ++ '/' :: []) :=
      String.toList_inj.mp (by simpa using hb)
    have hjoin : folder ++ name = String.ofList (before ++ '/' :: name.toList) :=
      String.toList_inj.mp (by simp [hb])
    rw [hjoin, parts_append_slash, hname, hfolder, parts_append_slash]
    simp [Path.parts]
  · have hjoin : folder ++ "/" ++ name = String.ofList (folder.toList ++ '/' :: name.toList) :=
      String.toList_inj.mp (by simp)
    rw [hjoin, parts_append_slash, hname, String.ofList_toList]

theorem start_join (h : IsName name) : Path.start (join folder name) = Path.start folder := by
  have hhead : (join folder name).toList.head? = some '/' ↔ folder.toList.head? = some '/' := by
    rw [join]
    cases hf : folder.toList with
    | nil =>
      obtain rfl : folder = "" := String.toList_eq_nil_iff.mp hf
      simpa using fun hname => h.1 (List.mem_of_head? hname)
    | cons c rest => split <;> simp [hf]
  simp only [Path.start, hhead]

/-- A name within a folder is one part further. -/
theorem ofText_join (h : IsName name) : ofText (join folder name) = ofText folder ++ [name] := by
  rw [ofText, parts_join h, start_join h, List.foldl_append, List.foldl_cons, List.foldl_nil, step,
    if_neg h.2.2.1, if_neg h.2.2.2]
  rfl

end Path

namespace Workspace

/-- What is there once a text is put under a path. -/
def withFile (w : Workspace) (p : Path) (text : String) : Workspace :=
  { w with files := Entries.put w.files p text }

theorem isFile_withFile : (w.withFile p text).isFile q = true ↔ q = p ∨ w.isFile q = true := by
  rw [isFile, isFile, Entries.has_eq_true_iff, Entries.has_eq_true_iff, withFile, Entries.mem_keys_put]

theorem isFolder_start (w : Workspace) (text : String) : w.isFolder (Path.start text) := by
  rw [Path.start, isFolder]
  split <;> simp

theorem enter_eq_ok {part : String} : w.enter p part = .ok q ↔
    ¬w.isFile p ∧ ¬isLong part ∧ (w.isFile (p.step part) ∨ w.isFolder (p.step part)) ∧
      p.step part = q := by
  rw [enter]
  split
  · simp_all
  · split
    · simp_all
    · split
      · simp_all
      · simp_all

/-- A path that can be followed leads where it says. -/
theorem walk_eq_ok (h : w.walk start parts = .ok p) : p = parts.foldl Path.step start := by
  rw [walk] at h
  induction parts generalizing start with
  | nil =>
    cases h
    rfl
  | cons part parts ih =>
    rw [List.foldlM_cons] at h
    obtain ⟨q, hq, h⟩ := bind_eq_ok.mp h
    obtain ⟨-, -, -, rfl⟩ := enter_eq_ok.mp hq
    exact ih h

/-- A new file stands in nobody's way, since only folders can be entered. -/
theorem walk_withFile (hp : ¬w.isFolder p) (hstart : w.isFile start ∨ w.isFolder start)
    (h : w.walk start parts = .ok q) : (w.withFile p text).walk start parts = .ok q := by
  rw [walk] at h ⊢
  induction parts generalizing start with
  | nil => exact h
  | cons part parts ih =>
    rw [List.foldlM_cons] at h ⊢
    obtain ⟨r, hr, h⟩ := bind_eq_ok.mp h
    obtain ⟨hfile, hlong, hthere, rfl⟩ := enter_eq_ok.mp hr
    -- What was entered is a folder, and the file was put where there is none.
    have hne : start ≠ p := by
      rintro rfl
      exact hstart.elim hfile hp
    have hnext : (w.withFile p text).enter start part = .ok (start.step part) :=
      enter_eq_ok.mpr ⟨by simp [isFile_withFile, hne, hfile], hlong,
        hthere.imp_left fun h => isFile_withFile.mpr (.inr h), rfl⟩
    rw [hnext]
    exact ih hthere h

/-- A file belongs in a folder that is there, under a name that leads nowhere else. -/
theorem place?_eq_ok (h : w.place? start parts = .ok (some p)) :
    ∃ outer name folder, parts = outer ++ [name] ∧ w.walk start outer = .ok folder ∧
      ¬w.isFile folder ∧ folder.step name = folder ++ [name] ∧ p = folder ++ [name] := by
  rw [place?] at h
  obtain ⟨folder, hw, h⟩ := bind_eq_ok.mp h
  split at h
  · cases h
  · rename_i hfile
    split at h
    · cases h
    · cases h
    · cases h
    · rename_i name hdot hdots hlast
      cases h
      obtain ⟨outer, rfl⟩ := List.getLast?_eq_some_iff.mp hlast
      rw [List.dropLast_concat] at hw
      refine ⟨outer, name, folder, rfl, hw, hfile, ?_, rfl⟩
      rw [Path.step, if_neg hdot, if_neg hdots]

theorem exists_place_of_write (h : w.write path text = .ok w') : ∃ p,
    check path = .ok () ∧ w.place? (Path.start path) (Path.parts path) = .ok (some p) ∧
      ¬endsWithSlash path ∧ ¬p.getLast?.any isLong ∧ ¬w.isFolder p ∧ w' = w.withFile p text := by
  rw [write] at h
  obtain ⟨_, hcheck, h⟩ := bind_eq_ok.mp h
  obtain ⟨place, hplace, h⟩ := bind_eq_ok.mp h
  split at h
  · cases h
  · rename_i p
    split at h
    · cases h
    · split at h
      · cases h
      · split at h
        · cases h
        · cases h
          exact ⟨p, hcheck, hplace, ‹_›, ‹_›, ‹_›, rfl⟩

/-- Writing puts one text under the path, and changes nothing else. -/
theorem write_eq_ok (h : w.write path text = .ok w') :
    w' = { w with files := Entries.put w.files (Path.ofText path) text } := by
  obtain ⟨p, -, hplace, -, -, -, rfl⟩ := exists_place_of_write h
  obtain ⟨outer, name, folder, hparts, hwalk, -, hstep, rfl⟩ := place?_eq_ok hplace
  have hpath : Path.ofText path = folder ++ [name] := by
    rw [Path.ofText, hparts, List.foldl_append, ← walk_eq_ok hwalk]
    exact hstep
  rw [hpath]
  rfl

/-- What was written is read again. -/
theorem read_write (h : w.write path text = .ok w') : w'.read path = .ok text := by
  obtain ⟨p, hcheck, hplace, hslash, hlong, hfolder, rfl⟩ := exists_place_of_write h
  obtain ⟨outer, name, folder, hparts, hwalk, hfile, hstep, rfl⟩ := place?_eq_ok hplace
  have houter : (w.withFile (folder ++ [name]) text).walk (Path.start path) outer = .ok folder :=
    walk_withFile hfolder (.inr (w.isFolder_start path)) hwalk
  have hlast : (w.withFile (folder ++ [name]) text).enter folder name = .ok (folder ++ [name]) :=
    enter_eq_ok.mpr ⟨by simp [isFile_withFile, hfile], by simpa using hlong,
      .inl (isFile_withFile.mpr (.inl hstep)), hstep⟩
  have hfind : (w.withFile (folder ++ [name]) text).find path = .ok (folder ++ [name]) := by
    rw [walk] at houter
    rw [find, hcheck, hparts, walk, List.foldlM_append, ok_bind, houter, ok_bind, List.foldlM_cons,
      hlast]
    simp [hslash]
  rw [read, hfind, ok_bind, withFile, Entries.get?_put, if_pos rfl]

theorem makeFolder_eq_ok (h : w.makeFolder start parts = .ok w') : w'.files = w.files := by
  rw [makeFolder] at h
  obtain ⟨place, -, h⟩ := bind_eq_ok.mp h
  split at h
  · cases h
  · split at h
    · cases h
    · split at h
      · cases h
      · cases h
        rfl

theorem files_ensureFolder : (w.ensureFolder start parts).1.files = w.files := by
  rw [ensureFolder]
  split
  · rename_i h
    exact makeFolder_eq_ok h
  · rfl

theorem files_ensureFolders : (w.ensureFolders start outer).1.files = w.files := by
  induction outer with
  | nil => rfl
  | cons part outer ih =>
    rw [ensureFolders]
    split
    · split
      · rename_i w' hw
        rw [files_ensureFolder, ← ih, hw]
      · exact ih
    · exact files_ensureFolder

/-- Folders are made beside the files. -/
theorem files_makeFolders : (w.makeFolders path).1.files = w.files := by
  rw [makeFolders]
  split
  · rfl
  · exact files_ensureFolders

end Workspace
end ClientGen
