import RpcBindings.Generate.Write
import RpcBindings.Proofs.Ways

/-!
# Writing in one step changes one file

Writing a file in one step either replaces what stands at its path and nothing else, or fails and changes nothing. The
temporary file is gone in both cases. It succeeds exactly if the path leads to a place without a directory and the
temporary file can be created beside it.
-/

namespace RpcBindings.Generate

open Files

theorem slash_not_mem_temporary {name : Text} (hslash : Path.slash ∉ name) (n : Nat) :
    Path.slash ∉ temporaryStem name ++ Text.ofNat n := by
  have hdigits : Path.slash ∉ Text.ofNat n := fun hin => absurd (Text.isDigit_of_mem_ofNat hin) (by decide)
  simp only [temporaryStem, List.mem_append, not_or]
  exact ⟨⟨⟨by decide, hslash⟩, by decide⟩, hdigits⟩

theorem isName_temporary (name : Text) (n : Nat) : Path.IsName (temporaryStem name ++ Text.ofNat n) := by
  have hdot : ("." : Text).length = 1 := by decide
  have htmp : (".tmp." : Text).length = 5 := by decide
  refine Path.isName_of_length ?_
  simp only [temporaryStem, List.length_append, hdot, htmp]
  omega

/-- A file can be written at a path: no directory stands there, and a temporary file can stand beside it. -/
def Writable (files : System) (path : Text) : Prop :=
  (∃ loc, files.locate path = .ok loc ∧ files.tree.get? loc ≠ some .directory) ∧
    ∃ temporary loc, temporaryPath files path = .ok temporary ∧ files.locate temporary = .ok loc

/-- A file has another content or has come to be, and nothing else is different. -/
structure Replaced (loc : Location) (content : Text) (s s' : System) : Prop where
  cwd : s'.cwd = s.cwd
  numbers : s'.numbers = s.numbers
  entry : ∀ l, s'.tree.get? l = if l = loc then some (.file content) else s.tree.get? l

structure Unchanged (s s' : System) : Prop where
  cwd : s'.cwd = s.cwd
  numbers : s'.numbers = s.numbers
  entry : ∀ l, s'.tree.get? l = s.tree.get? l

variable {files staged : System} {path content temporary : Text} {loc : Location}

theorem Replaced.sameDirectories {s s' : System} (h : Replaced loc content s s')
    (hloc : s.tree.get? loc ≠ some .directory) : s.SameDirectories s' := by
  refine ⟨h.cwd, h.numbers, fun l => ?_⟩
  rw [h.entry]
  by_cases hl : l = loc
  · simp [hl, hloc]
  · rw [if_neg hl]

theorem Unchanged.refl (s : System) : Unchanged s s := ⟨rfl, rfl, fun _ => rfl⟩

theorem Unchanged.sameDirectories {s s' : System} (h : Unchanged s s') : s.SameDirectories s' :=
  ⟨h.cwd, h.numbers, fun l => by rw [h.entry]⟩

theorem replaced_of_write (htemporary : temporaryPath files path = .ok temporary)
    (h : files.write temporary content = .ok staged) :
    ∃ loc, files.locate temporary = .ok loc ∧ files.tree.get? loc = none ∧ Replaced loc content files staged := by
  obtain ⟨loc, hloc, hdir⟩ := System.locate_of_write h
  rw [System.write_of_locate hloc hdir] at h
  obtain rfl := Except.ok.inj h
  refine ⟨loc, hloc, System.get?_eq_none_of_freePath htemporary hloc, rfl, rfl, ?_⟩
  exact Tree.get?_put (System.ne_nil_of_not_directory hdir) (System.locate_parent hloc) hdir

theorem writeWhole_of_writable (hloc : files.locate path = .ok loc) (hdir : files.tree.get? loc ≠ some .directory)
    {place : Location} (htemporary : temporaryPath files path = .ok temporary)
    (hplace : files.locate temporary = .ok place) (content : Text) :
    (writeWhole files path content).fault = none ∧ Replaced loc content files (writeWhole files path content).files := by
  have hfree : files.tree.get? place = none := System.get?_eq_none_of_freePath htemporary hplace
  have hnot : files.tree.get? place ≠ some .directory := by simp [hfree]
  have hwrite := System.write_of_locate hplace hnot content
  obtain ⟨place', hplace', -, hstaged⟩ := replaced_of_write htemporary hwrite
  obtain rfl := Except.ok.inj (hplace.symm.trans hplace')
  generalize { files with tree := files.tree.put place (.file content) } = staged at hwrite hstaged
  have hsame := hstaged.sameDirectories hnot
  have hfile : staged.tree.get? place = some (.file content) := (hstaged.entry place).trans (if_pos rfl)
  have hlocStaged := hsame.locate.mpr hloc
  have hdirStaged : staged.tree.get? loc ≠ some .directory := fun h => hdir ((hsame.directory_iff loc).mp h)
  have hrename := System.rename_of_locate (hsame.locate.mpr hplace) hfile hlocStaged hdirStaged
  simp only [writeWhole, htemporary, hwrite, bind, Except.bind, pure, Except.pure, hrename, true_and]
  -- the path may lead to the place of the temporary file, which is then the file that was wanted
  split
  next heq => exact heq ▸ hstaged
  next hne =>
    refine ⟨hstaged.cwd, hstaged.numbers, fun l => ?_⟩
    rw [Tree.get?_move hfile (System.ne_nil_of_not_directory hdirStaged) (System.locate_parent hlocStaged) hdirStaged
      (Ne.symm hne), hstaged.entry]
    by_cases hl : l = place
    · simp [hl, hfree]
    · simp [hl]

/-- Without its temporary file, a file system is what it was. -/
theorem unchanged_discard (hplace : files.locate temporary = .ok loc) (hfree : files.tree.get? loc = none)
    (hstaged : Replaced loc content files staged) : Unchanged files (discard staged temporary) := by
  have hsame := hstaged.sameDirectories (by simp [hfree])
  have hfile : staged.tree.get? loc = some (.file content) := (hstaged.entry loc).trans (if_pos rfl)
  have hnot : staged.tree.get? loc ≠ some .directory := by simp [hfile]
  rw [discard, System.remove_file (hsame.locate.mpr hplace) hfile]
  refine ⟨hstaged.cwd, hstaged.numbers, fun l => ?_⟩
  rw [Tree.get?_erase (System.ne_nil_of_not_directory hnot) (System.locate_parent (hsame.locate.mpr hplace)) hnot,
    hstaged.entry]
  by_cases hl : l = loc
  · simp [hl, hfree]
  · simp [hl]

theorem writeWhole_of_not_writable (h : ¬ Writable files path) (content : Text) :
    (∃ f, (writeWhole files path content).fault = some f ∧ f.is .io = true) ∧
      Unchanged files (writeWhole files path content).files := by
  unfold writeWhole
  simp only
  split
  next => exact ⟨⟨_, rfl, rfl⟩, .refl files⟩
  next temporary staged hcreated =>
    obtain ⟨temporary', htemporary, hcreated⟩ := bind_eq_ok.mp hcreated
    obtain ⟨staged', hwrite, hcreated⟩ := bind_eq_ok.mp hcreated
    obtain ⟨rfl, rfl⟩ := Prod.mk.inj (Except.ok.inj hcreated)
    obtain ⟨place, hplace, hfree, hstaged⟩ := replaced_of_write htemporary hwrite
    have hsame := hstaged.sameDirectories (by simp [hfree])
    have hfile : staged'.tree.get? place = some (.file content) := (hstaged.entry place).trans (if_pos rfl)
    split
    next hrename =>
      obtain ⟨loc, hloc, hdir⟩ := System.locate_of_rename (hsame.locate.mpr hplace) hfile hrename
      refine absurd ⟨⟨loc, hsame.locate.mp hloc, fun h => hdir ((hsame.directory_iff loc).mpr h)⟩, ?_⟩ h
      exact ⟨temporary', place, htemporary, hplace⟩
    next => exact ⟨⟨_, rfl, rfl⟩, unchanged_discard hplace hfree hstaged⟩

theorem writeWhole_fault_io {f : Fault} (h : (writeWhole files path content).fault = some f) : f.is .io = true := by
  by_cases hw : Writable files path
  · obtain ⟨⟨loc, hloc, hdir⟩, temporary, place, htemporary, hplace⟩ := hw
    rw [(writeWhole_of_writable hloc hdir htemporary hplace content).1] at h
    cases h
  · obtain ⟨⟨f', hf', hio⟩, -⟩ := writeWhole_of_not_writable hw content
    rw [hf'] at h
    exact Option.some.inj h ▸ hio

theorem Replaced.read {s s' : System} (h : Replaced loc content s s') (hdir : s.tree.get? loc ≠ some .directory)
    (hloc : s.locate path = .ok loc) : s'.read path = .ok content :=
  System.read_ok_iff.mpr ⟨loc, (h.sameDirectories hdir).locate.mpr hloc, (h.entry loc).trans (if_pos rfl)⟩

theorem writeWhole_of_setback (files : System) (path content : Text) (s : Setback) :
    Unchanged files (writeWhole files path content (some s)).files := by
  unfold writeWhole
  simp only
  split
  next => exact .refl files
  next temporary staged hcreated =>
    obtain ⟨temporary', htemporary, hcreated⟩ := bind_eq_ok.mp hcreated
    obtain ⟨staged', hwrite, hcreated⟩ := bind_eq_ok.mp hcreated
    obtain ⟨rfl, rfl⟩ := Prod.mk.inj (Except.ok.inj hcreated)
    obtain ⟨place, hplace, hfree, hstaged⟩ := replaced_of_write htemporary hwrite
    exact unchanged_discard hplace hfree hstaged

/-- An attempt to write does nothing or all of it, whatever it meets with. -/
theorem writeWhole_cases (files : System) (path content : Text) (setback : Option Setback) :
    Unchanged files (writeWhole files path content setback).files ∨
      (writeWhole files path content setback).fault = none ∧
        ∃ loc, files.locate path = .ok loc ∧ files.tree.get? loc ≠ some .directory ∧
          Replaced loc content files (writeWhole files path content setback).files := by
  cases setback with
  | some s => exact .inl (writeWhole_of_setback files path content s)
  | none =>
    by_cases h : Writable files path
    · obtain ⟨⟨loc, hloc, hdir⟩, temporary, place, htemporary, hplace⟩ := h
      obtain ⟨hnone, hreplaced⟩ := writeWhole_of_writable hloc hdir htemporary hplace content
      exact .inr ⟨hnone, loc, hloc, hdir, hreplaced⟩
    · exact .inl (writeWhole_of_not_writable h content).2

theorem writeWhole_sameDirectories (files : System) (path content : Text) :
    files.SameDirectories (writeWhole files path content).files := by
  by_cases h : Writable files path
  · obtain ⟨⟨loc, hloc, hdir⟩, temporary, place, htemporary, hplace⟩ := h
    exact (writeWhole_of_writable hloc hdir htemporary hplace content).2.sameDirectories hdir
  · obtain ⟨-, hunchanged⟩ := writeWhole_of_not_writable h content
    exact hunchanged.sameDirectories

/-! ## Why a file cannot be written -/

def obstacle (files : System) (path : Text) : Option Fault :=
  match temporaryPath files path with
  | .error f => some (.ofIo ("failed to create temp file for " ++ Text.guarded path) f.fault)
  | .ok temporary =>
    match files.locate temporary with
    | .error e =>
      some (.ofIo ("failed to create temp file for " ++ Text.guarded path) (SystemFault.fault ⟨"open", [temporary], e⟩))
    | .ok _ =>
      let move := fun e : Refusal =>
        Fault.ofIo ("failed to move " ++ Text.guarded path ++ " into place") (SystemFault.fault ⟨"rename", [temporary, path], e⟩)
      match files.locate path with
      | .error e => some (move e)
      | .ok loc => if files.tree.get? loc = some .directory then some (move .present) else none

theorem writeWhole_fault (h : files.Paved path) (content : Text) :
    (writeWhole files path content).fault = obstacle files path := by
  unfold obstacle
  cases htemporary : temporaryPath files path with
  | error f => simp only [writeWhole, htemporary, bind, Except.bind]
  | ok temporary =>
    cases hplace : files.locate temporary with
    | error e =>
      simp only [writeWhole, htemporary, hplace, bind, Except.bind, System.write_of_error hplace]
    | ok place =>
      have hfree : files.tree.get? place = none := System.get?_eq_none_of_freePath htemporary hplace
      have hnot : files.tree.get? place ≠ some .directory := by simp [hfree]
      have hwrite := System.write_of_locate hplace hnot content
      obtain ⟨place', hplace', -, hstaged⟩ := replaced_of_write htemporary hwrite
      obtain rfl := Except.ok.inj (hplace.symm.trans hplace')
      generalize { files with tree := files.tree.put place (.file content) } = staged at hwrite hstaged
      have hsame := hstaged.sameDirectories hnot
      have hfile : staged.tree.get? place = some (.file content) := (hstaged.entry place).trans (if_pos rfl)
      have hsource := hsame.locate.mpr hplace
      have hpath : staged.locate path = files.locate path := h.locate hsame
      cases hloc : files.locate path with
      | error e =>
        have hrename := System.rename_of_error hsource hfile (hpath.trans hloc)
        simp only [writeWhole, htemporary, hplace, bind, Except.bind, hwrite, pure, Except.pure, hrename]
      | ok loc =>
        by_cases hdir : files.tree.get? loc = some .directory
        · have hrename := System.rename_of_directory hsource hfile (hpath.trans hloc) ((hsame.directory_iff loc).mpr hdir)
          simp only [writeWhole, htemporary, hplace, bind, Except.bind, hwrite, pure, Except.pure, hrename, if_pos hdir]
        · have hrename := System.rename_of_locate hsource hfile (hpath.trans hloc)
            fun hstagedDir => hdir ((hsame.directory_iff loc).mp hstagedDir)
          simp only [writeWhole, htemporary, hplace, bind, Except.bind, hwrite, pure, Except.pure, hrename, if_neg hdir]

theorem paved_of_temporaryPath (h : files.Paved path) (htemporary : temporaryPath files path = .ok temporary) :
    files.Paved temporary := by
  obtain ⟨hslash, hfree⟩ := System.freePath_ok htemporary
  obtain ⟨⟨n, rfl⟩, -⟩ := System.freePath?_some hfree
  have hbase : Path.slash ∉ Path.base path := fun hin => hslash (by simp [temporaryStem, hin])
  have hpaved := h.temporary (isName_temporary (Path.base path) n) (slash_not_mem_temporary hbase n)
  rwa [System.temporaryLead, ← List.append_assoc, ← System.temporaryLead] at hpaved

theorem obstacle_congr {s s' : System} (hsame : s.SameDirectories s') (h : s.Paved path)
    (htemporary : temporaryPath s' path = temporaryPath s path) : obstacle s' path = obstacle s path := by
  unfold obstacle
  rw [htemporary]
  cases hfound : temporaryPath s path with
  | error f => rfl
  | ok temporary =>
    simp only [(paved_of_temporaryPath h hfound).locate hsame, h.locate hsame, hsame.directory_iff]

theorem unchanged_of_fault (h : (writeWhole files path content).fault ≠ none) :
    Unchanged files (writeWhole files path content).files := by
  rcases writeWhole_cases files path content none with hunchanged | ⟨hnone, -⟩
  · exact hunchanged
  · exact absurd hnone h

theorem fault_eq_none_iff (content : Text) : (writeWhole files path content).fault = none ↔ Writable files path := by
  constructor
  · intro hnone
    by_contra hnot
    obtain ⟨⟨f, hf, -⟩, -⟩ := writeWhole_of_not_writable hnot content
    rw [hf] at hnone
    cases hnone
  · rintro ⟨⟨loc, hloc, hdir⟩, temporary, place, htemporary, hplace⟩
    exact (writeWhole_of_writable hloc hdir htemporary hplace content).1

theorem replaced_of_no_fault (h : (writeWhole files path content).fault = none) :
    ∃ loc, files.locate path = .ok loc ∧ files.tree.get? loc ≠ some .directory ∧
      Replaced loc content files (writeWhole files path content).files := by
  obtain ⟨⟨loc, hloc, hdir⟩, temporary, place, htemporary, hplace⟩ := (fault_eq_none_iff content).mp h
  exact ⟨loc, hloc, hdir, (writeWhole_of_writable hloc hdir htemporary hplace content).2⟩

theorem no_setback_of_success {setback : Option Setback} (h : (writeWhole files path content setback).fault = none) :
    setback = none := by
  cases setback with
  | none => rfl
  | some setback =>
    unfold writeWhole at h
    simp only at h
    split at h <;> cases h

theorem replaced_of_success {setback : Option Setback} (h : (writeWhole files path content setback).fault = none) :
    ∃ loc, files.locate path = .ok loc ∧ files.tree.get? loc ≠ some .directory ∧
      Replaced loc content files (writeWhole files path content setback).files := by
  obtain rfl := no_setback_of_success h
  exact replaced_of_no_fault h

end RpcBindings.Generate
