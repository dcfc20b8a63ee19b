import RpcBindings.Generate.Generator
import RpcBindings.Proofs.Naming
import RpcBindings.Proofs.Write

/-!
# The files of modules do not meet

All modules are written into one directory, each under its own name. The name of a module holds no dot and no slash, so
two modules never share a file and no temporary file of one is the file of another. What is done for other modules
therefore changes neither the file of a module nor whether it can be written.
-/

namespace RpcBindings.Generate

open Files

def IsModule (m : Text) : Prop := ∀ b ∈ m, Naming.isPlainByte b = true

theorem isModule_moduleName (service : Text) : IsModule (Binding.moduleName service) := fun _ hb =>
  Naming.isPlainByte_of_mem_snakeCase hb

theorem isModule_indexModule : IsModule indexModule := List.all_eq_true.mp (by decide)

theorem IsModule.not_mem {m : Text} (h : IsModule m) {b : UInt8} (hb : Naming.isPlainByte b = false) : b ∉ m := by
  intro hin
  rw [h b hin] at hb
  cases hb

/-- An extension that leaves a name in its directory. -/
def IsExtension (extension : Text) : Prop := Path.slash ∉ extension

theorem isExtension_of_check {key extension : Text} (h : Settings.checkExtension key extension = .ok ()) :
    IsExtension extension := by
  unfold Settings.checkExtension at h
  split at h
  next => cases h
  next =>
    split at h
    next => cases h
    next hseparator =>
      intro hin
      exact hseparator (List.any_eq_true.mpr ⟨_, hin, rfl⟩)

structure Home (g : Generator) (home : Location) (s : System) : Prop where
  nonempty : g.options.outputDir ≠ []
  start : s.tree.get? (s.start g.options.outputDir) = some .directory
  leads : Path.follow (s.start g.options.outputDir) (Text.splitOn Path.slash g.options.outputDir) = home
  directory : s.tree.get? home = some .directory

section

variable {g : Generator} {home loc : Location} {s s' : System} {m m' : Text}

theorem home_of_locate (hhome : s.locate g.options.outputDir = .ok home) (hdir : s.tree.get? home = some .directory) :
    Home g home s := by
  have hstart := System.directory_of_walk (System.locate_ok_iff.mp hhome).2 (Text.splitOn_ne_nil _ _)
  exact ⟨System.ne_nil_of_locate hhome, hstart, (System.eq_follow_of_locate hhome).symm, hdir⟩

theorem home_of_isDirectory (h : s.isDirectory g.options.outputDir = true) : ∃ home, Home g home s := by
  obtain ⟨home, hhome, hdir⟩ := System.isDirectory_iff.mp h
  exact ⟨home, home_of_locate hhome hdir⟩

theorem Home.sameDirectories (h : Home g home s) (hsame : s.SameDirectories s') : Home g home s' := by
  refine ⟨h.nonempty, ?_, ?_, (hsame.directory_iff home).mpr h.directory⟩
  · rw [System.start_congr hsame.cwd]
    exact (hsame.directory_iff _).mpr h.start
  · rw [System.start_congr hsame.cwd]
    exact h.leads

theorem slash_not_mem_fileName (hm : IsModule m) (hext : IsExtension g.options.extension) :
    Path.slash ∉ m ++ g.options.extension := by
  rw [List.mem_append, not_or]
  exact ⟨hm.not_mem (by decide), hext⟩

theorem Home.start_modulePath (h : Home g home s) (m : Text) :
    s.start (g.modulePath m) = s.start g.options.outputDir := by
  rw [System.start, Generator.modulePath, Path.isAbsolute_join h.nonempty]
  rfl

theorem start_of_isAbsolute {path : Text} (h : Path.isAbsolute path = true) : s.start path = [] := if_pos h

theorem Home.follow_modulePath (h : Home g home s) (hext : IsExtension g.options.extension) (hm : IsModule m) :
    Path.follow (s.start g.options.outputDir) (Text.splitOn Path.slash (g.modulePath m)) =
      Path.enter home (m ++ g.options.extension) := by
  rw [Generator.modulePath, Path.follow_join (slash_not_mem_fileName hm hext) start_of_isAbsolute, h.leads]

theorem Home.locate_modulePath (h : Home g home s) (hext : IsExtension g.options.extension) (hm : IsModule m)
    (hloc : s.locate (g.modulePath m) = .ok loc) :
    Path.IsName (m ++ g.options.extension) ∧ loc = home ++ [m ++ g.options.extension] ∨
      s.tree.get? loc = some .directory := by
  have heq := System.eq_follow_of_locate hloc
  rw [h.start_modulePath, h.follow_modulePath hext hm] at heq
  by_cases hskip : m ++ g.options.extension = [] ∨ m ++ g.options.extension = "."
  · rw [Path.enter_of_skip hskip] at heq
    exact .inr (heq ▸ h.directory)
  · by_cases hup : m ++ g.options.extension = ".."
    · rw [hup, Path.enter_up] at heq
      exact .inr (heq ▸ Tree.directory_dropLast h.directory)
    · have hname : Path.IsName (m ++ g.options.extension) :=
        ⟨fun hnil => hskip (.inl hnil), fun hdot => hskip (.inr hdot), hup⟩
      rw [Path.enter_of_isName hname] at heq
      exact .inl ⟨hname, heq⟩

end

/-! ## Temporary files of modules -/

section

variable {g : Generator} {home : Location} {s : System} {m m' : Text}

theorem isName_fileName (hm : IsModule m) (hne : m ≠ []) (extension : Text) : Path.IsName (m ++ extension) := by
  obtain ⟨b, rest, rfl⟩ := List.exists_cons_of_ne_nil hne
  have hdot : b ≠ 46 := by
    rintro rfl
    exact hm.not_mem (by decide) List.mem_cons_self
  refine ⟨List.cons_ne_nil _ _, ?_, ?_⟩ <;>
  · intro heq
    exact hdot (List.cons.inj heq).1

theorem Home.base_modulePath (h : Home g home s) (hext : IsExtension g.options.extension) (hm : IsModule m)
    (hname : Path.IsName (m ++ g.options.extension)) : Path.base (g.modulePath m) = m ++ g.options.extension := by
  have hslash := slash_not_mem_fileName hm hext
  obtain ⟨lead, hpath, hlead⟩ := Path.exists_lead h.nonempty hname hslash
  rw [Generator.modulePath, hpath, Path.base_append hlead hname.1 hslash]

theorem modulePath_injective (hext : IsExtension g.options.extension) (hm : IsModule m) (hm' : IsModule m')
    (h : g.modulePath m = g.modulePath m') : m = m' := by
  have hleads : Path.enter (Path.follow [] (Text.splitOn Path.slash g.options.outputDir)) (m ++ g.options.extension) =
      Path.enter (Path.follow [] (Text.splitOn Path.slash g.options.outputDir)) (m' ++ g.options.extension) := by
    rw [← Path.follow_join (slash_not_mem_fileName hm hext) fun _ => rfl,
      ← Path.follow_join (slash_not_mem_fileName hm' hext) fun _ => rfl]
    exact congrArg (fun path => Path.follow [] (Text.splitOn Path.slash path)) h
  by_cases hne : m = []
  · by_cases hne' : m' = []
    · rw [hne, hne']
    · exact List.append_cancel_right (Path.eq_of_enter_eq hleads (isName_fileName hm' hne' _))
  · exact (List.append_cancel_right (Path.eq_of_enter_eq hleads.symm (isName_fileName hm hne _))).symm

theorem Home.temporary_ne_fileName (h : Home g home s) (hext : IsExtension g.options.extension) (hm : IsModule m)
    (hm' : IsModule m') (n : Nat) :
    temporaryStem (Path.base (g.modulePath m)) ++ Text.ofNat n ≠ m' ++ g.options.extension := by
  intro heq
  have hstem : temporaryStem (Path.base (g.modulePath m)) = 46 :: (Path.base (g.modulePath m) ++ (".tmp." : Text)) := rfl
  cases m' with
  | nil =>
    rw [List.nil_append] at heq
    have hname : Path.IsName g.options.extension := heq ▸ isName_temporary _ n
    have hname' : Path.IsName (m ++ g.options.extension) := by
      by_cases hne : m = []
      · rwa [hne]
      · exact isName_fileName hm hne _
    rw [hstem, h.base_modulePath hext hm hname'] at heq
    have hlength := congrArg List.length heq
    simp only [List.cons_append, List.length_cons, List.length_append] at hlength
    omega
  | cons b rest =>
    rw [hstem, List.cons_append] at heq
    obtain ⟨rfl, -⟩ := List.cons.inj heq
    have hdot : (46 : UInt8) ∉ 46 :: rest := hm'.not_mem (by decide)
    exact hdot List.mem_cons_self

theorem Home.paved_modulePath (h : Home g home s) (hext : IsExtension g.options.extension) (hm : IsModule m) :
    s.Paved (g.modulePath m) := by
  refine System.paved_of_straight (Path.straight_join h.nonempty _) ?_ ?_
  · rw [h.start_modulePath]
    exact h.start
  · rw [h.start_modulePath, h.follow_modulePath hext hm]
    unfold Path.enter
    split
    next => exact Tree.directory_dropLast h.directory
    next =>
      split
      next => exact Tree.directory_dropLast (Tree.directory_dropLast h.directory)
      next => rw [List.dropLast_concat]; exact h.directory

end

/-! ## What is done for modules -/

structure Inside (g : Generator) (home : Location) (s s' : System) : Prop where
  same : s.SameDirectories s'
  frame : ∀ l, (∀ m, IsModule m → l ≠ home ++ [m ++ g.options.extension]) → s'.tree.get? l = s.tree.get? l

section

variable {g : Generator} {home : Location} {s s' : System} {m : Text}

theorem Inside.temporaryPath (h : Inside g home s s') (hhome : Home g home s) (hext : IsExtension g.options.extension)
    (hm : IsModule m) : Generate.temporaryPath s' (g.modulePath m) = Generate.temporaryPath s (g.modulePath m) := by
  unfold Generate.temporaryPath System.freePath
  split
  next => rfl
  next hstem =>
    have hslash : Path.slash ∉ Path.base (g.modulePath m) := fun hin => hstem (by simp [temporaryStem, hin])
    have htried : ∀ n, (∃ e, s'.entryAt (System.temporaryLead (Path.dir (g.modulePath m))
        (temporaryStem (Path.base (g.modulePath m))) ++ Text.ofNat n) = .ok e) ↔
        ∃ e, s.entryAt (System.temporaryLead (Path.dir (g.modulePath m))
          (temporaryStem (Path.base (g.modulePath m))) ++ Text.ofNat n) = .ok e := by
      intro n
      rw [System.temporaryLead, List.append_assoc, ← System.temporaryLead]
      simp only [System.entryAt_ok_iff, h.same.locate]
      refine exists_congr fun e => exists_congr fun loc => and_congr_right fun hloc => ?_
      rw [h.frame]
      intro m' hm' heq
      rw [System.eq_follow_of_locate hloc, System.follow_temporaryLead (slash_not_mem_temporary hslash n),
        Path.enter_of_isName (isName_temporary _ n)] at heq
      exact hhome.temporary_ne_fileName hext hm hm' n (List.cons.inj (List.append_inj_right' heq rfl)).1
    rw [System.freePath?_congr h.same.numbers htried]

theorem Inside.obstacle (h : Inside g home s s') (hhome : Home g home s) (hext : IsExtension g.options.extension)
    (hm : IsModule m) : Generate.obstacle s' (g.modulePath m) = Generate.obstacle s (g.modulePath m) :=
  obstacle_congr h.same (hhome.paved_modulePath hext hm) (h.temporaryPath hhome hext hm)

theorem Inside.writable (h : Inside g home s s') (hhome : Home g home s) (hext : IsExtension g.options.extension)
    (hm : IsModule m) : Writable s' (g.modulePath m) ↔ Writable s (g.modulePath m) := by
  unfold Writable
  simp only [h.temporaryPath hhome hext hm, h.same.locate, ne_eq, h.same.directory_iff]

end

/-! ### Other modules than one -/

/-- Nothing is different but the files of modules other than one, and every directory is as it was. -/
structure Aside (g : Generator) (home : Location) (m : Text) (s s' : System) : Prop where
  same : s.SameDirectories s'
  frame : ∀ l, (∀ m', IsModule m' → m' ≠ m → l ≠ home ++ [m' ++ g.options.extension]) → s'.tree.get? l = s.tree.get? l

namespace Aside

variable {g : Generator} {home : Location} {s s' s'' : System} {m m' : Text}

theorem refl (s : System) : Aside g home m s s := ⟨.refl s, fun _ _ => rfl⟩

theorem trans (h : Aside g home m s s') (h' : Aside g home m s' s'') : Aside g home m s s'' := by
  refine ⟨h.same.trans h'.same, ?_⟩
  intro l hl
  exact (h'.frame l hl).trans (h.frame l hl)

theorem of_unchanged (h : Unchanged s s') : Aside g home m s s' :=
  ⟨h.sameDirectories, fun l _ => h.entry l⟩

theorem get?_fileName (h : Aside g home m s s') :
    s'.tree.get? (home ++ [m ++ g.options.extension]) = s.tree.get? (home ++ [m ++ g.options.extension]) := by
  refine h.frame _ fun m' _ hne heq => hne ?_
  have hname := List.append_cancel_left heq
  exact (List.append_cancel_right (List.cons.inj hname).1).symm

theorem read (h : Aside g home m s s') (hhome : Home g home s) (hext : IsExtension g.options.extension)
    (hm : IsModule m) (content : Text) :
    s'.read (g.modulePath m) = .ok content ↔ s.read (g.modulePath m) = .ok content := by
  simp only [System.read_ok_iff, h.same.locate]
  refine exists_congr fun loc => and_congr_right fun hloc => ?_
  rcases hhome.locate_modulePath hext hm hloc with ⟨-, rfl⟩ | hdir
  · rw [h.get?_fileName]
  · rw [hdir, (h.same.directory_iff loc).mpr hdir]

theorem inside (h : Aside g home m s s') : Inside g home s s' :=
  ⟨h.same, fun l hl => h.frame l fun m' hm' _ => hl m' hm'⟩

theorem obstacle (h : Aside g home m s s') (hhome : Home g home s) (hext : IsExtension g.options.extension)
    (hm : IsModule m) : Generate.obstacle s' (g.modulePath m) = Generate.obstacle s (g.modulePath m) :=
  h.inside.obstacle hhome hext hm

theorem fault_writeWhole (h : Aside g home m s s') (hhome : Home g home s) (hext : IsExtension g.options.extension)
    (hm : IsModule m) (content : Text) :
    (Generate.writeWhole s' (g.modulePath m) content).fault = (Generate.writeWhole s (g.modulePath m) content).fault := by
  have hpaved := hhome.paved_modulePath hext hm
  have hpaved' := (hhome.sameDirectories h.same).paved_modulePath hext hm
  rw [writeWhole_fault hpaved, writeWhole_fault hpaved', h.obstacle hhome hext hm]

theorem writable (h : Aside g home m s s') (hhome : Home g home s) (hext : IsExtension g.options.extension)
    (hm : IsModule m) : Writable s' (g.modulePath m) ↔ Writable s (g.modulePath m) := h.inside.writable hhome hext hm

theorem writeWhole (hhome : Home g home s) (hext : IsExtension g.options.extension) (hm' : IsModule m') (hne : m' ≠ m)
    (content : Text) : Aside g home m s (Generate.writeWhole s (g.modulePath m') content).files := by
  by_cases hw : Writable s (g.modulePath m')
  · obtain ⟨⟨loc, hloc, hdir⟩, temporary, place, htemporary, hplace⟩ := hw
    obtain ⟨-, hreplaced⟩ := writeWhole_of_writable hloc hdir htemporary hplace content
    obtain ⟨-, rfl⟩ := (hhome.locate_modulePath hext hm' hloc).resolve_right hdir
    refine ⟨hreplaced.sameDirectories hdir, fun l hl => ?_⟩
    rw [hreplaced.entry, if_neg (hl m' hm' hne)]
  · exact of_unchanged (writeWhole_of_not_writable hw content).2

end Aside

end RpcBindings.Generate
