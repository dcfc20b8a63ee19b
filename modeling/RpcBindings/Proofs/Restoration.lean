import RpcBindings.Proofs.Shadow

/-!
# A check leaves files as they were

A check creates a directory of its own, lets a run write there, and takes the directory away again. The run keeps to that
directory, so all files after a check are those before it, whatever the check finds and at whatever point it fails.
-/

namespace RpcBindings

namespace Generate.Unchanged

open Files

variable {s s' : System}

theorem locate (h : Unchanged s s') (path : Text) : s'.locate path = s.locate path := by
  unfold System.locate
  rw [System.start_congr h.cwd, System.walk_congr fun front _ _ _ => h.entry _]

theorem entryAt (h : Unchanged s s') (path : Text) : s'.entryAt path = s.entryAt path := by
  unfold System.entryAt
  simp only [h.locate, h.entry]

theorem list (h : Unchanged s s') (path : Text) : s'.list path = s.list path := by
  unfold System.list
  rw [h.locate]
  cases s.locate path with
  | error e => rfl
  | ok loc =>
    simp only [h.entry]
    cases hentry : s.tree.get? loc with
    | none => rfl
    | some e =>
      cases e with
      | file content => rfl
      | directory => simp only [Tree.children_congr hentry h.entry]

end Generate.Unchanged

namespace Check

open Files Generate

variable {g : Generator} {files staged : System} {temporary dir : Text} {room : Location} {signal : Signal}
  {paths : List Text}

theorem run_files (g : Generator) (files : System) (temporary : Text) (signal : Signal) (paths : List Text)
    (setbacks : Setbacks) :
    (run g files temporary signal paths setbacks).files = files ∨
      ∃ dir room staged, Staged files temporary dir room staged ∧
        (run g files temporary signal paths setbacks).files =
          ((g.into dir).generateIn id staged signal paths setbacks).files.removeAll dir := by
  unfold run
  simp only
  split
  next => exact .inl rfl
  next dir staged hcreated =>
    obtain ⟨dir', hfree, hcreated⟩ := bind_eq_ok.mp hcreated
    obtain ⟨staged', hmade, hcreated⟩ := bind_eq_ok.mp hcreated
    obtain ⟨rfl, rfl⟩ := Prod.mk.inj (Except.ok.inj hcreated)
    obtain ⟨room, hstaged⟩ := exists_staged hfree hmade
    exact .inr ⟨dir', room, staged', hstaged, rfl⟩

theorem Staged.room_ne_nil (h : Staged files temporary dir room staged) : room ≠ [] := by
  rintro rfl
  have hempty := h.empty
  rw [Tree.get?_nil] at hempty
  cases hempty

theorem Staged.unchanged_removeAll (h : Staged files temporary dir room staged) (hext : IsExtension g.options.extension)
    (signal : Signal) (paths : List Text) (setbacks : Setbacks) :
    Unchanged files (((g.into dir).generateIn id staged signal paths setbacks).files.removeAll dir) := by
  have hinside := h.inside_generateIn (g := g) hext signal paths setbacks
  have hleads := hinside.same.locate.mpr h.leads
  refine ⟨?_, ?_, fun l => ?_⟩
  · rw [System.cwd_removeAll, hinside.same.cwd, h.cwd]
  · rw [System.numbers_removeAll, hinside.same.numbers, h.numbers]
  · rw [System.get?_removeAll hleads h.room_ne_nil]
    split
    next hin => exact (h.empty_below hin).symm
    next hout => exact h.outside_of_inside hinside hout

theorem run_unchanged (hext : IsExtension g.options.extension) (files : System) (temporary : Text) (signal : Signal)
    (paths : List Text) (setbacks : Setbacks) :
    Unchanged files (run g files temporary signal paths setbacks).files := by
  rcases run_files g files temporary signal paths setbacks with heq | ⟨dir, room, staged, hstaged, heq⟩
  · rw [heq]
    exact .refl files
  · rw [heq]
    exact hstaged.unchanged_removeAll hext signal paths setbacks

/-- With an extension that leaves names in their directory, a check leaves every file and every directory as it was: all
that can be asked of a path has the same answer before and after, and nothing is left of the directory that the check has
created, whether it gives a verdict or fails, and whatever setbacks its own run meets. -/
theorem run_restores (hext : Path.slash ∉ g.options.extension) (files : System) (temporary : Text) (signal : Signal)
    (paths : List Text) (setbacks : Setbacks) :
    let after := (run g files temporary signal paths setbacks).files
    Unchanged files after ∧
      (∀ path, after.entryAt path = files.entryAt path ∧ after.list path = files.list path) ∧
      ∀ dir room staged, Staged files temporary dir room staged →
        staged.tree.get? room = some .directory ∧ ∀ l, room <+: l → after.tree.get? l = none := by
  intro after
  have hunchanged : Unchanged files after := run_unchanged hext files temporary signal paths setbacks
  refine ⟨hunchanged, fun path => ⟨hunchanged.entryAt path, hunchanged.list path⟩, fun dir room staged hstaged => ?_⟩
  exact ⟨hstaged.directory, fun l hl => (hunchanged.entry l).trans (hstaged.empty_below hl)⟩

def pondFiles : System where
  tree := ⟨[(["a.json"], .file (Generator.declaring "Pond")), (["b.json"], .file "?"), (["gen"], .directory),
    (["gen", "pond.rs"], .file "old"), (["tmp"], .directory)]⟩
  cwd := []

def full : Setback := ⟨.content, "// Po", "no space left on device"⟩

theorem run_restores_pond :
    Path.slash ∉ (Generator.plain "gen" false).options.extension ∧
      ((run (Generator.plain "gen" false) pondFiles "tmp" .never ["a.json"]).result.toOption.map fun v =>
        v.findings.map fun f => (f.path, f.status)) = some [(("gen/pond.rs" : Text), Status.changed)] ∧
      Unchanged pondFiles (run (Generator.plain "gen" false) pondFiles "tmp" .never ["a.json"]).files ∧
      (run (Generator.plain "gen" false) pondFiles "tmp" .never ["b.json"]).result.toOption.isNone = true ∧
      Unchanged pondFiles (run (Generator.plain "gen" false) pondFiles "tmp" .never ["b.json"]).files ∧
      (run (Generator.plain "gen" false) pondFiles "tmp" .never ["a.json"] fun _ => some full).result.toOption.isNone = true ∧
      Unchanged pondFiles (run (Generator.plain "gen" false) pondFiles "tmp" .never ["a.json"] fun _ => some full).files := by
  have hext : Path.slash ∉ (Generator.plain "gen" false).options.extension := by decide
  exact ⟨hext, by decide +kernel, (run_restores hext _ _ _ _ _).1, by decide +kernel, (run_restores hext _ _ _ _ _).1,
    by decide +kernel, (run_restores hext _ _ _ _ _).1⟩

def stray : Generator :=
  { Generator.plain "gen" false with
    options := { (Generator.plain "gen" false).options with extension := "/../../../gen/x.rs" } }

/-- With an extension that leads out of the directory of a check and into the output directory, the check writes there. -/
theorem run_strays :
    (pondFiles.read "gen/x.rs").toOption = none ∧
      ((run stray pondFiles "tmp" .never ["a.json"]).files.read "gen/x.rs").toOption = some ("// Pond" : Text) ∧
      ¬ Unchanged pondFiles (run stray pondFiles "tmp" .never ["a.json"]).files := by
  have hbefore : (pondFiles.read "gen/x.rs").toOption = none := by decide
  have hafter : ((run stray pondFiles "tmp" .never ["a.json"]).files.read "gen/x.rs").toOption =
      some ("// Pond" : Text) := by decide +kernel
  refine ⟨hbefore, hafter, fun hsame => ?_⟩
  have hread : (run stray pondFiles "tmp" .never ["a.json"]).files.read "gen/x.rs" = pondFiles.read "gen/x.rs" := by
    rw [System.read, System.read, hsame.entryAt]
  rw [hread, hbefore] at hafter
  cases hafter

end Check

end RpcBindings
