import RpcBindings.Check.Run
import RpcBindings.Proofs.Success

/-!
# Runs in a directory that is there

A run whose output directory is there changes files of modules in it and nothing else. A run that goes well has made its
directory first, so that the files it leaves there are those it lists. A check makes such a run in a directory that it has
just created, so that whatever stood before the check is what it was.
-/

namespace RpcBindings.Generate

open Files

def Generator.into (g : Generator) (dir : Text) : Generator := { g with options := { g.options with outputDir := dir } }

namespace Generator

variable {g : Generator} {arrange : List Job → List Job} {s s' : System} {home : Location}

theorem runDocuments_rewrites (harrange : ∀ jobs, (arrange jobs).Perm jobs) {ready : System} (signal : Signal) (count : Nat)
    (failures : List Failure) (setbacks : Setbacks) {documents : List Document}
    (hready : (if (g.plan documents).jobs.isEmpty then .ok s else s.mkdirAll g.options.outputDir) = .ok ready) :
    Rewritten (Rendered g (g.plan documents).jobs (g.runDocuments arrange s signal count failures documents setbacks)) ready
      (g.runDocuments arrange s signal count failures documents setbacks).files := by
  have hcarried := carryOut_rewrites harrange signal failures setbacks hready
  unfold runDocuments
  simp only
  split
  next => exact hcarried
  next last hlast =>
    refine hcarried.mono fun l text hrendered => ?_
    rcases hrendered with hjob | ⟨last', hlast', hindex, hmodules, hloc⟩
    · exact .inl hjob
    · obtain rfl := Option.some.inj (hlast.symm.trans hlast')
      exact .inr ⟨_, rfl, hindex, hmodules, hloc⟩

theorem generateIn_rewrites (harrange : ∀ jobs, (arrange jobs).Perm jobs) (hdir : s.isDirectory g.options.outputDir = true)
    (signal : Signal) (paths : List Text) (setbacks : Setbacks) :
    Rewritten
      (Rendered g (g.plan (loadAll s signal paths).documents).jobs (g.generateIn arrange s signal paths setbacks)) s
      (g.generateIn arrange s signal paths setbacks).files := by
  unfold generateIn
  simp only
  split
  next => exact .refl s
  next =>
    have hready : (if (g.plan (loadAll s signal paths).documents).jobs.isEmpty then .ok s
        else s.mkdirAll g.options.outputDir) = .ok s := by
      rw [System.mkdirAll_of_isDirectory hdir, ite_self]
    exact runDocuments_rewrites harrange _ _ _ setbacks hready

theorem generateIn_inside (harrange : ∀ jobs, (arrange jobs).Perm jobs) (hext : IsExtension g.options.extension)
    (hloc : s.locate g.options.outputDir = .ok home) (hdir : s.tree.get? home = some .directory) (signal : Signal)
    (paths : List Text) (setbacks : Setbacks) : Inside g home s (g.generateIn arrange s signal paths setbacks).files := by
  have hrewritten := generateIn_rewrites harrange (System.isDirectory_iff.mpr ⟨home, hloc, hdir⟩) signal paths setbacks
  refine inside_of_rewritten hext (home_of_locate hloc hdir) (hrewritten.mono fun l text hrendered => ?_)
  rcases hrendered with ⟨j, hj, -, hl⟩ | ⟨-, -, -, -, hl⟩
  · obtain ⟨c, rfl⟩ := job_of_mem_plan hj
    exact ⟨_, isModule_moduleName c.name, hrewritten.same.locate.mp hl⟩
  · exact ⟨_, isModule_indexModule, hrewritten.same.locate.mp hl⟩

theorem exists_rewritten (harrange : ∀ jobs, (arrange jobs).Perm jobs) {signal : Signal} {paths : List Text}
    (h : (g.generateIn arrange s signal paths).fault = none) :
    ∃ ready, s.Grown ready ∧
      (candidates (loadAll s signal paths).documents ≠ [] → ready.isDirectory g.options.outputDir = true) ∧
      Rewritten (Rendered g (g.plan (loadAll s signal paths).documents).jobs (g.generateIn arrange s signal paths)) ready
        (g.generateIn arrange s signal paths).files := by
  obtain ⟨next, hnext⟩ := exists_loaded h
  unfold generateIn at h ⊢
  simp only [hnext] at h ⊢
  obtain ⟨ready, hready, -⟩ := exists_end h
  have hrewritten := runDocuments_rewrites harrange next paths.length (loadAll s signal paths).failures (fun _ => none) hready
  refine ⟨ready, ?_, fun hne => ?_, hrewritten⟩
  · split at hready
    next => exact Except.ok.inj hready ▸ .refl s
    next => exact (System.made_of_mkdirAllFrom hready).grown
  · obtain ⟨hplan, -⟩ := plan_of_refused (failures_of_no_fault h).2
    rw [hplan, if_neg (by simpa using hne)] at hready
    exact (System.made_of_mkdirAllFrom hready).isDirectory

theorem mem_paths_of_file (harrange : ∀ jobs, (arrange jobs).Perm jobs) (hext : IsExtension g.options.extension)
    {signal : Signal} {paths : List Text} {report : Report} {l : Location} {text : Text}
    (h : (g.generateIn arrange s signal paths).fault = none)
    (hreport : (g.generateIn arrange s signal paths).report = some report)
    (hnone : ∀ text, s.tree.get? l ≠ some (.file text))
    (hfile : (g.generateIn arrange s signal paths).files.tree.get? l = some (.file text)) :
    ∃ p ∈ report.paths, (g.generateIn arrange s signal paths).files.locate p = .ok l := by
  obtain ⟨report', hreport', hpaths⟩ := (accomplished_generateIn hext harrange h).2.2.report
  obtain rfl := Option.some.inj (hreport.symm.trans hreport')
  obtain ⟨ready, hgrown, -, hrewritten⟩ := exists_rewritten harrange h
  rcases hrewritten.entry l with hkept | ⟨_, -, hrendered⟩
  · exact absurd (hgrown.file_iff.mp (hkept.symm.trans hfile)) (hnone text)
  · rcases hrendered with ⟨j, hj, -, hl⟩ | ⟨last, hlast, hindex, -, hl⟩
    · obtain ⟨-, c, hc, rfl⟩ := free_of_mem_planFrom hj
      obtain ⟨next, hnext⟩ := exists_loaded h
      rw [(loadAll_lists paths hnext).1] at hc
      exact ⟨_, (hpaths _).mpr ⟨_, .inl ⟨c, hc, rfl⟩, rfl⟩, hl⟩
    · obtain rfl := Option.some.inj (hreport.symm.trans hlast)
      have hne : report.index ≠ [] := by
        intro hnil
        rw [← hindex, hnil] at hl
        cases hl
      refine ⟨g.indexPath, ?_, hl⟩
      rw [Report.paths, if_neg hne, ← hindex]
      exact List.mem_append_right _ List.mem_cons_self

end Generator

end RpcBindings.Generate

namespace RpcBindings.Check

open Files Generate

/-! ## The directory of a check -/

/-- A directory has been created for a check, in a place where nothing stood. -/
structure Staged (files : System) (temporary dir : Text) (room : Location) (staged : System) : Prop where
  free : files.freePath "mkdirtemp" temporary "krpcgen-check-" = .ok dir
  made : files.mkdir dir = .ok staged
  leads : staged.locate dir = .ok room
  empty : files.tree.get? room = none
  cwd : staged.cwd = files.cwd
  numbers : staged.numbers = files.numbers
  entry : ∀ l, staged.tree.get? l = if l = room then some .directory else files.tree.get? l

section

variable {files staged : System} {temporary dir : Text} {room l : Location} {g : Generator}

theorem exists_staged (hfree : files.freePath "mkdirtemp" temporary "krpcgen-check-" = .ok dir)
    (hmade : files.mkdir dir = .ok staged) : ∃ room, Staged files temporary dir room staged := by
  obtain ⟨room, -, hleads, hempty, hcwd, hnumbers, hentry⟩ := System.mkdir_ok hmade
  exact ⟨room, hfree, hmade, hleads, hempty, hcwd, hnumbers, hentry⟩

theorem Staged.directory (h : Staged files temporary dir room staged) : staged.tree.get? room = some .directory :=
  (h.entry room).trans (if_pos rfl)

theorem Staged.grown (h : Staged files temporary dir room staged) : files.Grown staged := System.grown_of_mkdir h.made

theorem Staged.empty_below (h : Staged files temporary dir room staged) (hl : room <+: l) : files.tree.get? l = none := by
  cases hentry : files.tree.get? l with
  | none => rfl
  | some e =>
    have hempty := h.empty
    by_cases heq : l = room
    · rw [heq, hempty] at hentry
      cases hentry
    · rw [Tree.directory_of_below hl heq hentry] at hempty
      cases hempty

/-- The files of a fresh run stand in its directory, a report lists them, and nothing outside is different. -/
structure Enclosed (files : System) (room : Location) (report : Report) (fresh : System) : Prop where
  outside : ∀ l, ¬ room <+: l → fresh.tree.get? l = files.tree.get? l
  listed : ∀ p ∈ report.paths, ∃ text, fresh.locate p = .ok (room ++ [Path.base p]) ∧
    fresh.tree.get? (room ++ [Path.base p]) = some (.file text)
  all : ∀ l text, room <+: l → fresh.tree.get? l = some (.file text) → ∃ p ∈ report.paths, l = room ++ [Path.base p]

theorem Staged.home (h : Staged files temporary dir room staged) (g : Generator) : Home (g.into dir) room staged :=
  home_of_locate h.leads h.directory

theorem Staged.inside_generateIn (h : Staged files temporary dir room staged) (hext : IsExtension g.options.extension)
    (signal : Signal) (paths : List Text) (setbacks : Setbacks) :
    Inside (g.into dir) room staged ((g.into dir).generateIn id staged signal paths setbacks).files :=
  Generator.generateIn_inside (g := g.into dir) (fun jobs => .refl jobs) hext h.leads h.directory signal paths setbacks

theorem Staged.inside (h : Staged files temporary dir room staged) (hext : IsExtension g.options.extension) (signal : Signal)
    (paths : List Text) : Inside (g.into dir) room staged ((g.into dir).generate staged signal paths).files :=
  h.inside_generateIn hext signal paths _

theorem Staged.outside_of_inside (h : Staged files temporary dir room staged) {s : System}
    (hinside : Inside (g.into dir) room staged s) (hl : ¬ room <+: l) : s.tree.get? l = files.tree.get? l := by
  have hframe := hinside.frame l fun m _ heq => hl (heq ▸ List.prefix_append _ _)
  have hne : l ≠ room := fun heq => hl (heq ▸ List.prefix_refl _)
  exact hframe.trans ((h.entry l).trans (if_neg hne))

theorem Staged.outside (h : Staged files temporary dir room staged) (hext : IsExtension g.options.extension) (signal : Signal)
    (paths : List Text) (hl : ¬ room <+: l) :
    ((g.into dir).generate staged signal paths).files.tree.get? l = files.tree.get? l :=
  h.outside_of_inside (h.inside hext signal paths) hl

theorem Staged.locate_of_mem (h : Staged files temporary dir room staged) (hext : IsExtension g.options.extension)
    {signal : Signal} {paths : List Text} {cs : List Candidate} {m text : Text}
    (hm : (g.into dir).Planned cs m)
    (hread : ((g.into dir).generate staged signal paths).files.read ((g.into dir).modulePath m) = .ok text) :
    Path.base ((g.into dir).modulePath m) = m ++ g.options.extension ∧
      ((g.into dir).generate staged signal paths).files.locate ((g.into dir).modulePath m) =
        .ok (room ++ [m ++ g.options.extension]) ∧
      ((g.into dir).generate staged signal paths).files.tree.get? (room ++ [m ++ g.options.extension]) = some (.file text) := by
  have hhome := (h.home g).sameDirectories (h.inside hext signal paths).same
  obtain ⟨loc, hloc, hfile⟩ := System.read_ok_iff.mp hread
  obtain ⟨hname, rfl⟩ := (hhome.locate_modulePath hext hm.isModule hloc).resolve_right (by simp [hfile])
  exact ⟨hhome.base_modulePath hext hm.isModule hname, hloc, hfile⟩

theorem Staged.enclosed (h : Staged files temporary dir room staged) (hext : IsExtension g.options.extension) {signal : Signal}
    {paths : List Text} {report : Report} (hfault : ((g.into dir).generate staged signal paths).fault = none)
    (hreport : ((g.into dir).generate staged signal paths).report = some report) :
    Enclosed files room report ((g.into dir).generate staged signal paths).files := by
  obtain ⟨-, -, hdone⟩ := Generator.accomplished_generateIn (g := g.into dir) hext (fun jobs => .refl jobs) hfault
  obtain ⟨report', hreport', hpaths⟩ := hdone.report
  obtain rfl := Option.some.inj (hreport.symm.trans hreport')
  have hlisted : ∀ p ∈ report.paths, ∃ text,
      ((g.into dir).generate staged signal paths).files.locate p = .ok (room ++ [Path.base p]) ∧
        ((g.into dir).generate staged signal paths).files.tree.get? (room ++ [Path.base p]) = some (.file text) := by
    intro p hp
    obtain ⟨m, hm, rfl⟩ := (hpaths p).mp hp
    obtain ⟨text, hdue⟩ := hdone.renderable.exists_due hm
    obtain ⟨hbase, hloc, hfile⟩ := h.locate_of_mem hext hm (hdone.holds m text hdue)
    rw [hbase]
    exact ⟨text, hloc, hfile⟩
  refine ⟨fun l hl => h.outside hext signal paths hl, hlisted, fun l text hl hfile => ?_⟩
  have hne : l ≠ room := by
    rintro rfl
    rw [((h.inside hext signal paths).same.directory_iff l).mpr h.directory] at hfile
    cases hfile
  have hnone : staged.tree.get? l = none := (h.entry l).trans ((if_neg hne).trans (h.empty_below hl))
  obtain ⟨p, hp, hloc⟩ := Generator.mem_paths_of_file (g := g.into dir) (fun jobs => .refl jobs) hext hfault hreport
    (by simp [hnone]) hfile
  obtain ⟨-, hloc', -⟩ := hlisted p hp
  exact ⟨p, hp, Except.ok.inj (hloc.symm.trans hloc')⟩

/-- A check that gives a verdict met no setback on its way. -/
theorem run_unhindered {signal : Signal} {paths : List Text} {setbacks : Setbacks} {v : Verdict}
    (h : (run g files temporary signal paths setbacks).result = .ok v) :
    run g files temporary signal paths setbacks = run g files temporary signal paths := by
  unfold run at h ⊢
  simp only at h ⊢
  split at h
  next => rfl
  next dir staged hcreated =>
    simp only at h ⊢
    split at h
    next => cases h
    next => cases h
    next hfault hreport =>
      have hsame := @Generator.generateIn_unhindered _ id _ _ (fun jobs => .refl jobs) _ _ hfault
      rw [hsame] at hfault hreport ⊢
      simp only [hfault, hreport]

end

end RpcBindings.Check
