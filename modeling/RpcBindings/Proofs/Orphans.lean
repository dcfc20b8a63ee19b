import RpcBindings.Proofs.Agreement

/-!
# Leftovers of earlier runs

The built-in templates open every text with the mark by which a check knows a generated file. A run into a directory
without files leaves there just the files it lists, so a later check finds those among them that it would not write itself,
and no others.
-/

namespace RpcBindings

/-! ## The mark of generated texts -/

namespace Template

variable {library : Library} {version name t out : Text} {rest : List Node} {v : Value}

theorem prefix_of_runNodes {call : Text → Value → Except ExecFault Text} {env : Env} {scope : Scope} {o : Outcome}
    (h : runNodes call env scope (.text t :: rest) = .ok o) : t <+: o.text := by
  simp only [runNodes, runNode, if_true] at h
  split at h
  next => cases h
  next p _ =>
    obtain rfl := Except.ok.inj h
    exact List.prefix_append _ _

theorem prefix_of_invoke {depth : Nat} (hget : library.get? name = some (.text t :: rest))
    (h : invoke library version depth name v = .ok out) : t <+: out := by
  cases depth with
  | zero => cases h
  | succ depth =>
    rw [invoke, hget] at h
    obtain ⟨o, ho, rfl⟩ := map_eq_ok.mp h
    exact prefix_of_runNodes ho

end Template

namespace Render

open Template

theorem Renderer.marked_of_execute {r : Renderer} {name t text : Text} {rest : List Node} {v : Value}
    (h : embedded? = some r.library) (hget : Layout.library.get? name = some (.text t :: rest))
    (hmark : Check.isGenerated t = true) (htext : r.execute name v = .ok text) : Check.isGenerated text = true := by
  rw [embedded?_eq] at h
  unfold Renderer.execute at htext
  split at htext
  next =>
    rw [Option.some.inj h] at hget
    have hlead : t <+: text := prefix_of_invoke hget (mapError_eq_ok.mp htext)
    exact List.isPrefixOf_iff_prefix.mpr ((List.isPrefixOf_iff_prefix.mp hmark).trans hlead)
  next => cases htext

end Render

namespace Generate.Generator

variable {g : Generator} {cs : List Candidate} {m text : Text}

theorem Due.marked (hembedded : Render.embedded? = some g.renderer.library) (h : g.Due cs m text) :
    Check.isGenerated text = true := by
  cases h with
  | index _ htext => exact Render.Renderer.marked_of_execute hembedded rfl (by decide) htext
  | service _ _ htext =>
    obtain ⟨c, -, htext⟩ := bind_eq_ok.mp htext
    exact Render.Renderer.marked_of_execute hembedded rfl (by decide) (mapError_eq_ok.mp htext)

end Generate.Generator

/-! ## Places of directories -/

namespace Files

def System.destination (s : System) (path : Text) : Location :=
  Path.follow (s.start path) (Text.splitOn Path.slash path)

/-- No file stands in a directory, which need not be there itself. -/
def Vacant (s : System) (dir : Text) : Prop :=
  ∀ name content, s.tree.get? (s.destination dir ++ [name]) ≠ some (.file content)

/-- A directory is found where it was and holds what it held, whatever has become of all else. -/
structure Undisturbed (dir : Text) (s s' : System) : Prop where
  cwd : s'.cwd = s.cwd
  leads : ∀ home, s.locate dir = .ok home → s'.locate dir = .ok home
  entry : ∀ name, s'.tree.get? (s.destination dir ++ [name]) = s.tree.get? (s.destination dir ++ [name])

variable {s s' : System} {dir : Text} {home : Location}

theorem Undisturbed.refl (dir : Text) (s : System) : Undisturbed dir s s := ⟨rfl, fun _ h => h, fun _ => rfl⟩

theorem System.destination_congr (h : s'.cwd = s.cwd) (path : Text) : s'.destination path = s.destination path := by
  rw [destination, destination, start_congr h]

theorem System.eq_destination (h : s.locate dir = .ok home) : home = s.destination dir := eq_follow_of_locate h

theorem vacant_of_list (h : s.list dir = .ok []) : Vacant s dir := by
  obtain ⟨home, hhome, hdir, hnil⟩ := System.list_ok_iff.mp h
  intro name content hfile
  rw [← System.eq_destination hhome, ← Tree.mem_children_iff hdir, ← hnil] at hfile
  cases hfile

end Files

/-! ## What a run leaves -/

namespace Generate.Generator

open Files

variable {g : Generator} {arrange : List Job → List Job} {s : System} {signal : Signal} {paths : List Text}
  {report : Report} {path : Text}

section

variable (hext : IsExtension g.options.extension) (harrange : ∀ jobs, (arrange jobs).Perm jobs)
  (h : (g.generateIn arrange s signal paths).fault = none)
  (hreport : (g.generateIn arrange s signal paths).report = some report)

include hext harrange h hreport

theorem exists_home_of_mem (hpath : path ∈ report.paths) :
    ∃ home cs m text, (g.generateIn arrange s signal paths).files.locate g.options.outputDir = .ok home ∧
      path = g.modulePath m ∧ Path.base path = m ++ g.options.extension ∧ g.Due cs m text ∧
      (g.generateIn arrange s signal paths).files.locate path = .ok (home ++ [m ++ g.options.extension]) ∧
      (g.generateIn arrange s signal paths).files.tree.get? (home ++ [m ++ g.options.extension]) = some (.file text) := by
  obtain ⟨-, -, hdone⟩ := accomplished_generateIn hext harrange h
  obtain ⟨report', hreport', hpaths⟩ := hdone.report
  obtain rfl := Option.some.inj (hreport.symm.trans hreport')
  obtain ⟨m, hm, rfl⟩ := (hpaths path).mp hpath
  obtain ⟨text, hdue⟩ := hdone.renderable.exists_due hm
  obtain ⟨ready, -, hdirectory, hrewritten⟩ := exists_rewritten harrange h
  obtain ⟨next, hnext⟩ := exists_loaded h
  have hne : candidates (loadAll s signal paths).documents ≠ [] := by
    rw [(loadAll_lists paths hnext).1]
    intro hnil
    rw [hnil] at hm
    exact not_planned_nil m hm
  obtain ⟨home, hhome, hdir⟩ := System.isDirectory_iff.mp (hdirectory hne)
  have hhome' := hrewritten.same.locate.mpr hhome
  have hplace : Home g home (g.generateIn arrange s signal paths).files :=
    home_of_locate hhome' ((hrewritten.same.directory_iff home).mpr hdir)
  obtain ⟨loc, hloc, hfile⟩ := System.read_ok_iff.mp (hdone.holds m text hdue)
  obtain ⟨hname, rfl⟩ := (hplace.locate_modulePath hext hm.isModule hloc).resolve_right (by simp [hfile])
  exact ⟨home, _, m, text, hhome', rfl, hplace.base_modulePath hext hm.isModule hname, hdue, hloc, hfile⟩

theorem mem_paths_of_vacant (hvacant : Vacant s g.options.outputDir) {name content : Text}
    (hfile : (g.generateIn arrange s signal paths).files.tree.get? (s.destination g.options.outputDir ++ [name]) =
      some (.file content)) :
    Path.join [g.options.outputDir, name] ∈ report.paths ∧ Path.base (Path.join [g.options.outputDir, name]) = name := by
  obtain ⟨p, hp, hloc⟩ := mem_paths_of_file harrange hext h hreport (hvacant name) hfile
  obtain ⟨home, cs, m, text, -, rfl, hbase, -, hloc', -⟩ := exists_home_of_mem hext harrange h hreport hp
  have hends := Except.ok.inj (hloc.symm.trans hloc')
  obtain rfl : name = m ++ g.options.extension := (List.cons.inj (List.append_inj_right' hends rfl)).1
  exact ⟨hp, hbase⟩

end

end Generate.Generator

/-! ## What a check finds -/

namespace Check

open Files Generate

section

variable {g : Generator} {s staged : System} {temporary dir path m text : Text} {room home : Location} {signal : Signal}
  {paths fresh : List Text}

theorem Staged.stood_of_orphaned (h : Staged s temporary dir room staged) (hext : IsExtension g.options.extension)
    {report : Report} (hfault : ((g.into dir).generate staged signal paths).fault = none)
    (hreport : ((g.into dir).generate staged signal paths).report = some report)
    (horphan : Orphaned ((g.into dir).generate staged signal paths).files g.options.outputDir g.options.extension
      report.paths path) :
    ∃ name content, path = Path.join [g.options.outputDir, name] ∧ name ∉ report.paths.map Path.base ∧
      s.tree.get? (s.destination g.options.outputDir ++ [name]) = some (.file content) := by
  have henclosed := h.enclosed hext hfault hreport
  have hcwd := (h.inside (g := g) hext signal paths).same.cwd.trans h.cwd
  obtain ⟨entries, name, entry, -, hlist, hin, rfl, hentry, -, hname, -⟩ := horphan
  obtain ⟨home, hhome, hdir, rfl⟩ := System.list_ok_iff.mp hlist
  have hat := (Tree.mem_children_iff hdir).mp hin
  cases entry with
  | directory => cases hentry
  | file content =>
    -- a file in the directory of the check is a fresh one
    have hout : ¬ room <+: home ++ [name] := by
      intro hbelow
      obtain ⟨p, hp, heq⟩ := henclosed.all _ _ hbelow hat
      have hbase : name = Path.base p := (List.cons.inj (List.append_inj_right' heq rfl)).1
      exact hname (List.mem_map.mpr ⟨p, hp, hbase.symm⟩)
    rw [henclosed.outside _ hout, System.eq_destination hhome, System.destination_congr hcwd] at hat
    exact ⟨name, content, rfl, hname, hat⟩

theorem Staged.orphaned_of_stood (h : Staged s temporary dir room staged) (hext : IsExtension g.options.extension)
    (hhome : s.locate g.options.outputDir = .ok home)
    (hloc : s.locate (g.modulePath m) = .ok (home ++ [m ++ g.options.extension]))
    (hfile : s.tree.get? (home ++ [m ++ g.options.extension]) = some (.file text)) (hmark : isGenerated text = true)
    (hname : m ++ g.options.extension ∉ fresh.map Path.base) :
    Orphaned ((g.into dir).generate staged signal paths).files g.options.outputDir g.options.extension fresh
      (g.modulePath m) := by
  have hinside := h.inside (g := g) hext signal paths
  have hout : ¬ room <+: home ++ [m ++ g.options.extension] := by
    intro hbelow
    rw [h.empty_below hbelow] at hfile
    cases hfile
  have hkept := (h.outside (g := g) hext signal paths hout).trans hfile
  have hdir := Tree.directory_of_append (List.cons_ne_nil _ []) hkept
  have hlist := System.list_ok_iff.mpr ⟨home, hinside.same.locate.mpr (h.grown.locate hhome), hdir, rfl⟩
  have hread := h.read_kept (g := g) hext signal paths (System.read_ok_iff.mpr ⟨_, hloc, hfile⟩)
  exact ⟨_, m ++ g.options.extension, .file text, text, hlist, (Tree.mem_children_iff hdir).mpr hkept, rfl, rfl,
    List.suffix_append _ _, hname, hread, isGenerated_iff.mp hmark⟩

theorem locate_of_undisturbed {s' : System} (hsame : Undisturbed g.options.outputDir s s')
    (hhome : s.locate g.options.outputDir = .ok home)
    (hloc : s.locate (g.modulePath m) = .ok (home ++ [m ++ g.options.extension]))
    (hfile : s'.tree.get? (home ++ [m ++ g.options.extension]) = some (.file text)) :
    s'.locate (g.modulePath m) = .ok (home ++ [m ++ g.options.extension]) := by
  have hdir := Tree.directory_of_append (List.cons_ne_nil _ []) hfile
  have hplace : Home g home s' := home_of_locate (hsame.leads home hhome) hdir
  obtain ⟨hcheck, hwalk⟩ := System.locate_ok_iff.mp hloc
  rw [← System.start_congr hsame.cwd] at hwalk
  have hstart : s'.tree.get? (s'.start (g.modulePath m)) = some .directory := by
    rw [hplace.start_modulePath]
    exact hplace.start
  exact System.locate_ok_iff.mpr
    ⟨hcheck, System.walk_of_straight (Path.straight_join hplace.nonempty _) hstart hfile hwalk⟩

end

section

variable {g g' : Generator} {arrange : List Job → List Job} {s s' : System} {temporary : Text} {signal signal' : Signal}
  {paths paths' : List Text} {report : Report} {v : Verdict}

theorem orphaned_iff_of_generateIn (harrange : ∀ jobs, (arrange jobs).Perm jobs)
    (hembedded : Render.embedded? = some g.renderer.library) (hext : IsExtension g.options.extension)
    (hdir : g'.options.outputDir = g.options.outputDir) (hextension : g'.options.extension = g.options.extension)
    (hvacant : Vacant s g.options.outputDir) (h : (g.generateIn arrange s signal paths).fault = none)
    (hreport : (g.generateIn arrange s signal paths).report = some report)
    (hsame : Undisturbed g.options.outputDir (g.generateIn arrange s signal paths).files s')
    (hv : (run g' s' temporary signal' paths').result = .ok v) (path : Text) :
    (∃ f ∈ v.findings, f.path = path ∧ f.status = .orphaned) ↔
      path ∈ report.paths ∧ Path.base path ∉ v.report.paths.map Path.base := by
  have hext' : IsExtension g'.options.extension := hextension ▸ hext
  obtain ⟨ready, hgrown, -, hrewritten⟩ := Generator.exists_rewritten harrange h
  have hcwd := hrewritten.same.cwd.trans hgrown.cwd
  obtain ⟨dir, room, staged, report', hstaged, hfault', hreport', hassess⟩ := run_inv hv
  obtain ⟨rfl, hexact⟩ := assess_exact hassess
  rw [hexact.listed .orphaned path]
  constructor
  · intro horphan
    obtain ⟨name, content, rfl, hname, hstood⟩ := hstaged.stood_of_orphaned hext' hfault' hreport' horphan
    rw [hdir, System.destination_congr hsame.cwd, hsame.entry, System.destination_congr hcwd] at hstood
    rw [hdir]
    obtain ⟨hmem, hbase⟩ := Generator.mem_paths_of_vacant hext harrange h hreport hvacant hstood
    exact ⟨hmem, hbase.symm ▸ hname⟩
  · rintro ⟨hmem, hname⟩
    obtain ⟨home, cs, m, text, hhome, rfl, hbase, hdue, hloc, hfile⟩ :=
      Generator.exists_home_of_mem hext harrange h hreport hmem
    have hstood : s'.tree.get? (home ++ [m ++ g.options.extension]) = some (.file text) := by
      rw [System.eq_destination hhome, hsame.entry, ← System.eq_destination hhome]
      exact hfile
    have hloc' := locate_of_undisturbed hsame hhome hloc hstood
    have hmodule : g'.modulePath m = g.modulePath m := by
      rw [Generator.modulePath, Generator.modulePath, hdir, hextension]
    rw [hbase] at hname
    rw [← hmodule] at hloc' ⊢
    rw [← hextension] at hloc' hstood hname
    exact hstaged.orphaned_of_stood hext' (hdir ▸ hsame.leads home hhome) hloc' hstood (hdue.marked hembedded) hname

theorem not_orphaned_of_read (hext : IsExtension g.options.extension)
    (hv : (run g s temporary signal paths).result = .ok v) {path content : Text} (hread : s.read path = .ok content)
    (hmark : ¬ ("// Code generated by krpcgen" : Text) <+: firstLine content) : ∀ f ∈ v.findings, f.path = path → f.status ≠ .orphaned := by
  obtain ⟨dir, room, staged, report, hstaged, -, -, hassess⟩ := run_inv hv
  obtain ⟨rfl, hexact⟩ := assess_exact hassess
  rintro f hf rfl hstatus
  obtain ⟨-, -, -, found, -, -, -, -, -, -, hfound, hmarked⟩ := (hexact.listed .orphaned f.path).mp ⟨f, hf, rfl, hstatus⟩
  obtain rfl := Except.ok.inj ((hstaged.read_kept hext signal paths hread).symm.trans hfound)
  exact hmark hmarked

end

/-- After a run with the built-in templates into a directory without files, a check with the same directory and extension
finds orphaned just those files that the run has listed and that have the name of no fresh file. What stands outside the
directory may have changed in between, and documents, index, version and jobs of the check may be others. A file without the
mark of generated files in its first line is never found orphaned. -/
theorem check_orphans {g g' : Generator} {o : Options} {origin : System} {fallback : Text}
    (hg : Generator.new origin fallback o = .ok g) (htemplates : o.templatesDir = [])
    (hext : Path.slash ∉ g.options.extension) (hdir : g'.options.outputDir = g.options.outputDir)
    (hextension : g'.options.extension = g.options.extension) :
    (∀ s signal paths report s' temporary signal' paths' setbacks v, Vacant s g.options.outputDir →
      (g.generate s signal paths).fault = none → (g.generate s signal paths).report = some report →
      Undisturbed g.options.outputDir (g.generate s signal paths).files s' →
      (run g' s' temporary signal' paths' setbacks).result = .ok v →
      ∀ path, (∃ f ∈ v.findings, f.path = path ∧ f.status = .orphaned) ↔
        path ∈ report.paths ∧ Path.base path ∉ v.report.paths.map Path.base) ∧
    ∀ s temporary signal paths setbacks v, (run g' s temporary signal paths setbacks).result = .ok v →
      ∀ path content, s.read path = .ok content → ¬ ("// Code generated by krpcgen" : Text) <+: firstLine content →
        ∀ f ∈ v.findings, f.path = path → f.status ≠ .orphaned := by
  obtain ⟨hembedded, -, -⟩ := Generator.new_inv htemplates hg
  refine ⟨fun s signal paths report s' temporary signal' paths' setbacks v hvacant h hreport hsame hv => ?_,
    fun s temporary signal paths setbacks v hv path content hread => ?_⟩
  · rw [run_unhindered hv] at hv
    exact orphaned_iff_of_generateIn (fun jobs => .refl jobs) hembedded hext hdir hextension hvacant h hreport hsame hv
  · rw [run_unhindered hv] at hv
    exact not_orphaned_of_read (hextension ▸ hext) hv hread

def slipFiles (present : List (Location × Entry)) : System where
  tree := ⟨(["a.json"], .file (Generator.declaring "Slip")) :: (["gen"], .directory) :: (["tmp"], .directory) :: present⟩
  cwd := []

section

variable (extension : Text) (index : Bool) (library : Template.Library)

def slipRun : Run := (wharf extension index "v1" library).generate (slipFiles []) .never ["a.json"]

def slipCheck (s : System) (paths : List Text) : Except Fault Verdict :=
  (run (wharf extension false "v2" library) s "tmp" .never paths).result

def slipFound (paths : List Text) : Option (List Text × List (Text × Status) × List Text) :=
  if (slipRun extension index library).fault.isNone then
    (slipRun extension index library).report.bind fun report =>
      (slipCheck extension library (slipRun extension index library).files paths).toOption.map fun v =>
        (report.paths, v.findings.map (fun f => (f.path, f.status)), v.report.paths.map Path.base)
  else none

end

def slipNotes : System := slipFiles [(["gen", "notes.rs"], .file "// Notes")]

theorem exists_slip : (Render.embedded?.any fun library =>
    slipFound ".rs" true library ["a.json"] ==
        some ([("gen/slip.rs" : Text), ("gen/mod.rs" : Text)], [(("gen/mod.rs" : Text), Status.orphaned)],
          [("slip.rs" : Text)]) &&
      (slipCheck ".rs" library slipNotes []).isOk &&
      slipFound "/../x.rs" false library [] == some ([("gen/x.rs" : Text)], [], [])) = true := by
  unfold Render.embedded? Render.serviceText Render.indexText
  repeat rw [Render.template_cons]
  decide +kernel

section

variable {extension : Text} {index : Bool} {paths listed fresh : List Text} {library : Template.Library}
  {found : List (Text × Status)}

theorem slipFound_inv (h : slipFound extension index library paths = some (listed, found, fresh)) :
    (slipRun extension index library).fault = none ∧
      ∃ report v, (slipRun extension index library).report = some report ∧ report.paths = listed ∧
        slipCheck extension library (slipRun extension index library).files paths = .ok v ∧
        (v.findings.map fun f => (f.path, f.status)) = found ∧ v.report.paths.map Path.base = fresh := by
  rw [slipFound] at h
  split at h
  next hwell =>
    obtain ⟨report, hreport, h⟩ := Option.bind_eq_some_iff.mp h
    obtain ⟨v, hv, h⟩ := Option.map_eq_some_iff.mp h
    obtain ⟨hlisted, hrest⟩ := Prod.mk.inj h
    obtain ⟨hfound, hfresh⟩ := Prod.mk.inj hrest
    exact ⟨Option.isNone_iff_eq_none.mp hwell, report, v, hreport, hlisted, toOption_eq_some.mp hv, hfound, hfresh⟩
  next => cases h

end

theorem vacant_slip : Vacant (slipFiles []) "gen" := vacant_of_list rfl

theorem check_orphans_slip :
    ∃ library report v v', Render.embedded? = some library ∧ Vacant (slipFiles []) "gen" ∧
      (slipRun ".rs" true library).fault = none ∧ (slipRun ".rs" true library).report = some report ∧
      report.paths = [("gen/slip.rs" : Text), ("gen/mod.rs" : Text)] ∧
      slipCheck ".rs" library (slipRun ".rs" true library).files ["a.json"] = .ok v ∧
      (v.findings.map fun f => (f.path, f.status)) = [(("gen/mod.rs" : Text), Status.orphaned)] ∧
      (∀ path, (∃ f ∈ v.findings, f.path = path ∧ f.status = .orphaned) ↔
        path ∈ report.paths ∧ Path.base path ∉ v.report.paths.map Path.base) ∧
      slipCheck ".rs" library slipNotes [] = .ok v' ∧ slipNotes.read "gen/notes.rs" = .ok "// Notes" ∧
      ∀ f ∈ v'.findings, f.path = "gen/notes.rs" → f.status ≠ .orphaned := by
  obtain ⟨library, hlibrary, hslip⟩ := (Option.any_eq_true _ _).mp exists_slip
  rw [Bool.and_eq_true, Bool.and_eq_true, beq_iff_eq] at hslip
  obtain ⟨⟨hkept, hnotes⟩, -⟩ := hslip
  obtain ⟨hfault, report, v, hreport, hlisted, hv, hfound, -⟩ := slipFound_inv hkept
  obtain ⟨v', hv'⟩ : ∃ v', slipCheck ".rs" library slipNotes [] = .ok v' := by
    cases hresult : slipCheck ".rs" library slipNotes [] with
    | error f =>
      rw [hresult] at hnotes
      cases hnotes
    | ok v' => exact ⟨v', rfl⟩
  have hg : Generator.new (slipFiles []) "v0" (wharfOptions ".rs" true "v1") = .ok (wharf ".rs" true "v1" library) :=
    Generator.new_of_embedded rfl hlibrary
  have hslash : Path.slash ∉ (".rs" : Text) := by decide
  obtain ⟨horphans, hunmarked⟩ := @check_orphans _ (wharf ".rs" false "v2" library) _ _ _ hg rfl hslash rfl rfl
  have hread : slipNotes.read "gen/notes.rs" = .ok "// Notes" := rfl
  exact ⟨library, report, v, v', hlibrary, vacant_slip, hfault, hreport, hlisted, hv, hfound,
    horphans _ _ _ _ _ _ _ _ _ _ vacant_slip hfault hreport (.refl _ _) hv, hv', hread,
    hunmarked _ _ _ _ _ _ hv' _ _ hread (by decide)⟩

/-- With an extension that leads to another name, a check does not know the files of a run. -/
theorem check_orphans_missed :
    ∃ g report v, Generator.new (slipFiles []) "v0" (wharfOptions "/../x.rs" false "v1") = .ok g ∧
      Vacant (slipFiles []) g.options.outputDir ∧ (g.generate (slipFiles []) .never ["a.json"]).fault = none ∧
      (g.generate (slipFiles []) .never ["a.json"]).report = some report ∧ report.paths = [("gen/x.rs" : Text)] ∧
      (run (wharf "/../x.rs" false "v2" g.renderer.library) (g.generate (slipFiles []) .never ["a.json"]).files "tmp" .never
        []).result = .ok v ∧ v.findings = [] ∧ v.report.paths.map Path.base = [] := by
  obtain ⟨library, hlibrary, hslip⟩ := (Option.any_eq_true _ _).mp exists_slip
  rw [Bool.and_eq_true, beq_iff_eq] at hslip
  obtain ⟨hfault, report, v, hreport, hlisted, hv, hfound, hfresh⟩ := slipFound_inv hslip.2
  exact ⟨wharf "/../x.rs" false "v1" library, report, v, Generator.new_of_embedded rfl hlibrary, vacant_slip, hfault, hreport,
    hlisted, hv, List.map_eq_nil_iff.mp hfound, hfresh⟩

end Check

end RpcBindings
