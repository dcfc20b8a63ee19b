import RpcBindings.Proofs.Stamp
import RpcBindings.Proofs.Verdict

/-!
# Checks agree with runs

After a run that went well a check finds nothing missing and nothing changed, whatever version it stamps. A check that finds
nothing at all tells that a run could render everything and would leave every line that counts as it is.
-/

namespace RpcBindings.Generate.Generator

open Files Render

/-! ## Another version -/

structure Restamped (g g' : Generator) : Prop where
  embedded : embedded? = some g.renderer.library
  library : g'.renderer.library = g.renderer.library
  outputDir : g'.options.outputDir = g.options.outputDir
  extension : g'.options.extension = g.options.extension
  index : g'.options.index = g.options.index

theorem of_parsed {version : Text} {parsed : Option Template.Library} {r : Renderer}
    (h : Renderer.ofParsed version parsed = .ok r) : parsed = some r.library ∧ r.version = version := by
  cases parsed with
  | none => cases h
  | some library =>
    obtain rfl := Except.ok.inj h
    exact ⟨rfl, rfl⟩

theorem new_inv {files : System} {fallback : Text} {o : Options} {g : Generator} (htemplates : o.templatesDir = [])
    (h : new files fallback o = .ok g) :
    embedded? = some g.renderer.library ∧ g.options = o.complete fallback ∧ g.renderer.version = g.options.version := by
  rw [new] at h
  obtain ⟨r, hr, h⟩ := bind_eq_ok.mp h
  have htemplates' : (o.complete fallback).templatesDir = [] := htemplates
  rw [if_pos htemplates'] at h
  obtain rfl := Except.ok.inj h
  obtain ⟨hlibrary, hversion⟩ := of_parsed hr
  exact ⟨hlibrary, rfl, hversion⟩

theorem new_of_embedded {files : System} {fallback : Text} {o : Options} {library : Template.Library}
    (htemplates : o.templatesDir = []) (h : embedded? = some library) :
    new files fallback o = .ok ⟨o.complete fallback, ⟨library, (o.complete fallback).version⟩⟩ := by
  have htemplates' : (o.complete fallback).templatesDir = [] := htemplates
  rw [new, Renderer.embedded, h]
  refine bind_eq_ok.mpr ⟨⟨library, (o.complete fallback).version⟩, rfl, ?_⟩
  rw [if_pos htemplates']
  rfl

section

variable {g g' : Generator} {cs : List Candidate} {m t t' : Text}

theorem restamped_of_new {files files' : System} {fallback fallback' version : Text} {o : Options}
    (htemplates : o.templatesDir = []) (h : new files fallback o = .ok g)
    (h' : new files' fallback' { o with version } = .ok g') : Restamped g g' := by
  obtain ⟨hlibrary, hoptions, -⟩ := new_inv htemplates h
  obtain ⟨hlibrary', hoptions', -⟩ := new_inv (o := { o with version }) htemplates h'
  rw [hlibrary] at hlibrary'
  refine ⟨hlibrary, (Option.some.inj hlibrary').symm, ?_, ?_, ?_⟩
  · rw [hoptions, hoptions']
    rfl
  · rw [hoptions, hoptions']
    rfl
  · rw [hoptions, hoptions']
    rfl

variable (h : Restamped g g') (hv : 10 ∉ g.renderer.version) (hv' : 10 ∉ g'.renderer.version)

theorem Restamped.modulePath (h : Restamped g g') (m : Text) : g'.modulePath m = g.modulePath m := by
  rw [Generator.modulePath, Generator.modulePath, h.outputDir, h.extension]

theorem Restamped.indexed (h : Restamped g g') : g'.Indexed cs ↔ g.Indexed cs := by
  rw [Indexed, Indexed, h.index]

theorem Restamped.planned (h : Restamped g g') : g'.Planned cs m ↔ g.Planned cs m := by
  rw [Planned, Planned, h.indexed]

include h hv hv'

theorem Restamped.execute {name : Text} {v : Template.Value} (ht : g.renderer.execute name v = .ok t) :
    ∃ t', g'.renderer.execute name v = .ok t' ∧ Check.significantLines t' = Check.significantLines t := by
  have hrenderer : g'.renderer = ⟨g.renderer.library, g'.renderer.version⟩ := by rw [← h.library]
  rw [hrenderer]
  exact Renderer.execute_alike h.embedded hv hv' ht

theorem Restamped.renderService {s : Service} {source : Text} (ht : g.renderService s source = .ok t) :
    ∃ t', g'.renderService s source = .ok t' ∧ Check.significantLines t' = Check.significantLines t := by
  obtain ⟨c, hc, ht⟩ := bind_eq_ok.mp ht
  obtain ⟨t', ht', hlines⟩ := h.execute hv hv' (mapError_eq_ok.mp ht)
  exact ⟨t', bind_eq_ok.mpr ⟨c, hc, mapError_eq_ok.mpr ht'⟩, hlines⟩

theorem Restamped.renderable (hr : g.Renderable cs) : g'.Renderable cs := by
  refine ⟨hr.distinct, fun c hc => ?_, fun hon => ?_⟩
  · obtain ⟨t, ht⟩ := hr.services c hc
    obtain ⟨t', ht', -⟩ := h.renderService hv hv' ht
    exact ⟨t', ht'⟩
  · obtain ⟨t, ht⟩ := hr.index (h.indexed.mp hon)
    obtain ⟨t', ht', -⟩ := h.execute hv hv' ht
    exact ⟨t', ht'⟩

theorem Restamped.due (hr : g.Renderable cs) (ht : g.Due cs m t) (ht' : g'.Due cs m t') :
    Check.significantLines t' = Check.significantLines t := by
  -- a module is due one text, so some text with the same lines is enough
  have hother : ∃ u, g'.Due cs m u ∧ Check.significantLines u = Check.significantLines t := by
    cases ht with
    | index hon htext =>
      obtain ⟨u, hu, hlines⟩ := h.execute hv hv' htext
      exact ⟨u, .index (h.indexed.mpr hon) hu, hlines⟩
    | service hc hkept htext =>
      obtain ⟨u, hu, hlines⟩ := h.renderService hv hv' htext
      exact ⟨u, .service hc (fun hover => hkept ⟨h.indexed.mp hover.1, hover.2⟩) hu, hlines⟩
  obtain ⟨u, hu, hlines⟩ := hother
  rw [Due.unique (h.renderable hv hv' hr) hu ht', hlines]

end

theorem Renderable.into {g : Generator} {cs : List Candidate} (dir : Text) (h : g.Renderable cs) : (g.into dir).Renderable cs :=
  ⟨h.distinct, h.services, h.index⟩

theorem Renderable.of_into {g : Generator} {cs : List Candidate} {dir : Text} (h : (g.into dir).Renderable cs) : g.Renderable cs :=
  ⟨h.distinct, h.services, h.index⟩

theorem due_into {g : Generator} {cs : List Candidate} {dir m t : Text} : (g.into dir).Due cs m t ↔ g.Due cs m t := by
  constructor
  · intro h
    cases h with
    | index hon htext => exact .index hon htext
    | service hc hkept htext => exact .service hc hkept htext
  · intro h
    cases h with
    | index hon htext => exact .index hon htext
    | service hc hkept htext => exact .service hc hkept htext

end RpcBindings.Generate.Generator

namespace RpcBindings.Check

open Files Generate

/-! ## What a check reads -/

def services (s : System) (paths : List Text) : List Candidate := candidates (paths.filterMap (loaded? s))

theorem services_congr {s s' : System} {paths : List Text} (h : ∀ p ∈ paths, Document.load s' p = Document.load s p) :
    services s' paths = services s paths := by
  rw [services, services]
  refine congrArg candidates (List.filterMap_congr fun p hp => ?_)
  rw [loaded?, loaded?, h p hp]

theorem load_congr {s s' : System} {p : Text} (h : s'.read p = s.read p) : Document.load s' p = Document.load s p := by
  rw [Document.load, Document.load, h]

theorem read_of_load {s : System} {p : Text} {d : Document} (h : Document.load s p = .ok d) : ∃ t, s.read p = .ok t := by
  cases hread : s.read p with
  | error f =>
    simp only [Document.load, hread] at h
    cases h
  | ok t => exact ⟨t, rfl⟩

section

variable {g : Generator} {s staged : System} {temporary dir : Text} {room : Location} {p t : Text}

theorem Staged.read (h : Staged s temporary dir room staged) (hread : s.read p = .ok t) : staged.read p = .ok t := by
  obtain ⟨loc, hloc, hfile⟩ := System.read_ok_iff.mp hread
  exact System.read_ok_iff.mpr ⟨loc, h.grown.locate hloc, h.grown.file_iff.mpr hfile⟩

theorem Staged.read_kept (h : Staged s temporary dir room staged) (hext : IsExtension g.options.extension) (signal : Signal)
    (paths : List Text) (hread : s.read p = .ok t) :
    ((g.into dir).generate staged signal paths).files.read p = .ok t := by
  obtain ⟨loc, hloc, hfile⟩ := System.read_ok_iff.mp hread
  have hout : ¬ room <+: loc := by
    intro hin
    rw [h.empty_below hin] at hfile
    cases hfile
  refine System.read_ok_iff.mpr ⟨loc, (h.inside hext signal paths).same.locate.mpr (h.grown.locate hloc), ?_⟩
  exact (h.outside hext signal paths hout).trans hfile

end

/-! ## After a run -/

section

variable {g g' : Generator} {s staged : System} {temporary dir p : Text} {room : Location} {signal : Signal}
  {paths : List Text}

/-- Every file that a run over services would write holds what is due, but for the lines that do not count. -/
structure Current (g : Generator) (s : System) (paths : List Text) : Prop where
  loads : ∀ p ∈ paths, ∃ d, Document.load s p = .ok d
  renderable : g.Renderable (services s paths)
  holds : ∀ m text, g.Due (services s paths) m text →
    ∃ found, s.read (g.modulePath m) = .ok found ∧ withoutMetadata found = withoutMetadata text

theorem current_of_generate (hext : IsExtension g.options.extension) (h : (g.generate s signal paths).fault = none)
    (hinputs : ∀ p ∈ paths, ∀ t, s.read p = .ok t → (g.generate s signal paths).files.read p = .ok t) :
    Current g (g.generate s signal paths).files paths := by
  obtain ⟨hloads, -, hdone⟩ := Generator.accomplished_generateIn hext (fun jobs => .refl jobs) h
  have hsame : ∀ p ∈ paths, Document.load (g.generate s signal paths).files p = Document.load s p := by
    intro p hp
    obtain ⟨d, hd⟩ := hloads p hp
    obtain ⟨t, ht⟩ := read_of_load hd
    exact load_congr ((hinputs p hp t ht).trans ht.symm)
  have hservices := services_congr hsame
  refine ⟨fun p hp => ?_, ?_, fun m text hdue => ?_⟩
  · rw [hsame p hp]
    exact hloads p hp
  · rw [hservices]
    exact hdone.renderable
  · rw [hservices] at hdue
    exact ⟨text, hdone.holds m text hdue, rfl⟩

theorem Current.restamped (h : Current g s paths) (hg : Generator.Restamped g g') (hv : 10 ∉ g.renderer.version)
    (hv' : 10 ∉ g'.renderer.version) : Current g' s paths := by
  refine ⟨h.loads, hg.renderable hv hv' h.renderable, fun m text hdue => ?_⟩
  obtain ⟨text', hdue'⟩ := h.renderable.exists_due (hg.planned.mp hdue.planned)
  obtain ⟨found, hfound, hlines⟩ := h.holds m text' hdue'
  rw [hg.modulePath]
  exact ⟨found, hfound, hlines.trans (withoutMetadata_eq_iff.mpr (hg.due hv hv' h.renderable hdue' hdue).symm)⟩

theorem Staged.services (h : Staged s temporary dir room staged) (hloads : ∀ p ∈ paths, ∃ d, Document.load s p = .ok d) :
    Check.services staged paths = Check.services s paths := by
  refine services_congr fun p hp => ?_
  obtain ⟨d, hd⟩ := hloads p hp
  obtain ⟨t, ht⟩ := read_of_load hd
  exact load_congr ((h.read ht).trans ht.symm)

theorem Staged.exists_due (h : Staged s temporary dir room staged) (hext : IsExtension g.options.extension) {cs : List Candidate}
    (hdone : (g.into dir).Accomplished cs ((g.into dir).generate staged signal paths)) {report : Report}
    (hreport : ((g.into dir).generate staged signal paths).report = some report) (hp : p ∈ report.paths) :
    ∃ m text, g.Due cs m text ∧ Path.join [g.options.outputDir, Path.base p] = g.modulePath m ∧
      Path.base p = m ++ g.options.extension ∧ ((g.into dir).generate staged signal paths).files.read p = .ok text := by
  obtain ⟨report', hreport', hpaths⟩ := hdone.report
  obtain rfl := Option.some.inj (hreport.symm.trans hreport')
  obtain ⟨m, hm, rfl⟩ := (hpaths p).mp hp
  obtain ⟨text, hdue⟩ := hdone.renderable.exists_due hm
  have hread := hdone.holds m text hdue
  obtain ⟨hbase, -, -⟩ := h.locate_of_mem hext hm hread
  refine ⟨m, text, Generator.due_into.mp hdue, ?_, hbase, hread⟩
  rw [hbase]
  rfl

theorem Staged.mem_names_iff (h : Staged s temporary dir room staged) (hext : IsExtension g.options.extension)
    {cs : List Candidate} (hdone : (g.into dir).Accomplished cs ((g.into dir).generate staged signal paths)) {report : Report}
    (hreport : ((g.into dir).generate staged signal paths).report = some report) (name : Text) :
    name ∈ report.paths.map Path.base ↔ ∃ m, g.Planned cs m ∧ name = m ++ g.options.extension := by
  obtain ⟨report', hreport', hpaths⟩ := hdone.report
  obtain rfl := Option.some.inj (hreport.symm.trans hreport')
  rw [List.mem_map]
  constructor
  · rintro ⟨p, hp, rfl⟩
    obtain ⟨m, text, hdue, -, hbase, -⟩ := h.exists_due hext hdone hreport hp
    exact ⟨m, hdue.planned, hbase⟩
  · rintro ⟨m, hm, rfl⟩
    obtain ⟨text, hdue⟩ := hdone.renderable.exists_due hm
    obtain ⟨hbase, -, -⟩ := h.locate_of_mem hext hm (hdone.holds m text hdue)
    exact ⟨_, (hpaths _).mpr ⟨m, hm, rfl⟩, hbase⟩

theorem Current.orphaned (h : Current g s paths) (hext : IsExtension g.options.extension) {v : Verdict}
    (hv : (run g s temporary signal paths).result = .ok v) : ∀ f ∈ v.findings, f.status = .orphaned := by
  obtain ⟨dir, room, staged, report, hstaged, hfault, hreport, hassess⟩ := run_inv hv
  obtain ⟨rfl, hexact⟩ := assess_exact hassess
  obtain ⟨-, -, hdone⟩ := Generator.accomplished_generateIn (g := g.into dir) hext (fun jobs => .refl jobs) hfault
  rw [← services, hstaged.services h.loads] at hdone
  intro f hf
  have hwrong := (hexact.listed f.status f.path).mp ⟨f, hf, rfl, rfl⟩
  cases hstatus : f.status with
  | orphaned => rfl
  | missing =>
    rw [hstatus] at hwrong
    obtain ⟨p, hp, hpath, hnone⟩ := hwrong
    obtain ⟨m, text, hdue, hmodule, -, -⟩ := hstaged.exists_due hext hdone hreport hp
    obtain ⟨found, hfound, -⟩ := h.holds m text hdue
    obtain ⟨loc, hloc, hfile⟩ := System.read_ok_iff.mp (hstaged.read_kept hext signal paths hfound)
    rw [hpath, hmodule] at hnone
    exact absurd (System.entryAt_ok_iff.mpr ⟨loc, hloc, hfile⟩) (hnone _)
  | changed =>
    rw [hstatus] at hwrong
    obtain ⟨p, hp, hpath, found', want, hfound', hwant, hne⟩ := hwrong
    obtain ⟨m, text, hdue, hmodule, -, hread⟩ := hstaged.exists_due hext hdone hreport hp
    obtain ⟨found, hfound, hlines⟩ := h.holds m text hdue
    rw [hpath, hmodule] at hfound'
    obtain rfl := Except.ok.inj (hfound'.symm.trans (hstaged.read_kept hext signal paths hfound))
    obtain rfl := Except.ok.inj (hwant.symm.trans hread)
    exact absurd (withoutMetadata_eq_iff.mp hlines) (differ_iff.mp hne)

end

/-! ## Checks that come to their end -/

/-- A directory is absent, or can be listed and its files of an extension can be opened, but for those that are expected. -/
def Listable (s : System) (dir extension : Text) (expected : Text → Prop) : Prop :=
  (∃ f, s.list dir = .error f ∧ f.refusal = .notFound) ∨
    ∃ entries, s.list dir = .ok entries ∧ ∀ e ∈ entries, e.2.isDirectory = false → extension <:+ e.1 → ¬ expected e.1 →
      ∃ content, s.read (Path.join [dir, e.1]) = .ok content

/-- A check can make its directory and write there, and can look through the output directory. -/
def Checkable (g : Generator) (s : System) (temporary : Text) (paths : List Text) : Prop :=
  ∃ dir room staged, Staged s temporary dir room staged ∧
    (∀ m, g.Planned (services s paths) m → Writable staged ((g.into dir).modulePath m)) ∧
    Listable ((g.into dir).generate staged .never paths).files g.options.outputDir g.options.extension
      fun name => ∃ m, g.Planned (services s paths) m ∧ name = m ++ g.options.extension

section

variable {g : Generator} {s staged : System} {temporary dir extension : Text} {room : Location} {signal : Signal}
  {paths names : List Text}

theorem inspect_ok_iff {name : Text} {entry : Entry} :
    (∃ r, inspect s dir extension names name entry = .ok r) ↔
      (entry.isDirectory = false → extension <:+ name → name ∉ names →
        ∃ content, s.read (Path.join [dir, name]) = .ok content) := by
  unfold inspect
  split
  next hskip =>
    refine iff_of_true ⟨none, rfl⟩ fun hentry hsuffix hname => ?_
    exact absurd ⟨hentry, hsuffix, hname⟩ (skipped_iff.mp hskip)
  next hkeep =>
    obtain ⟨hentry, hsuffix, hname⟩ := not_not.mp (mt skipped_iff.mpr hkeep)
    cases hread : s.read (Path.join [dir, name]) with
    | error f =>
      simp only [hread]
      refine iff_of_false nofun fun h => ?_
      obtain ⟨content, hcontent⟩ := h hentry hsuffix hname
      cases hcontent
    | ok content =>
      simp only [hread]
      exact iff_of_true ⟨_, rfl⟩ fun _ _ _ => ⟨content, rfl⟩

theorem leftOver_ok_iff :
    (∃ orphans, leftOver s dir extension names = .ok orphans) ↔ Listable s dir extension (· ∈ names) := by
  unfold leftOver
  constructor
  · rintro ⟨orphans, h⟩
    split at h
    next f hlist =>
      split at h
      next hnone => exact .inl ⟨f, hlist, hnone⟩
      next => cases h
    next entries hlist =>
      obtain ⟨inspected, hinspected, -⟩ := bind_eq_ok.mp h
      refine .inr ⟨entries, hlist, fun e he => inspect_ok_iff.mp ?_⟩
      obtain ⟨r, -, hr⟩ := (mem_of_mapM hinspected).1 e he
      exact ⟨r, hr⟩
  · rintro (⟨f, hlist, hnone⟩ | ⟨entries, hlist, hread⟩)
    · refine ⟨[], ?_⟩
      simp only [hlist, hnone, if_true]
    · obtain ⟨inspected, hinspected⟩ := exists_mapM fun e he => inspect_ok_iff.mpr (hread e he)
      refine ⟨inspected.filterMap id, ?_⟩
      simp only [hlist]
      exact bind_eq_ok.mpr ⟨inspected, hinspected, rfl⟩

theorem run_of_staged (h : Staged s temporary dir room staged) {report : Report}
    (hfault : ((g.into dir).generate staged signal paths).fault = none)
    (hreport : ((g.into dir).generate staged signal paths).report = some report) :
    (run g s temporary signal paths).result =
      assess ((g.into dir).generate staged signal paths).files g.options.outputDir g.options.extension report := by
  have hcreated : (do
      let dir ← s.freePath "mkdirtemp" temporary "krpcgen-check-"
      let staged ← s.mkdir dir
      return (dir, staged)) = .ok (dir, staged) := bind_eq_ok.mpr ⟨dir, h.free, bind_eq_ok.mpr ⟨staged, h.made, rfl⟩⟩
  rw [Generator.into, Generator.generate] at hfault hreport ⊢
  simp only [run, hcreated, hfault, hreport]

theorem Current.loads_staged (h : Current g s paths) (hstaged : Staged s temporary dir room staged) :
    ∀ p ∈ paths, ∃ d, Document.load staged p = .ok d := by
  intro p hp
  obtain ⟨d, hd⟩ := h.loads p hp
  obtain ⟨t, ht⟩ := read_of_load hd
  exact ⟨d, (load_congr ((hstaged.read ht).trans ht.symm)).trans hd⟩

theorem Staged.ready_iff (h : Staged s temporary dir room staged) {cs : List Candidate} :
    (g.into dir).Ready staged cs ↔ ∀ m, g.Planned cs m → Writable staged ((g.into dir).modulePath m) := by
  have hmade : staged.mkdirAll dir = .ok staged :=
    System.mkdirAll_of_isDirectory (System.isDirectory_iff.mpr ⟨room, h.leads, h.directory⟩)
  constructor
  · intro hready m hm
    have hne : cs ≠ [] := by
      rintro rfl
      exact Generator.not_planned_nil m hm
    obtain ⟨ready, hmade', hwritable⟩ := hready hne
    obtain rfl := Except.ok.inj (hmade.symm.trans hmade')
    exact hwritable m hm
  · exact fun hwritable _ => ⟨staged, hmade, hwritable⟩

theorem Current.exists_verdict_iff (h : Current g s paths) (hext : IsExtension g.options.extension) :
    (∃ v, (run g s temporary .never paths).result = .ok v) ↔ Checkable g s temporary paths := by
  constructor
  · rintro ⟨v, hv⟩
    obtain ⟨dir, room, staged, report, hstaged, hfault, hreport, hassess⟩ := run_inv hv
    obtain ⟨-, hready, hdone⟩ := Generator.accomplished_generateIn (g := g.into dir) hext (fun jobs => .refl jobs) hfault
    rw [← services, hstaged.services h.loads] at hready hdone
    obtain ⟨-, -, orphans, -, horphans, -⟩ := assess_lists hassess
    refine ⟨dir, room, staged, hstaged, hstaged.ready_iff.mp hready, ?_⟩
    rw [← funext fun name => propext (hstaged.mem_names_iff hext hdone hreport name)]
    exact leftOver_ok_iff.mp ⟨orphans, horphans⟩
  · rintro ⟨dir, room, staged, hstaged, hwritable, hlistable⟩
    have hservices := hstaged.services h.loads
    have hfault : ((g.into dir).generate staged .never paths).fault = none := by
      refine (Generator.fault_generateIn (g := g.into dir) hext fun jobs => .refl jobs).mpr ⟨h.loads_staged hstaged, ?_⟩
      rw [← services, hservices]
      exact ⟨h.renderable.into dir, hstaged.ready_iff.mpr hwritable⟩
    obtain ⟨-, -, hdone⟩ := Generator.accomplished_generateIn (g := g.into dir) hext (fun jobs => .refl jobs) hfault
    rw [← services, hservices] at hdone
    obtain ⟨report, hreport, -⟩ := hdone.report
    rw [← funext fun name => propext (hstaged.mem_names_iff hext hdone hreport name)] at hlistable
    rw [run_of_staged hstaged hfault hreport]
    have hcompare : ∀ p ∈ report.paths,
        ∃ r, compare ((g.into dir).generate staged .never paths).files g.options.outputDir p = .ok r := by
      intro p hp
      obtain ⟨m, text, hdue, hmodule, -, hread⟩ := hstaged.exists_due hext hdone hreport hp
      obtain ⟨found, hfound, -⟩ := h.holds m text hdue
      have hkept := hstaged.read_kept hext .never paths hfound
      rw [← hmodule] at hkept
      simp only [compare, hread, hkept]
      exact ⟨_, rfl⟩
    obtain ⟨compared, hcompared⟩ := exists_mapM hcompare
    obtain ⟨orphans, horphans⟩ := leftOver_ok_iff.mpr hlistable
    exact ⟨_, bind_eq_ok.mpr ⟨compared, hcompared, bind_eq_ok.mpr ⟨orphans, horphans, rfl⟩⟩⟩

end

/-! ## After a check -/

def Apart (s : System) (room : Location) (path : Text) : Prop := ∀ l, s.OnWay path l → ¬ room <+: l

section

variable {g : Generator} {s staged : System} {temporary dir m p t : Text} {room : Location} {signal : Signal}
  {paths : List Text}

theorem Staged.entry_of_not_prefix (h : Staged s temporary dir room staged) {l : Location} (hl : ¬ room <+: l) :
    staged.tree.get? l = s.tree.get? l := by
  have hne : l ≠ room := fun heq => hl (heq ▸ List.prefix_refl _)
  exact (h.entry l).trans (if_neg hne)

theorem Staged.apart (h : Staged s temporary dir room staged) {e : Entry} (he : s.entryAt p = .ok e) : Apart s room p := by
  obtain ⟨loc, hloc, hentry⟩ := System.entryAt_ok_iff.mp he
  rintro l ⟨front, rest, hsplit, rfl⟩ hin
  have hnone := h.empty_below hin
  -- the place is the end of the way, or a directory that the way goes through
  cases rest with
  | nil =>
    rw [List.append_nil] at hsplit
    rw [System.eq_follow_of_locate hloc, hsplit, hnone] at hentry
    cases hentry
  | cons name rest =>
    have hwalk := (System.locate_ok_iff.mp hloc).2
    rw [hsplit] at hwalk
    rw [System.directory_of_walk_append hwalk] at hnone
    cases hnone

theorem Staged.read_apart (h : Staged s temporary dir room staged) (hp : Apart s room p) : staged.read p = s.read p := by
  have hlocate : staged.locate p = s.locate p := by
    unfold System.locate
    rw [System.start_congr h.cwd]
    refine congrArg (System.checkPath p >>= ·) (funext fun _ => System.walk_congr fun front name rest hsplit => ?_)
    exact h.entry_of_not_prefix (hp _ ⟨front, name :: rest, hsplit, rfl⟩)
  have hentry : staged.entryAt p = s.entryAt p := by
    unfold System.entryAt
    rw [hlocate]
    cases hloc : s.locate p with
    | error e => rfl
    | ok loc =>
      have hway : s.OnWay p loc :=
        ⟨Text.splitOn Path.slash p, [], (List.append_nil _).symm, System.eq_follow_of_locate hloc⟩
      simp only [h.entry_of_not_prefix (hp loc hway)]
  rw [System.read, System.read, hentry]

theorem Staged.read_back (h : Staged s temporary dir room staged) (hext : IsExtension g.options.extension)
    (hapart : Apart s room g.options.outputDir) (hm : IsModule m)
    (hread : ((g.into dir).generate staged signal paths).files.read (g.modulePath m) = .ok t) :
    s.read (g.modulePath m) = .ok t := by
  have hinside := h.inside (g := g) hext signal paths
  have hslash := slash_not_mem_fileName hm hext
  have habsolute : Path.isAbsolute (g.modulePath m) = Path.isAbsolute g.options.outputDir :=
    Path.isAbsolute_join_of_name hslash _
  obtain ⟨loc, hloc, hfile⟩ := System.read_ok_iff.mp hread
  have hlocStaged := hinside.same.locate.mp hloc
  have hstart : s.start (g.modulePath m) = s.start g.options.outputDir := by
    rw [System.start, habsolute]
    rfl
  have hstartStaged : staged.start (g.modulePath m) = s.start g.options.outputDir :=
    (System.start_congr h.cwd _).trans hstart
  -- neither the way to the file nor the file is in the directory of the check
  have hhome : ¬ room <+: Path.follow (s.start g.options.outputDir) (Text.splitOn Path.slash g.options.outputDir) :=
    hapart _ ⟨_, [], (List.append_nil _).symm, rfl⟩
  have hne : loc ≠ room := by
    rintro rfl
    rw [(hinside.same.directory_iff loc).mpr h.directory] at hfile
    cases hfile
  have hout : ¬ room <+: loc := by
    have heq := System.eq_follow_of_locate hlocStaged
    rw [hstartStaged, Generator.modulePath, Path.follow_join hslash start_of_isAbsolute] at heq
    rw [heq] at hne ⊢
    exact Path.not_prefix_enter hhome hne
  have hfileStaged : staged.tree.get? loc = some (.file t) := by
    rw [h.entry_of_not_prefix hout, ← h.outside hext signal paths hout]
    exact hfile
  have hcwd : s.StartsIn (g.modulePath m) := by
    intro hrelative
    have hdir := System.directory_of_walk (System.locate_ok_iff.mp hlocStaged).2 (Text.splitOn_ne_nil _ _)
    have hnot : ¬ room <+: s.start g.options.outputDir := hapart _ ⟨[], _, rfl, rfl⟩
    rw [hstartStaged, h.entry_of_not_prefix hnot] at hdir
    rwa [System.start, if_neg (by rw [← habsolute, hrelative]; exact Bool.false_ne_true)] at hdir
  exact (h.grown.read hcwd (Path.straight_join_of_any _ _) t).mp (System.read_ok_iff.mpr ⟨loc, hlocStaged, hfileStaged⟩)

theorem read_of_upToDate {seen : System} {outputDir extension : Text} {report : Report} {v : Verdict}
    (h : assess seen outputDir extension report = .ok v) (hup : v.upToDate = true) (hp : p ∈ report.paths) :
    ∃ found want, seen.read (Path.join [outputDir, Path.base p]) = .ok found ∧ seen.read p = .ok want ∧
      ¬ Differ found want := by
  obtain ⟨-, compared, orphans, hcompared, -, hmem, -⟩ := assess_lists h
  obtain ⟨r, hr, hcompare⟩ := (mem_of_mapM hcompared).1 p hp
  have hnone : ∀ f, r ≠ some f := by
    rintro f rfl
    have hin := (hmem f).mpr (.inl (List.mem_filterMap.mpr ⟨_, hr, rfl⟩))
    rw [Verdict.upToDate, List.isEmpty_iff] at hup
    rw [hup] at hin
    cases hin
  obtain ⟨want, hwant, ⟨-, hfinding⟩ | ⟨found, hfound, ⟨hsame, -⟩ | ⟨-, diff, -, hfinding⟩⟩⟩ := compare_cases hcompare
  · exact absurd hfinding (hnone _)
  · exact ⟨found, want, hfound, hwant, hsame⟩
  · exact absurd hfinding (hnone _)

/-- If a check finds nothing, everything is current, and what it has rendered are the files of a run. -/
theorem current_of_upToDate (hext : IsExtension g.options.extension) {v : Verdict}
    (hv : (run g s temporary signal paths).result = .ok v) (hup : v.upToDate = true)
    (hapart : ∀ dir room staged, Staged s temporary dir room staged → ∀ p ∈ g.options.outputDir :: paths, Apart s room p) :
    Current g s paths ∧ ∀ name, name ∈ v.report.paths.map Path.base ↔
      ∃ m, g.Planned (services s paths) m ∧ name = m ++ g.options.extension := by
  obtain ⟨dir, room, staged, report, hstaged, hfault, hreport, hassess⟩ := run_inv hv
  obtain ⟨rfl, -⟩ := assess_exact hassess
  have hways := hapart dir room staged hstaged
  -- the check has read the inputs that a run reads
  have hsame : ∀ p ∈ paths, Document.load staged p = Document.load s p := fun p hp =>
    load_congr (hstaged.read_apart (hways p (List.mem_cons_of_mem _ hp)))
  obtain ⟨hloads, -, hdone⟩ := Generator.accomplished_generateIn (g := g.into dir) hext (fun jobs => .refl jobs) hfault
  rw [← services, services_congr hsame] at hdone
  obtain ⟨report', hreport', hpaths⟩ := hdone.report
  obtain rfl := Option.some.inj (hreport.symm.trans hreport')
  refine ⟨⟨fun p hp => ?_, hdone.renderable.of_into, fun m text hdue => ?_⟩, hstaged.mem_names_iff hext hdone hreport⟩
  · rw [← hsame p hp]
    exact hloads p hp
  · have hread := hdone.holds m text (Generator.due_into.mpr hdue)
    obtain ⟨hbase, -, -⟩ := hstaged.locate_of_mem hext hdue.planned hread
    have hp : (g.into dir).modulePath m ∈ v.report.paths := (hpaths _).mpr ⟨m, hdue.planned, rfl⟩
    obtain ⟨found, want, hfound, hwant, hsame'⟩ := read_of_upToDate hassess hup hp
    obtain rfl := Except.ok.inj (hwant.symm.trans hread)
    rw [hbase] at hfound
    exact ⟨found, hstaged.read_back hext (hways _ List.mem_cons_self) hdue.planned.isModule hfound,
      withoutMetadata_eq_iff.mpr (not_not.mp (mt differ_iff.mpr hsame'))⟩

end

/-! ## Runs and checks -/

section

variable {g g' : Generator} {o : Options} {s₁ s₂ : System} {fallback fallback' version : Text}

theorem check_agrees (hg : Generator.new s₁ fallback o = .ok g) (hg' : Generator.new s₂ fallback' { o with version } = .ok g')
    (htemplates : o.templatesDir = []) (hext : Path.slash ∉ o.extension) (hv : 10 ∉ g.options.version)
    (hv' : 10 ∉ g'.options.version) (s : System) (temporary : Text) (signal signal' : Signal) (paths : List Text) :
    ((g.generate s signal paths).fault = none →
      (∀ p ∈ paths, ∀ t, s.read p = .ok t → (g.generate s signal paths).files.read p = .ok t) →
      (∀ v, (run g' (g.generate s signal paths).files temporary signal' paths).result = .ok v →
        ∀ f ∈ v.findings, f.status ≠ .missing ∧ f.status ≠ .changed) ∧
      ((∃ v, (run g' (g.generate s signal paths).files temporary .never paths).result = .ok v) ↔
        Checkable g' (g.generate s signal paths).files temporary paths)) ∧
    ∀ v, (run g' s temporary signal' paths).result = .ok v → v.upToDate = true →
      (∀ dir room staged, Staged s temporary dir room staged → ∀ p ∈ g'.options.outputDir :: paths, Apart s room p) →
      Current g' s paths ∧
      (∀ name, name ∈ v.report.paths.map Path.base ↔
        ∃ m, g'.Planned (services s paths) m ∧ name = m ++ g'.options.extension) ∧
      ((g'.generate s .never paths).fault = none ↔ g'.Ready s (services s paths)) ∧
      ((g'.generate s .never paths).fault = none → g'.Accomplished (services s paths) (g'.generate s .never paths)) := by
  have hrestamped := Generator.restamped_of_new htemplates hg hg'
  obtain ⟨-, hoptions, hversion⟩ := Generator.new_inv htemplates hg
  obtain ⟨-, -, hversion'⟩ := Generator.new_inv (o := { o with version }) htemplates hg'
  rw [← hversion] at hv
  rw [← hversion'] at hv'
  have hextG : IsExtension g.options.extension := by
    rw [hoptions, IsExtension]
    -- no extension stands for the usual one
    change Path.slash ∉ if o.extension = [] then (".rs" : Text) else o.extension
    split
    next => decide
    next => exact hext
  have hextG' : IsExtension g'.options.extension := by
    rw [hrestamped.extension]
    exact hextG
  refine ⟨fun hfault hinputs => ?_, fun v hresult hup hapart => ?_⟩
  · have hcurrent := (current_of_generate hextG hfault hinputs).restamped hrestamped hv hv'
    refine ⟨fun v hresult f hf => ?_, hcurrent.exists_verdict_iff hextG'⟩
    rw [hcurrent.orphaned hextG' hresult f hf]
    exact ⟨nofun, nofun⟩
  · obtain ⟨hcurrent, hnames⟩ := current_of_upToDate hextG' hresult hup hapart
    have hfault : (g'.generate s .never paths).fault = none ↔ _ := Generator.fault_generateIn hextG' fun jobs => .refl jobs
    refine ⟨hcurrent, hnames, ⟨fun h => (hfault.mp h).2.2, fun hready => ?_⟩, fun h => ?_⟩
    · exact hfault.mpr ⟨hcurrent.loads, hcurrent.renderable, hready⟩
    · exact (Generator.accomplished_generateIn hextG' (fun jobs => .refl jobs) h).2.2

end

def wharfFiles : System where
  tree := ⟨[(["a.json"], .file (Generator.declaring "Wharf")), (["tmp"], .directory)]⟩
  cwd := []

def wharfOptions (extension : Text) (index : Bool) (version : Text) : Options := ⟨"gen", extension, index, 1, [], version⟩

def wharf (extension : Text) (index : Bool) (version : Text) (library : Template.Library) : Generator :=
  ⟨wharfOptions extension index version, ⟨library, version⟩⟩

def wharfRun (extension : Text) (index : Bool) (library : Template.Library) : Run :=
  (wharf extension index "v1" library).generate wharfFiles .never ["a.json"]

def wharfCheck (extension : Text) (index : Bool) (library : Template.Library) : Option (List (Text × Status)) :=
  if (wharfRun extension index library).fault.isNone &&
      ((wharfRun extension index library).files.read "a.json").toOption == some (Generator.declaring "Wharf") then
    (run (wharf extension index "v2" library) (wharfRun extension index library).files "tmp" .never ["a.json"]).result.toOption.map
      fun v => v.findings.map fun f => (f.path, f.status)
  else none

def withinOptions : Options := { wharfOptions ".rs" false "v1" with outputDir := "tmp/krpcgen-check-1000000000" }

def within (library : Template.Library) : Generator := ⟨withinOptions, ⟨library, "v1"⟩⟩

theorem exists_wharf : (Render.embedded?.any fun library =>
    ((run (within library) wharfFiles "tmp" .never ["a.json"]).result.toOption.any Verdict.upToDate) &&
    wharfCheck ".rs" true library == some [] && (wharfRun ".rs" true library).files.isDirectory "gen" &&
      ((wharf ".rs" true "v2" library).generate (wharfRun ".rs" true library).files .never ["a.json"]).fault.isNone &&
      wharfCheck "/../../x.rs" false library == some [(("gen/x.rs" : Text), Status.missing)]) = true := by
  unfold Render.embedded? Render.serviceText Render.indexText
  repeat rw [Render.template_cons]
  decide +kernel

section

variable {extension : Text} {index : Bool} {library : Template.Library}

theorem wharfCheck_inv {found : List (Text × Status)} (h : wharfCheck extension index library = some found) :
    (wharfRun extension index library).fault = none ∧
      (wharfRun extension index library).files.read "a.json" = .ok (Generator.declaring "Wharf") ∧
      ∃ v, (run (wharf extension index "v2" library) (wharfRun extension index library).files "tmp" .never
          ["a.json"]).result = .ok v ∧ (v.findings.map fun f => (f.path, f.status)) = found := by
  rw [wharfCheck] at h
  split at h
  next hwell =>
    rw [Bool.and_eq_true, Option.isNone_iff_eq_none, beq_iff_eq] at hwell
    obtain ⟨v, hv, hfound⟩ := Option.map_eq_some_iff.mp h
    exact ⟨hwell.1, toOption_eq_some.mp hwell.2, v, toOption_eq_some.mp hv, hfound⟩
  next => cases h

theorem wharf_kept (h : (wharfRun extension index library).files.read "a.json" = .ok (Generator.declaring "Wharf")) :
    ∀ p ∈ [("a.json" : Text)], ∀ t, wharfFiles.read p = .ok t → (wharfRun extension index library).files.read p = .ok t := by
  intro p hp t ht
  obtain rfl := List.mem_singleton.mp hp
  have hread : wharfFiles.read "a.json" = .ok (Generator.declaring "Wharf") := rfl
  rw [h, ← hread, ht]

end

theorem check_agrees_wharf :
    ∃ library, Render.embedded? = some library ∧ (wharfRun ".rs" true library).fault = none ∧
      (∃ v, (run (wharf ".rs" true "v2" library) (wharfRun ".rs" true library).files "tmp" .never ["a.json"]).result = .ok v ∧
        ∀ f ∈ v.findings, f.status ≠ .missing ∧ f.status ≠ .changed) ∧
      Checkable (wharf ".rs" true "v2" library) (wharfRun ".rs" true library).files "tmp" ["a.json"] ∧
      Current (wharf ".rs" true "v2" library) (wharfRun ".rs" true library).files ["a.json"] ∧
      (wharf ".rs" true "v2" library).Ready (wharfRun ".rs" true library).files
        (services (wharfRun ".rs" true library).files ["a.json"]) := by
  obtain ⟨library, hlibrary, hwharf⟩ := (Option.any_eq_true _ _).mp exists_wharf
  simp only [Bool.and_eq_true, beq_iff_eq, Option.isNone_iff_eq_none] at hwharf
  obtain ⟨⟨⟨⟨-, hcheck⟩, hdir⟩, hagain⟩, -⟩ := hwharf
  obtain ⟨hfault, hread, v, hv, hfound⟩ := wharfCheck_inv hcheck
  have hg : Generator.new wharfFiles "v0" (wharfOptions ".rs" true "v1") = .ok (wharf ".rs" true "v1" library) :=
    Generator.new_of_embedded rfl hlibrary
  have hg' : Generator.new wharfFiles "v0" { wharfOptions ".rs" true "v1" with version := "v2" } =
      .ok (wharf ".rs" true "v2" library) := Generator.new_of_embedded rfl hlibrary
  have hup : v.upToDate = true := by
    rw [Verdict.upToDate, List.isEmpty_iff]
    exact List.map_eq_nil_iff.mp hfound
  have hapart : ∀ dir room staged, Staged (wharfRun ".rs" true library).files "tmp" dir room staged →
      ∀ p ∈ [("gen" : Text), "a.json"], Apart (wharfRun ".rs" true library).files room p := by
    intro dir room staged hstaged p hp
    rcases List.mem_cons.mp hp with rfl | hp
    · obtain ⟨loc, hloc, hentry⟩ := System.isDirectory_iff.mp hdir
      exact hstaged.apart (System.entryAt_ok_iff.mpr ⟨loc, hloc, hentry⟩)
    · obtain rfl := List.mem_singleton.mp hp
      obtain ⟨loc, hloc, hentry⟩ := System.read_ok_iff.mp hread
      exact hstaged.apart (System.entryAt_ok_iff.mpr ⟨loc, hloc, hentry⟩)
  have hv₁ : 10 ∉ ("v1" : Text) := by decide
  have hv₂ : 10 ∉ ("v2" : Text) := by decide
  have hagrees := check_agrees hg hg' rfl (by decide) hv₁ hv₂
  obtain ⟨hclean, hcheckable⟩ := (hagrees wharfFiles "tmp" .never .never ["a.json"]).1 hfault (wharf_kept hread)
  obtain ⟨hcurrent, -, hready, -⟩ :=
    (hagrees (wharfRun ".rs" true library).files "tmp" .never .never ["a.json"]).2 v hv hup hapart
  exact ⟨library, hlibrary, hfault, ⟨v, hv, hclean v hv⟩, hcheckable.mp ⟨v, hv⟩, hcurrent, hready.mp hagain⟩

/-- With an extension that leads out of the directory, a check looks in the wrong place. -/
theorem check_misses_wharf :
    ∃ g g' v, Generator.new wharfFiles "v0" (wharfOptions "/../../x.rs" false "v1") = .ok g ∧
      Generator.new wharfFiles "v0" (wharfOptions "/../../x.rs" false "v2") = .ok g' ∧
      (g.generate wharfFiles .never ["a.json"]).fault = none ∧
      (∀ p ∈ [("a.json" : Text)], ∀ t, wharfFiles.read p = .ok t →
        (g.generate wharfFiles .never ["a.json"]).files.read p = .ok t) ∧
      (run g' (g.generate wharfFiles .never ["a.json"]).files "tmp" .never ["a.json"]).result = .ok v ∧
      ∃ f ∈ v.findings, f.status = .missing := by
  obtain ⟨library, hlibrary, hwharf⟩ := (Option.any_eq_true _ _).mp exists_wharf
  rw [Bool.and_eq_true, beq_iff_eq] at hwharf
  obtain ⟨hfault, hread, v, hv, hfound⟩ := wharfCheck_inv hwharf.2
  refine ⟨wharf "/../../x.rs" false "v1" library, wharf "/../../x.rs" false "v2" library, v,
    Generator.new_of_embedded rfl hlibrary, Generator.new_of_embedded rfl hlibrary, hfault, wharf_kept hread, hv, ?_⟩
  obtain ⟨f, rest, hfindings, hf, -⟩ := List.map_eq_cons_iff.mp hfound
  exact ⟨f, hfindings ▸ List.mem_cons_self, (Prod.mk.inj hf).2⟩

/-- A check whose output directory is its own compares each fresh file with itself. It finds nothing wrong where there is
no file at all. -/
theorem check_within_itself :
    ∃ g v, Generator.new wharfFiles "v0" withinOptions = .ok g ∧
      (run g wharfFiles "tmp" .never ["a.json"]).result = .ok v ∧ v.upToDate = true ∧ ¬ Current g wharfFiles ["a.json"] := by
  obtain ⟨library, hlibrary, hwharf⟩ := (Option.any_eq_true _ _).mp exists_wharf
  simp only [Bool.and_eq_true] at hwharf
  obtain ⟨v, hv, hup⟩ := (Option.any_eq_true _ _).mp hwharf.1.1.1.1
  refine ⟨within library, v, Generator.new_of_embedded rfl hlibrary, toOption_eq_some.mp hv, hup, fun hcurrent => ?_⟩
  have hservice : ((services wharfFiles ["a.json"]).any fun c => Binding.moduleName c.name == "wharf") = true := by
    decide +kernel
  obtain ⟨c, hc, hname⟩ := List.any_eq_true.mp hservice
  obtain ⟨text, hdue⟩ := hcurrent.renderable.exists_due (.inl ⟨c, hc, rfl⟩)
  obtain ⟨found, hfound, -⟩ := hcurrent.holds _ _ hdue
  rw [eq_of_beq hname] at hfound
  have hnone : (wharfFiles.read "tmp/krpcgen-check-1000000000/wharf.rs").toOption = none := by decide
  exact Option.some_ne_none found ((toOption_eq_some.mpr hfound).symm.trans hnone)

end RpcBindings.Check
