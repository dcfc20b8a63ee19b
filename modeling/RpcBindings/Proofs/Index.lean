import RpcBindings.Proofs.Accounting
import RpcBindings.Proofs.Composition
import RpcBindings.Proofs.Success

/-!
# The module index lists the modules

The built-in template of the index writes a header and one line for each module it is given. A run that ends with a
report gives it the modules of its report, and only if nothing failed. Then no service was refused, so the services of
the documents have different modules, and all of these were written: the list is the list of all modules in strict order.
-/

namespace RpcBindings.Render

open Binding Template

def indexHeader (version : Text) : Text :=
  "// Code generated by krpcgen from kRPC service definitions. DO NOT EDIT.\n" ++
    "// Regenerate with: krpcgen generate\n" ++ "// Generator version: " ++ version ++ "\n\n"

def indexLine (module : Text) : Text := "pub mod " ++ module ++ ";\n"

-- The template breaks the line in front of each module, which comes to the same as a break behind each.
theorem break_indexLines (modules : List Text) :
    modules.flatMap (fun m => [("\npub mod " : Text), m, ";"].flatten) ++ ("\n" : Text) =
      ("\n" : Text) ++ modules.flatMap indexLine := by
  have hfront : ("\npub mod " : Text) = ("\n" : Text) ++ ("pub mod " : Text) := by decide
  have hback : (";\n" : Text) = (";" : Text) ++ ("\n" : Text) := by decide
  induction modules with
  | nil => rfl
  | cons m modules ih =>
    rw [List.flatMap_cons, List.append_assoc, ih, List.flatMap_cons, indexLine, hfront, hback]
    simp only [List.flatten_cons, List.flatten_nil, List.append_nil, List.append_assoc]

theorem passage_indexHeader : passage
    ["// Code generated by krpcgen from kRPC service definitions. DO NOT EDIT.",
     "// Regenerate with: krpcgen generate",
     "// Generator version: "] =
    ("// Code generated by krpcgen from kRPC service definitions. DO NOT EDIT.\n" : Text) ++
      ("// Regenerate with: krpcgen generate\n" : Text) ++ ("// Generator version: " : Text) := by decide +kernel

theorem writes_indexNodes {call : Text → Value → Except ExecFault Text} {scope : Scope} (version : Text)
    (modules : List Text) :
    Writes call ⟨version, .index modules⟩ scope Layout.indexNodes (indexHeader version ++ modules.flatMap indexLine) := by
  have hmodules : Gives ⟨version, .index modules⟩ scope [.field ["Modules"]] (.texts modules) := rfl
  have heach : (Layout.each "Modules" [.text "\npub mod ", Layout.shown .dot, .text ";"]).Writes call
      ⟨version, .index modules⟩ scope (modules.flatMap fun m => [("\npub mod " : Text), m, ";"].flatten) :=
    writes_loop hmodules rfl fun m => writes_flatten
      (.cons (writes_text _) <| .cons (writes_shown rfl) <| .cons (writes_text _) .nil)
  have hnodes : Writes call ⟨version, .index modules⟩ scope Layout.indexNodes _ := writes_flatten
    (.cons (writes_text _) <| .cons (writes_shown (t := version) rfl) <| .cons (writes_text _) <| .cons heach <|
      .cons (writes_text _) .nil)
  have hflat (a b c d e : Text) : [a, b, c, d, e].flatten = a ++ b ++ c ++ (d ++ e) := by simp
  have hend (a b : Text) : a ++ ("\n" : Text) ++ (("\n" : Text) ++ b) = a ++ ("\n\n" : Text) ++ b := by simp [Text.ofString]
  rw [hflat, break_indexLines, hend, passage_indexHeader] at hnodes
  exact hnodes

theorem embedded_eq (version : Text) : Renderer.embedded version = .ok ⟨Layout.library, version⟩ := by
  rw [Renderer.embedded, embedded?_eq]
  rfl

theorem index_of_embedded {version : Text} {r : Renderer} (h : Renderer.embedded version = .ok r) (modules : List Text) :
    r.index modules = .ok (indexHeader version ++ modules.flatMap indexLine) := by
  have hget : Layout.library.get? indexName = some Layout.indexNodes := rfl
  have hcontains : Layout.library.contains indexName = true := by decide
  have hexecute : Template.execute Layout.library version indexName (.index modules) =
      .ok (indexHeader version ++ modules.flatMap indexLine) := invoke_of_writes hget (writes_indexNodes version modules)
  obtain rfl := Except.ok.inj ((embedded_eq version).symm.trans h)
  simp only [Renderer.index, Renderer.execute, hcontains, if_true, hexecute]
  rfl

end RpcBindings.Render

namespace RpcBindings.Generate

open Files

/-! ## The modules of candidates -/

section

variable {cs : List Candidate}

theorem mem_moduleList {m : Text} : m ∈ moduleList cs ↔ ∃ c ∈ cs, m = Binding.moduleName c.name := by
  rw [moduleList, List.mem_mergeSort, List.mem_map]
  exact exists_congr fun c => and_congr_right fun _ => eq_comm

theorem ascending_moduleList (h : (cs.map fun c => Binding.moduleName c.name).Nodup) :
    (moduleList cs).Pairwise (· < ·) := by
  have hsorted := List.pairwise_mergeSort (Text.ordered_trans id) (Text.ordered_total id)
    (cs.map fun c => Binding.moduleName c.name)
  have hnodup : (moduleList cs).Nodup := (List.mergeSort_perm _ _).nodup_iff.mpr h
  refine hsorted.imp₂ (fun a b hle hne => ?_) hnodup
  by_contra hlt
  exact hne (List.le_antisymm (of_decide_eq_true hle) (List.not_lt.mp hlt))

theorem exists_candidate_iff {documents : List Document} {m : Text} :
    (∃ c ∈ candidates documents, m = Binding.moduleName c.name) ↔
      ∃ d ∈ documents, ∃ name ∈ d.services.keys, m = Binding.moduleName name := by
  simp only [candidates, List.mem_flatMap, List.mem_map, Dict.keys]
  constructor
  · rintro ⟨c, ⟨d, hd, e, he, rfl⟩, rfl⟩
    exact ⟨d, hd, e.1, ⟨e, he, rfl⟩, rfl⟩
  · rintro ⟨d, hd, name, ⟨e, he, rfl⟩, rfl⟩
    exact ⟨⟨d.path, e.1, e.2⟩, ⟨d, hd, e, he, rfl⟩, rfl⟩

end

namespace Generator

variable {g : Generator} {arrange : List Job → List Job} {files : System} {signal : Signal} {setbacks : Setbacks}
  {report : Report}

theorem indexPath_ne_nil (g : Generator) : g.indexPath ≠ [] := by
  have hname : indexModule ++ g.options.extension ≠ [] := by simp [indexModule, Text.ofString]
  rw [indexPath, modulePath]
  by_cases hdir : g.options.outputDir = []
  · rw [hdir, Path.join_empty, if_neg hname]
    exact Path.clean_ne_nil _
  · rw [Path.join_pair hdir]
    exact Path.clean_ne_nil _

theorem index_ne_nil_iff {s : System} {last : Report} (hindex : report.index = [])
    (h : (g.writeIndex s report setbacks).report = some last) : last.index ≠ [] ↔ g.IndexDue last := by
  have hend := writeIndex_end (g := g) s report setbacks
  generalize g.writeIndex s report setbacks = run at hend h
  cases hend with
  | skipped hdue => exact Option.some.inj h ▸ iff_of_false (not_not.mpr hindex) hdue
  | unrendered => cases h
  | unwritten => cases h
  | written hdue => exact Option.some.inj h ▸ iff_of_true g.indexPath_ne_nil hdue

section

variable {count : Nat} {failures : List Failure} {documents : List Document}

theorem runDocuments_index_iff
    (h : (g.runDocuments arrange files signal count failures documents setbacks).report = some report) :
    report.index ≠ [] ↔ g.IndexDue report := by
  obtain ⟨ready, -, -, -, last, hlast, rfl⟩ := runDocuments_reported h
  exact (index_ne_nil_iff rfl hlast : last.index ≠ [] ↔ g.IndexDue last)

theorem runDocuments_modules (harrange : ∀ jobs, (arrange jobs).Perm jobs)
    (h : (g.runDocuments arrange files signal count failures documents setbacks).report = some report)
    (hfailed : report.failed = []) :
    report.modules = moduleList (candidates documents) ∧
      ((candidates documents).map fun c => Binding.moduleName c.name).Nodup := by
  obtain ⟨ready, -, hstopped, -, last, hlast, rfl⟩ := runDocuments_reported h
  obtain ⟨hwritten, hsame⟩ := writeIndex_lists hlast
  obtain ⟨hfailures, hjobs⟩ := failed_eq_nil_iff.mp (hsame.symm.trans hfailed)
  obtain ⟨hplan, hnodup⟩ := plan_of_refused (List.append_eq_nil_iff.mp hfailures).2
  refine ⟨?_, hnodup⟩
  have hresults : ∀ j ∈ (g.plan documents).jobs, ∃ fault,
      (g.performAll ready signal (arrange (g.plan documents).jobs) setbacks).results.lookup j.module = some fault :=
    fun j hj => lookup_performAll ((harrange _).mem_iff.mpr hj) hstopped
  have hall : last.written.Perm ((g.plan documents).jobs.map fun j => ⟨j.service.name, j.module, j.path⟩) := by
    rw [hwritten]
    exact written_perm ((failedJobs_eq_nil_iff hresults).mp hjobs)
  rw [hplan] at hall
  exact modules_of_perm hall

theorem runDocuments_listing (harrange : ∀ jobs, (arrange jobs).Perm jobs)
    (h : (g.runDocuments arrange files signal count failures documents setbacks).report = some report) {version : Text}
    (hembedded : Render.Renderer.embedded version = .ok g.renderer) (hindex : report.index ≠ []) :
    (g.runDocuments arrange files signal count failures documents setbacks).files.read report.index =
      .ok (Render.indexHeader version ++ (moduleList (candidates documents)).flatMap Render.indexLine) ∧
    (moduleList (candidates documents)).Pairwise (· < ·) := by
  obtain ⟨-, -, hfailed⟩ := (runDocuments_index_iff h).mp hindex
  obtain ⟨hmodules, hnodup⟩ := runDocuments_modules harrange h hfailed
  obtain ⟨-, text, loc, htext, hloc, hfile⟩ := (runDocuments_delivers harrange h).index hindex
  rw [hmodules, Render.index_of_embedded hembedded] at htext
  obtain rfl := Except.ok.inj htext
  exact ⟨System.read_ok_iff.mpr ⟨loc, hloc, hfile⟩, ascending_moduleList hnodup⟩

end

theorem generateIn_reported {paths : List Text}
    (h : (g.generateIn arrange files signal paths setbacks).report = some report) :
    ∃ next, (g.generateIn arrange files signal paths setbacks).files =
        (g.runDocuments arrange files next paths.length (paths.filterMap (unloaded? files))
          (paths.filterMap (loaded? files)) setbacks).files ∧
      (g.runDocuments arrange files next paths.length (paths.filterMap (unloaded? files))
        (paths.filterMap (loaded? files)) setbacks).report = some report := by
  unfold generateIn at h ⊢
  cases hsignal : (loadAll files signal paths).signal with
  | none =>
    simp only [hsignal] at h
    cases h
  | some next =>
    obtain ⟨hdocuments, hfailures⟩ := loadAll_lists paths hsignal
    simp only [hsignal, hdocuments, hfailures] at h ⊢
    exact ⟨next, rfl, h⟩

/-- An index is written exactly if one is asked for, something was written and nothing failed. With the built-in
templates its text is the header and one line for each module of the loaded services, in strict order. -/
theorem generateIn_index_exact (harrange : ∀ jobs, (arrange jobs).Perm jobs) {paths : List Text}
    (h : (g.generateIn arrange files signal paths setbacks).report = some report) :
    (report.index ≠ [] ↔ g.options.index = true ∧ report.failed = [] ∧ report.written ≠ []) ∧
    ∀ version, Render.Renderer.embedded version = .ok g.renderer → report.index ≠ [] →
      ∃ modules : List Text,
        (g.generateIn arrange files signal paths setbacks).files.read report.index =
          .ok (Render.indexHeader version ++ modules.flatMap Render.indexLine) ∧
        modules.Pairwise (· < ·) ∧
        ∀ m, m ∈ modules ↔
          ∃ d ∈ paths.filterMap (loaded? files), ∃ name ∈ d.services.keys, m = Binding.moduleName name := by
  obtain ⟨next, hfiles, hrun⟩ := generateIn_reported h
  refine ⟨?_, fun version hembedded hindex => ?_⟩
  · rw [runDocuments_index_iff hrun, IndexDue, and_comm (a := report.failed = [])]
  · obtain ⟨hread, hascending⟩ := runDocuments_listing harrange hrun hembedded hindex
    rw [hfiles]
    exact ⟨_, hread, hascending, fun m => mem_moduleList.trans exists_candidate_iff⟩

def basinFiles : System where
  tree := ⟨[(["b.json"], .file (declaring "TugBoat")), (["a.json"], .file (declaring "Anchor"))]⟩
  cwd := []

def basinPaths : List Text := ["b.json", "a.json"]

def basinDocuments : List Document := basinPaths.filterMap (loaded? basinFiles)

def basinReady : System := { basinFiles with tree := basinFiles.tree.put ["gen"] .directory }

def basinBatch : Batch := depot.performAll basinReady .never (depot.plan basinDocuments).jobs.reverse

theorem exists_report_basin : ∃ report, (depot.generateIn List.reverse basinFiles .never basinPaths).report = some report ∧
    report.index = "gen/mod.rs" := by
  obtain ⟨hjobs, hsome, hnone, hwritten⟩ : (depot.plan basinDocuments).jobs.isEmpty = false ∧
      (writtenJobs basinBatch.results (depot.plan basinDocuments).jobs).length = 2 ∧
      (basinPaths.filterMap (unloaded? basinFiles) ++ (depot.plan basinDocuments).refused ++
        failedJobs basinBatch.results (depot.plan basinDocuments).jobs).isEmpty = true ∧
      (writeWhole basinBatch.files depot.indexPath []).fault.isNone = true := by decide +kernel
  have hready : (if (depot.plan basinDocuments).jobs.isEmpty then .ok basinFiles else basinFiles.mkdirAll "gen") =
      .ok basinReady := by
    rw [hjobs]
    rfl
  have hdue : depot.IndexDue (reportOn (depot.plan basinDocuments)
      (basinPaths.filterMap (unloaded? basinFiles) ++ (depot.plan basinDocuments).refused) basinBatch.results) := by
    refine ⟨rfl, fun hnil => ?_, ?_⟩
    · have hlength := congrArg List.length hnil
      rw [reportOn, List.length_mergeSort, hsome] at hlength
      cases hlength
    · simp only [reportOn, List.isEmpty_iff.mp hnone, List.mergeSort_nil]
  have hwritable : Writable basinBatch.files depot.indexPath :=
    (fault_eq_none_iff []).mp (Option.isNone_iff_eq_none.mp hwritten)
  obtain ⟨-, hlast⟩ := writeIndex_of_due hdue (Render.index_of_embedded (Render.embedded_eq "v1") _) hwritable
  rw [generateIn_of_loaded (loadAll_never _ _)]
  obtain ⟨-, hreport, -⟩ := @runDocuments_of_end depot List.reverse basinFiles basinReady .never basinPaths.length
    (basinPaths.filterMap (unloaded? basinFiles)) basinDocuments _ hready (performAll_never _ _)
  exact ⟨_, hreport.trans (congrArg (Option.map _) hlast), rfl⟩

theorem generateIn_index_exact_basin :
    ∃ report, (depot.generateIn List.reverse basinFiles .never basinPaths).report = some report ∧
      report.index = "gen/mod.rs" ∧ Render.Renderer.embedded "v1" = .ok depot.renderer ∧
      basinDocuments.flatMap (·.services.keys) = [("TugBoat" : Text), ("Anchor" : Text)] ∧
      (depot.generateIn List.reverse basinFiles .never basinPaths).files.read report.index =
        .ok (Render.indexHeader "v1" ++ (Render.indexLine "anchor" ++ Render.indexLine "tug_boat")) := by
  have hembedded : Render.Renderer.embedded "v1" = .ok depot.renderer := Render.embedded_eq "v1"
  have hkeys : basinDocuments.flatMap (·.services.keys) = [("TugBoat" : Text), ("Anchor" : Text)] := by decide +kernel
  obtain ⟨report, hreport, hindex⟩ := exists_report_basin
  obtain ⟨-, hlisting⟩ := generateIn_index_exact List.reverse_perm hreport
  obtain ⟨modules, hread, hascending, hmodules⟩ := hlisting "v1" hembedded (by rw [hindex]; decide)
  have hmem : ∀ m, m ∈ modules ↔ m ∈ [("anchor" : Text), ("tug_boat" : Text)] := by
    have hnames : ((basinDocuments.flatMap (·.services.keys)).map Binding.moduleName).reverse =
        [("anchor" : Text), ("tug_boat" : Text)] := by
      rw [hkeys]
      decide +kernel
    intro m
    rw [hmodules, ← hnames, List.mem_reverse, List.mem_map]
    constructor
    · rintro ⟨d, hd, name, hname, rfl⟩
      exact ⟨name, List.mem_flatMap.mpr ⟨d, hd, hname⟩, rfl⟩
    · rintro ⟨name, hname, rfl⟩
      obtain ⟨d, hd, hname⟩ := List.mem_flatMap.mp hname
      exact ⟨d, hd, name, hname, rfl⟩
  obtain rfl : modules = [("anchor" : Text), ("tug_boat" : Text)] := eq_of_ascending hascending (by decide) hmem
  exact ⟨report, hreport, hindex, hembedded, hkeys, hread⟩

def marinaFiles : System where
  tree := ⟨[(["a.json"], .file (declaring "TugBoat"))]⟩
  cwd := []

end Generator

end RpcBindings.Generate
