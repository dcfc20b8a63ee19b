import RpcBindings.Proofs.Counting

/-!
# What a run says of its mishaps

Files, services, the output directory and the module index can fail. A run lists the failures of files and services and
goes on; its fault is then made of all of them. The directory and the index end a run at once: it gives no report, and
its fault is theirs alone. The index comes last and only if nothing failed, so nothing is lost with it. With the directory
all is lost that failed before.
-/

namespace RpcBindings.Generate

open Files

inductive Mishap where
  | listed (failure : Failure)
  | directory (fault : Fault)
  | index (fault : Fault)

namespace Mishap

def fault : Mishap → Fault
  | listed failure => failure.located
  | directory fault => fault
  | index fault => fault

def IsFatal : Mishap → Prop
  | listed _ => False
  | directory _ => True
  | index _ => True

theorem not_isFatal_of_mem {failures : List Failure} {m : Mishap} (h : m ∈ failures.map listed) : ¬ m.IsFatal := by
  obtain ⟨failure, -, rfl⟩ := List.mem_map.mp h
  exact id

end Mishap

namespace Generator

variable {g : Generator}

def directoryFault (g : Generator) (f : SystemFault) : Fault :=
  .ofIo ("failed to create output directory " ++ Text.guarded g.options.outputDir) f.fault

def indexFault? (g : Generator) (files : System) (modules : List Text) (setbacks : Setbacks) : Option Fault :=
  match g.renderer.index modules with
  | .error f => some f
  | .ok content => (writeWhole files g.indexPath content (setbacks g.indexPath)).fault

def mishapsAfter (g : Generator) (failures : List Failure) (documents : List Document) (batch : Batch)
    (setbacks : Setbacks) : List Mishap :=
  let failed := failures ++ failedJobs batch.results (g.plan documents).jobs
  if failed.isEmpty && g.options.index && !(candidates documents).isEmpty then
    ((g.indexFault? batch.files (moduleList (candidates documents)) setbacks).map .index).toList
  else failed.map .listed

def mishapsAmong (g : Generator) (arrange : List Job → List Job) (files : System) (failures : List Failure)
    (documents : List Document) (setbacks : Setbacks) : List Mishap :=
  let plan := g.plan documents
  match (if plan.jobs.isEmpty then .ok files else files.mkdirAll g.options.outputDir) with
  | .error f => (failures ++ plan.refused).map .listed ++ [.directory (g.directoryFault f)]
  | .ok ready =>
    g.mishapsAfter (failures ++ plan.refused) documents (g.performAll ready .never (arrange plan.jobs) setbacks) setbacks

/-- All that goes wrong in a run over service files that nobody stops. -/
def mishaps (g : Generator) (arrange : List Job → List Job) (files : System) (paths : List Text) (setbacks : Setbacks) :
    List Mishap :=
  g.mishapsAmong arrange files (paths.filterMap (unloaded? files)) (paths.filterMap (loaded? files)) setbacks

/-- What a run tells of its mishaps. -/
structure Told (run : Run) (mishaps : List Mishap) : Prop where
  unreported_iff : run.report = none ↔ ∃ m ∈ mishaps, m.IsFatal
  listed : ∀ report, run.report = some report →
    run.fault = Fault.combine (report.failed.map Failure.located) ∧ (report.failed.map Mishap.listed).Perm mishaps
  fatal : ∀ m ∈ mishaps, m.IsFatal → run.fault = some m.fault
  index : ∀ f, .index f ∈ mishaps → mishaps = [.index f]

namespace Told

variable {run : Run}

theorem of_directory {failures : List Failure} {f : Fault} (hreport : run.report = none) (hfault : run.fault = some f) :
    Told run (failures.map .listed ++ [.directory f]) := by
  have hlast : ∀ m ∈ failures.map Mishap.listed ++ [.directory f], m.IsFatal → m = .directory f := by
    intro m hm hfatal
    rcases List.mem_append.mp hm with hm | hm
    · exact absurd hfatal (Mishap.not_isFatal_of_mem hm)
    · exact List.mem_singleton.mp hm
  refine ⟨iff_of_true hreport ⟨.directory f, by simp, trivial⟩, ?_, ?_, ?_⟩
  · intro report hsome
    cases hreport.symm.trans hsome
  · intro m hm hfatal
    rw [hlast m hm hfatal]
    exact hfault
  · intro f' hin
    cases hlast _ hin trivial

theorem of_index {f : Fault} (hreport : run.report = none) (hfault : run.fault = some f) : Told run [.index f] := by
  refine ⟨iff_of_true hreport ⟨.index f, by simp, trivial⟩, ?_, ?_, ?_⟩
  · intro report hsome
    cases hreport.symm.trans hsome
  · intro m hm _
    rw [List.mem_singleton.mp hm]
    exact hfault
  · intro f' hin
    rw [List.mem_singleton.mp hin]

theorem of_report {report : Report} {failed : List Failure} (hreport : run.report = some report)
    (hfault : run.fault = report.fault?) (hperm : report.failed.Perm failed) : Told run (failed.map .listed) := by
  refine ⟨iff_of_false (by simp [hreport]) ?_, ?_, ?_, ?_⟩
  · rintro ⟨m, hm, hfatal⟩
    exact Mishap.not_isFatal_of_mem hm hfatal
  · intro report' hsome
    obtain rfl := Option.some.inj (hreport.symm.trans hsome)
    exact ⟨hfault, hperm.map _⟩
  · intro m hm hfatal
    exact absurd hfatal (Mishap.not_isFatal_of_mem hm)
  · intro f hin
    exact absurd trivial (Mishap.not_isFatal_of_mem hin)

end Told

/-! ## The module index -/

section

variable {s : System} {report : Report} {setbacks : Setbacks}

theorem writeIndex_of_undue (h : ¬ g.IndexDue report) : (g.writeIndex s report setbacks).report = some report := by
  have hend := writeIndex_end (g := g) s report setbacks
  generalize g.writeIndex s report setbacks = run at hend ⊢
  cases hend with
  | skipped => rfl
  | unrendered hdue => exact absurd hdue h
  | unwritten hdue => exact absurd hdue h
  | written hdue => exact absurd hdue h

theorem writeIndex_of_indexFault (s : System) (setbacks : Setbacks) (h : g.IndexDue report) :
    (g.writeIndex s report setbacks).fault = g.indexFault? s report.modules setbacks ∧
      (g.writeIndex s report setbacks).report =
        if g.indexFault? s report.modules setbacks = none then some { report with index := g.indexPath } else none := by
  have hend := writeIndex_end (g := g) s report setbacks
  generalize g.writeIndex s report setbacks = run at hend ⊢
  cases hend with
  | skipped hnot => exact absurd h hnot
  | unrendered _ hf => simp [indexFault?, hf]
  | unwritten _ hcontent hattempt => simp [indexFault?, hcontent, hattempt]
  | written _ hcontent hattempt => simp [indexFault?, hcontent, hattempt]

section

variable (failures : List Failure) {documents : List Document} {results : List (Text × Option Fault)}
  (hresults : ∀ j ∈ (g.plan documents).jobs, ∃ fault, results.lookup j.module = some fault)

include hresults

theorem written_reportOn_perm (h : (reportOn (g.plan documents) (failures ++ (g.plan documents).refused) results).failed = []) :
    (reportOn (g.plan documents) (failures ++ (g.plan documents).refused) results).written.Perm
      (((candidates documents).map g.job).map fun j => ⟨j.service.name, j.module, j.path⟩) := by
  obtain ⟨hfailures, hjobs⟩ := failed_eq_nil_iff.mp h
  obtain ⟨hplan, -⟩ := plan_of_refused (List.append_eq_nil_iff.mp hfailures).2
  have hall : (reportOn (g.plan documents) (failures ++ (g.plan documents).refused) results).written.Perm
      ((g.plan documents).jobs.map fun j => ⟨j.service.name, j.module, j.path⟩) :=
    written_perm ((failedJobs_eq_nil_iff hresults).mp hjobs)
  simpa only [hplan] using hall

theorem indexDue_reportOn_iff :
    g.IndexDue (reportOn (g.plan documents) (failures ++ (g.plan documents).refused) results) ↔
      failures ++ (g.plan documents).refused ++ failedJobs results (g.plan documents).jobs = [] ∧
        g.Indexed (candidates documents) := by
  rw [List.append_eq_nil_iff, ← failed_eq_nil_iff]
  by_cases hnil : (reportOn (g.plan documents) (failures ++ (g.plan documents).refused) results).failed = []
  · rw [indexDue_iff hnil (written_reportOn_perm failures hresults hnil), and_iff_right hnil]
  · exact iff_of_false (fun h => hnil h.2.2) (fun h => hnil h.1)

end

end

/-! ## Runs -/

section

variable {failures : List Failure} {documents : List Document} {batch : Batch} {setbacks : Setbacks}

theorem mishapsAfter_of_due
    (h : failures ++ failedJobs batch.results (g.plan documents).jobs = [] ∧ g.Indexed (candidates documents)) :
    g.mishapsAfter failures documents batch setbacks =
      ((g.indexFault? batch.files (moduleList (candidates documents)) setbacks).map .index).toList :=
  if_pos (by simpa [Indexed, and_assoc] using h)

theorem mishapsAfter_of_undue
    (h : ¬ (failures ++ failedJobs batch.results (g.plan documents).jobs = [] ∧ g.Indexed (candidates documents))) :
    g.mishapsAfter failures documents batch setbacks =
      (failures ++ failedJobs batch.results (g.plan documents).jobs).map .listed :=
  if_neg (by simpa [Indexed, and_assoc] using h)

end

theorem performAll_unstopped {setbacks : Setbacks} (jobs : List Job) : ∀ {s : System} {signal : Signal},
    (g.performAll s signal jobs setbacks).stopped = false →
      g.performAll s signal jobs setbacks = g.performAll s .never jobs setbacks := by
  induction jobs with
  | nil =>
    intro s signal _
    rfl
  | cons j rest ih =>
    intro s signal h
    rw [performAll] at h ⊢
    cases hnext : signal.ask with
    | none => simp [hnext] at h
    | some next =>
      simp only [hnext] at h ⊢
      rw [ih h]
      rfl

section

variable {arrange : List Job → List Job} {files ready : System} {signal : Signal} {setbacks : Setbacks} {count : Nat}
  {failures : List Failure} {documents : List Document}

theorem runDocuments_of_barred {f : SystemFault}
    (hready : (if (g.plan documents).jobs.isEmpty then .ok files else files.mkdirAll g.options.outputDir) = .error f) :
    (g.runDocuments arrange files signal count failures documents setbacks).report = none ∧
      (g.runDocuments arrange files signal count failures documents setbacks).fault = some (g.directoryFault f) := by
  simp only [runDocuments, carryOut, hready]
  exact ⟨trivial, rfl⟩

theorem runDocuments_of_stopped
    (hready : (if (g.plan documents).jobs.isEmpty then .ok files else files.mkdirAll g.options.outputDir) = .ok ready)
    (hend : (g.performAll ready signal (arrange (g.plan documents).jobs) setbacks).stopped = true) :
    (g.runDocuments arrange files signal count failures documents setbacks).fault = some .cancelled := by
  simp only [runDocuments, carryOut, hready, hend, if_true]

theorem runDocuments_of_unstopped
    (hready : (if (g.plan documents).jobs.isEmpty then .ok files else files.mkdirAll g.options.outputDir) = .ok ready)
    (hend : (g.performAll ready signal (arrange (g.plan documents).jobs) setbacks).stopped = false) :
    let batch := g.performAll ready signal (arrange (g.plan documents).jobs) setbacks
    let ending := g.writeIndex batch.files
      (reportOn (g.plan documents) (failures ++ (g.plan documents).refused) batch.results) setbacks
    (g.runDocuments arrange files signal count failures documents setbacks).report =
        ending.report.map (fun r => { r with documents := count }) ∧
      (g.runDocuments arrange files signal count failures documents setbacks).fault =
        ending.report.elim ending.fault Report.fault? := by
  intro batch ending
  simp only [runDocuments, carryOut, hready, hend, Bool.false_eq_true, if_false]
  cases ending.report with
  | none => exact ⟨rfl, rfl⟩
  | some last => exact ⟨rfl, rfl⟩

theorem told_mishapsAfter {batch : Batch} {run : Run}
    (hresults : ∀ j ∈ (g.plan documents).jobs, ∃ fault, batch.results.lookup j.module = some fault) :
    let ending := g.writeIndex batch.files
      (reportOn (g.plan documents) (failures ++ (g.plan documents).refused) batch.results) setbacks
    run.report = ending.report.map (fun r => { r with documents := count }) →
      run.fault = ending.report.elim ending.fault Report.fault? →
        Told run (g.mishapsAfter (failures ++ (g.plan documents).refused) documents batch setbacks) := by
  intro ending hreport hfault
  have hiff := indexDue_reportOn_iff failures hresults
  by_cases hdue : g.IndexDue (reportOn (g.plan documents) (failures ++ (g.plan documents).refused) batch.results)
  · have hmodules := modules_of_perm (written_reportOn_perm failures hresults hdue.2.2)
    obtain ⟨hindexFault, hindex⟩ := writeIndex_of_indexFault batch.files setbacks hdue
    rw [mishapsAfter_of_due (hiff.mp hdue)]
    rw [hmodules] at hindexFault hindex
    cases hmishap : g.indexFault? batch.files (moduleList (candidates documents)) setbacks with
    | some f =>
      rw [hmishap] at hindexFault hindex
      simp only [ending, hindex, hindexFault] at hreport hfault
      exact .of_index hreport hfault
    | none =>
      rw [hmishap, if_pos rfl] at hindex
      simp only [ending, hindex] at hreport hfault
      exact @Told.of_report _ _ [] hreport hfault (.of_eq hdue.2.2)
  · rw [mishapsAfter_of_undue fun h => hdue (hiff.mpr h)]
    simp only [ending, writeIndex_of_undue hdue] at hreport hfault
    exact .of_report hreport hfault (List.mergeSort_perm _ _)

theorem runDocuments_told (harrange : ∀ jobs, (arrange jobs).Perm jobs)
    (h : (g.runDocuments arrange files signal count failures documents setbacks).fault ≠ some .cancelled) :
    Told (g.runDocuments arrange files signal count failures documents setbacks)
      (g.mishapsAmong arrange files failures documents setbacks) := by
  cases hready : (if (g.plan documents).jobs.isEmpty then .ok files else files.mkdirAll g.options.outputDir) with
  | error f =>
    obtain ⟨hreport, hfault⟩ := runDocuments_of_barred hready
    simp only [mishapsAmong, hready]
    exact .of_directory hreport hfault
  | ok ready =>
    cases hend : (g.performAll ready signal (arrange (g.plan documents).jobs) setbacks).stopped with
    | true => exact absurd (runDocuments_of_stopped hready hend) h
    | false =>
      simp only [mishapsAmong, hready]
      rw [← performAll_unstopped _ hend]
      obtain ⟨hreport, hfault⟩ := runDocuments_of_unstopped hready hend
      exact told_mishapsAfter (fun j hj => lookup_performAll ((harrange _).mem_iff.mpr hj) hend) hreport hfault

theorem generateIn_of_not_cancelled {paths : List Text}
    (h : (g.generateIn arrange files signal paths setbacks).fault ≠ some .cancelled) :
    ∃ next, (g.generateIn arrange files signal paths setbacks).report =
        (g.runDocuments arrange files next paths.length (paths.filterMap (unloaded? files))
          (paths.filterMap (loaded? files)) setbacks).report ∧
      (g.generateIn arrange files signal paths setbacks).fault =
        (g.runDocuments arrange files next paths.length (paths.filterMap (unloaded? files))
          (paths.filterMap (loaded? files)) setbacks).fault := by
  unfold generateIn at h ⊢
  cases hsignal : (loadAll files signal paths).signal with
  | none =>
    simp only [hsignal] at h
    exact absurd rfl h
  | some next =>
    obtain ⟨hdocuments, hfailures⟩ := loadAll_lists paths hsignal
    simp only [hsignal, hdocuments, hfailures]
    exact ⟨next, rfl, rfl⟩

theorem entries_of_no_failure (told : List (Candidate × Option Fault)) (h : told.filterMap failedEntry = []) :
    told.filterMap g.writtenEntry =
      (told.map (·.1)).map fun c => ⟨c.name, Binding.moduleName c.name, g.outputPath c.name⟩ := by
  rw [List.map_map, ← List.filterMap_eq_map]
  apply List.filterMap_congr
  rintro ⟨c, fault⟩ hin
  have hnone := List.filterMap_eq_nil_iff.mp h _ hin
  cases fault with
  | none => rfl
  | some f => cases hnone

theorem runDocuments_failed_nil_iff (harrange : ∀ jobs, (arrange jobs).Perm jobs) {report : Report}
    (hnames : ∀ d ∈ documents, ∀ e ∈ d.services.entries, e.2.name = e.1)
    (h : (g.runDocuments arrange files signal count failures documents setbacks).report = some report) :
    report.failed = [] ↔ failures = [] ∧ report.written.Perm
      ((candidates documents).map fun c => ⟨c.name, Binding.moduleName c.name, g.outputPath c.name⟩) := by
  obtain ⟨told, htold, haccounts⟩ := runDocuments_accounts harrange hnames h
  have hfailed : report.failed = [] ↔ failures = [] ∧ told.filterMap failedEntry = [] := by
    rw [← List.append_eq_nil_iff]
    exact ⟨fun hnil => (hnil ▸ haccounts.failed).symm.eq_nil, fun hnil => (hnil ▸ haccounts.failed).eq_nil⟩
  rw [hfailed, ← htold]
  refine and_congr_right fun _ => ⟨fun hnil => ?_, fun hperm => ?_⟩
  · rw [← entries_of_no_failure told hnil]
    exact haccounts.written
  · have hlength := haccounts.written.length_eq.symm.trans hperm.length_eq
    have hentries := length_entries (g := g) told
    rw [List.length_map, List.length_map] at hlength
    apply List.length_eq_zero_iff.mp
    omega

/-- A run that nobody stops has no fault exactly if all files, all services and the index went well. It gives a report
unless the directory or the index fails. With a report the fault is made of all that went wrong. Without one it is that of
the directory or of the index, and where it is that of the index, nothing else went wrong. -/
theorem generateIn_told (harrange : ∀ jobs, (arrange jobs).Perm jobs) {paths : List Text}
    (h : (g.generateIn arrange files signal paths setbacks).fault ≠ some .cancelled) :
    ((g.generateIn arrange files signal paths setbacks).fault = none ↔
      (∀ p ∈ paths, ∃ d, Document.load files p = .ok d) ∧
      ∃ report, (g.generateIn arrange files signal paths setbacks).report = some report ∧
        report.written.Perm ((candidates (paths.filterMap (loaded? files))).map fun c =>
          ⟨c.name, Binding.moduleName c.name, g.outputPath c.name⟩) ∧
        (g.Indexed (candidates (paths.filterMap (loaded? files))) → report.index = g.indexPath)) ∧
    Told (g.generateIn arrange files signal paths setbacks) (g.mishaps arrange files paths setbacks) := by
  obtain ⟨next, hreport, hfault⟩ := generateIn_of_not_cancelled h
  have htold : Told (g.generateIn arrange files signal paths setbacks) (g.mishaps arrange files paths setbacks) := by
    rw [hfault] at h
    have hrun := runDocuments_told harrange h
    refine ⟨?_, ?_, ?_, hrun.index⟩
    · rw [hreport]
      exact hrun.unreported_iff
    · rw [hreport, hfault]
      exact hrun.listed
    · rw [hfault]
      exact hrun.fatal
  refine ⟨?_, htold⟩
  have hnames : ∀ d ∈ paths.filterMap (loaded? files), ∀ e ∈ d.services.entries, e.2.name = e.1 :=
    fun d hd => (mem_filterMap_loaded? hd).2
  rw [← unloaded_eq_nil_iff]
  constructor
  · intro hnone
    obtain ⟨report, hsome⟩ : ∃ report, (g.generateIn arrange files signal paths setbacks).report = some report := by
      apply Option.ne_none_iff_exists'.mp
      intro hunreported
      obtain ⟨m, hm, hfatal⟩ := htold.unreported_iff.mp hunreported
      cases hnone.symm.trans (htold.fatal m hm hfatal)
    have hfailed : report.failed = [] := by
      apply fault?_eq_none.mp
      rw [Report.fault?, ← (htold.listed report hsome).1, hnone]
    have hrun := hreport.symm.trans hsome
    obtain ⟨hunloaded, hwritten⟩ := (runDocuments_failed_nil_iff harrange hnames hrun).mp hfailed
    refine ⟨hunloaded, report, hsome, hwritten, fun hindexed => ?_⟩
    have hdue : g.IndexDue report := by
      refine ⟨hindexed.1, fun hnil => hindexed.2 ?_, hfailed⟩
      rw [hnil] at hwritten
      exact List.map_eq_nil_iff.mp hwritten.symm.eq_nil
    exact ((runDocuments_delivers harrange hrun).index ((runDocuments_index_iff hrun).mpr hdue)).1
  · rintro ⟨hunloaded, report, hsome, hwritten, -⟩
    have hrun := hreport.symm.trans hsome
    have hfailed := (runDocuments_failed_nil_iff harrange hnames hrun).mpr ⟨hunloaded, hwritten⟩
    rw [(htold.listed report hsome).1, hfailed]
    rfl

end

theorem generateIn_told_marina :
    ∃ report f, (depot.generateIn id marinaFiles .never ["b.json", "a.json"]).report = some report ∧
      report.failed = [f] ∧ f.source = "b.json" ∧
      (depot.generateIn id marinaFiles .never ["b.json", "a.json"]).fault = some f.located ∧
      depot.mishaps id marinaFiles ["b.json", "a.json"] (fun _ => none) = [.listed f] := by
  have hfailed : (depot.generateIn id marinaFiles .never ["b.json", "a.json"]).report.map
      (fun r => r.failed.map (·.source)) = some [Text.ofString "b.json"] := by decide +kernel
  obtain ⟨report, hreport, hsources⟩ := Option.map_eq_some_iff.mp hfailed
  obtain ⟨f, hf, hsource⟩ := List.map_eq_singleton_iff.mp hsources
  obtain ⟨-, htold⟩ := generateIn_told (fun jobs => .refl jobs) (generateIn_never id marinaFiles ["b.json", "a.json"])
  obtain ⟨hfault, hmishaps⟩ := htold.listed report hreport
  rw [hf] at hfault hmishaps
  exact ⟨report, f, hreport, hf, hsource, hfault, hmishaps.symm.eq_singleton⟩

def moatFiles : System where
  tree := ⟨[(["a.json"], .file (declaring "TugBoat")), (["gen"], .file "?")]⟩
  cwd := []

/-- A run whose directory cannot be had gives no report, and a file that it could not load is lost. -/
theorem generateIn_untold_moat :
    let run := (plain "gen" false).generateIn id moatFiles .never ["b.json", "a.json"]
    run.report = none ∧
      run.fault = some (.ofIo "failed to create output directory gen" (.system "mkdir" ["gen"] "not a directory")) ∧
      ([Text.ofString "b.json", "a.json"].filterMap (unloaded? moatFiles)).map (·.source) = ["b.json"] := by
  decide +kernel

end Generator

end RpcBindings.Generate
