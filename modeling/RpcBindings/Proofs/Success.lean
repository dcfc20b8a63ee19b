import RpcBindings.Proofs.Order

/-!
# Runs that go well

A run goes well if and only if all of its files can be loaded, its services share no module, and everything can be rendered
and written. The file of each module then holds what is due to it, and the report lists just these files.
-/

namespace RpcBindings.Generate

open Files

/-! ## What is due -/

def moduleList (cs : List Candidate) : List Text :=
  (cs.map fun c => Binding.moduleName c.name).mergeSort fun a b => decide (a ≤ b)

namespace Generator

def Indexed (g : Generator) (cs : List Candidate) : Prop := g.options.index = true ∧ cs ≠ []

def Planned (g : Generator) (cs : List Candidate) (m : Text) : Prop :=
  (∃ c ∈ cs, m = Binding.moduleName c.name) ∨ g.Indexed cs ∧ m = indexModule

/-- What the file of a module is to hold after a run over services. The index is written last. -/
inductive Due (g : Generator) (cs : List Candidate) : Text → Text → Prop where
  | index {text : Text} (hon : g.Indexed cs) (h : g.renderer.index (moduleList cs) = .ok text) : Due g cs indexModule text
  | service {c : Candidate} {text : Text} (hc : c ∈ cs)
      (hkept : ¬ (g.Indexed cs ∧ Binding.moduleName c.name = indexModule))
      (h : g.renderService c.service c.source = .ok text) : Due g cs (Binding.moduleName c.name) text

/-- Every text that a run over services needs can be had. -/
structure Renderable (g : Generator) (cs : List Candidate) : Prop where
  distinct : (cs.map fun c => Binding.moduleName c.name).Nodup
  services : ∀ c ∈ cs, ∃ text, g.renderService c.service c.source = .ok text
  index : g.Indexed cs → ∃ text, g.renderer.index (moduleList cs) = .ok text

def Ready (g : Generator) (files : System) (cs : List Candidate) : Prop :=
  cs ≠ [] → ∃ ready, files.mkdirAll g.options.outputDir = .ok ready ∧
    ∀ m, g.Planned cs m → Writable ready (g.modulePath m)

structure Accomplished (g : Generator) (cs : List Candidate) (run : Run) : Prop where
  renderable : g.Renderable cs
  holds : ∀ m text, g.Due cs m text → run.files.read (g.modulePath m) = .ok text
  report : ∃ report, run.report = some report ∧ ∀ p, p ∈ report.paths ↔ ∃ m, g.Planned cs m ∧ p = g.modulePath m
  home : cs ≠ [] → ∃ home, Home g home run.files

section

variable {g : Generator} {cs : List Candidate} {m text : Text}

theorem Planned.isModule (h : g.Planned cs m) : IsModule m := by
  rcases h with ⟨c, -, rfl⟩ | ⟨-, rfl⟩
  · exact isModule_moduleName c.name
  · exact isModule_indexModule

theorem not_planned_nil (m : Text) : ¬ g.Planned [] m := by
  rintro (⟨c, hc, -⟩ | ⟨⟨-, hne⟩, -⟩)
  · cases hc
  · exact hne rfl

theorem Due.planned (h : g.Due cs m text) : g.Planned cs m := by
  cases h with
  | index hon _ => exact .inr ⟨hon, rfl⟩
  | service hc _ _ => exact .inl ⟨_, hc, rfl⟩

theorem Renderable.exists_due (h : g.Renderable cs) (hm : g.Planned cs m) : ∃ text, g.Due cs m text := by
  by_cases hindex : g.Indexed cs ∧ m = indexModule
  · obtain ⟨text, htext⟩ := h.index hindex.1
    exact ⟨text, hindex.2 ▸ .index hindex.1 htext⟩
  · obtain ⟨c, hc, rfl⟩ := hm.resolve_right hindex
    obtain ⟨text, htext⟩ := h.services c hc
    exact ⟨text, .service hc hindex htext⟩

theorem Due.unique {t t' : Text} (h : g.Renderable cs) (ht : g.Due cs m t) (ht' : g.Due cs m t') : t' = t := by
  generalize hm : m = m' at ht'
  cases ht with
  | index hon htext =>
    cases ht' with
    | index _ htext' => exact Except.ok.inj (htext'.symm.trans htext)
    | service _ hkept' _ => exact absurd ⟨hon, hm.symm⟩ hkept'
  | @service c _ hc hkept htext =>
    cases ht' with
    | index hon' _ => exact absurd ⟨hon', hm⟩ hkept
    | @service c' _ hc' _ htext' =>
      obtain rfl : c = c' := List.inj_on_of_nodup_map h.distinct hc hc' hm
      exact Except.ok.inj (htext'.symm.trans htext)

end

/-! ## Plans and reports without failures -/

section

variable {g : Generator}

theorem planFrom_of_refused (cs : List Candidate) : ∀ {owners : List (Text × Text)}, (g.planFrom owners cs).refused = [] →
    g.planFrom owners cs = ⟨cs.map g.job, []⟩ := by
  induction cs with
  | nil =>
    intro owners _
    rfl
  | cons c rest ih =>
    intro owners h
    rw [planFrom] at h ⊢
    cases howner : owners.lookup (Binding.moduleName c.name) with
    | some owner =>
      simp only [howner] at h
      cases h
    | none =>
      simp only [howner] at h ⊢
      rw [ih h]
      rfl

theorem plan_of_refused {documents : List Document} (h : (g.plan documents).refused = []) :
    g.plan documents = ⟨(candidates documents).map g.job, []⟩ ∧
      ((candidates documents).map fun c => Binding.moduleName c.name).Nodup := by
  have hplan : g.plan documents = ⟨(candidates documents).map g.job, []⟩ := planFrom_of_refused _ h
  have hnodup : ((g.plan documents).jobs.map (·.module)).Nodup := nodup_planFrom _ _
  rw [hplan, List.map_map] at hnodup
  exact ⟨hplan, hnodup⟩

theorem plan_of_nothing {documents : List Document} (h : candidates documents = []) : g.plan documents = ⟨[], []⟩ := by
  rw [plan, h]
  rfl

theorem fault?_eq_none {report : Report} : report.fault? = none ↔ report.failed = [] := by
  rw [Report.fault?]
  cases report.failed with
  | nil => exact iff_of_true rfl rfl
  | cons f rest => exact iff_of_false nofun nofun

variable {jobs : List Job} {results : List (Text × Option Fault)} {failures refused : List Failure}

theorem failed_eq_nil_iff {plan : Plan} :
    (reportOn plan failures results).failed = [] ↔ failures = [] ∧ failedJobs results plan.jobs = [] := by
  rw [reportOn, ← List.length_eq_zero_iff, List.length_mergeSort, List.length_eq_zero_iff, List.append_eq_nil_iff]

theorem failedJobs_eq_nil_iff (hresults : ∀ j ∈ jobs, ∃ fault, results.lookup j.module = some fault) :
    failedJobs results jobs = [] ↔ ∀ j ∈ jobs, results.lookup j.module = some none := by
  rw [failedJobs, List.filterMap_eq_nil_iff]
  refine forall_congr' fun j => forall_congr' fun hj => ?_
  obtain ⟨fault, hfault⟩ := hresults j hj
  cases fault <;> simp [hfault]

theorem written_perm (h : ∀ j ∈ jobs, results.lookup j.module = some none) :
    (reportOn ⟨jobs, refused⟩ failures results).written.Perm (jobs.map fun j => ⟨j.service.name, j.module, j.path⟩) := by
  have hall : writtenJobs results jobs = jobs.map fun j => ⟨j.service.name, j.module, j.path⟩ := by
    rw [writtenJobs, ← List.filterMap_eq_map]
    exact List.filterMap_congr fun j hj => by simp [h j hj]
  rw [reportOn, hall]
  exact List.mergeSort_perm _ _

theorem written_of_nothing {plan : Plan} (h : plan = ⟨[], []⟩) (failures : List Failure)
    (results : List (Text × Option Fault)) :
    (reportOn plan failures results).written.Perm
      ((([] : List Candidate).map g.job).map fun j => ⟨j.service.name, j.module, j.path⟩) := by
  rw [h]
  exact List.mergeSort_perm _ _

theorem modules_of_perm {report : Report} {cs : List Candidate}
    (h : report.written.Perm ((cs.map g.job).map fun j => ⟨j.service.name, j.module, j.path⟩)) :
    report.modules = moduleList cs := by
  refine mergeSort_eq_of_perm (Text.ordered_trans id) (Text.ordered_total id) ?_ ?_
  · intro a _ b _ hab hba
    exact List.le_antisymm (of_decide_eq_true hab) (of_decide_eq_true hba)
  · have hmodules := h.map Written.module
    rwa [List.map_map, List.map_map] at hmodules

end

/-! ## The index after modules that went well -/

section

variable {g : Generator} {s : System} {report last : Report}

theorem writeIndex_of_due (h : g.IndexDue report) {content : Text} (hcontent : g.renderer.index report.modules = .ok content)
    (hwritable : Writable s g.indexPath) :
    (g.writeIndex s report).files = (writeWhole s g.indexPath content).files ∧
      (g.writeIndex s report).report = some { report with index := g.indexPath } := by
  have hnone := (fault_eq_none_iff content).mpr hwritable
  have hend := writeIndex_end (g := g) s report fun _ => none
  generalize g.writeIndex s report = run at hend ⊢
  cases hend with
  | skipped hnot => exact absurd h hnot
  | unrendered _ hf =>
    rw [hcontent] at hf
    cases hf
  | unwritten _ hcontent' hattempt =>
    obtain rfl := Except.ok.inj (hcontent.symm.trans hcontent')
    rw [hattempt] at hnone
    cases hnone
  | written _ hcontent' hattempt =>
    obtain rfl := Except.ok.inj (hcontent.symm.trans hcontent')
    exact ⟨(congrArg Attempt.files hattempt).symm, rfl⟩

theorem writable_of_writeIndex (h : g.IndexDue report) (hlast : (g.writeIndex s report).report = some last) :
    (∃ content, g.renderer.index report.modules = .ok content) ∧ Writable s g.indexPath := by
  have hend := writeIndex_end (g := g) s report fun _ => none
  generalize g.writeIndex s report = run at hend hlast
  cases hend with
  | skipped hnot => exact absurd h hnot
  | unrendered => cases hlast
  | unwritten => cases hlast
  | @written content _ _ hcontent hattempt =>
    exact ⟨⟨content, hcontent⟩, (fault_eq_none_iff content).mp (congrArg Attempt.fault hattempt)⟩

section

variable {cs : List Candidate} (hfailed : report.failed = [])
  (hwritten : report.written.Perm ((cs.map g.job).map fun j => ⟨j.service.name, j.module, j.path⟩))

theorem mem_written_paths (hwritten : report.written.Perm ((cs.map g.job).map fun j => ⟨j.service.name, j.module, j.path⟩))
    {p : Text} : p ∈ report.written.map (·.path) ↔ ∃ c ∈ cs, p = g.outputPath c.name := by
  rw [(hwritten.map _).mem_iff]
  simp only [List.map_map, List.mem_map, Function.comp_apply]
  exact exists_congr fun c => and_congr_right fun _ => eq_comm

include hfailed hwritten

theorem indexDue_iff : g.IndexDue report ↔ g.Indexed cs := by
  have hempty : report.written = [] ↔ cs = [] := by
    rw [← List.length_eq_zero_iff, hwritten.length_eq, List.length_map, List.length_map, List.length_eq_zero_iff]
  exact and_congr_right fun _ => ⟨fun h hnil => h.1 (hempty.mpr hnil), fun h => ⟨fun hnil => h (hempty.mp hnil), hfailed⟩⟩

theorem mem_paths_writeIndex (h : (g.writeIndex s report).report = some last) (hindex : report.index = []) {p : Text} :
    p ∈ last.paths ↔ ∃ m, g.Planned cs m ∧ p = g.modulePath m := by
  have hplanned : (∃ m, g.Planned cs m ∧ p = g.modulePath m) ↔
      (∃ c ∈ cs, p = g.outputPath c.name) ∨ g.Indexed cs ∧ p = g.indexPath := by
    constructor
    · rintro ⟨m, ⟨c, hc, rfl⟩ | ⟨hon, rfl⟩, rfl⟩
      · exact .inl ⟨c, hc, rfl⟩
      · exact .inr ⟨hon, rfl⟩
    · rintro (⟨c, hc, rfl⟩ | ⟨hon, rfl⟩)
      · exact ⟨_, .inl ⟨c, hc, rfl⟩, rfl⟩
      · exact ⟨_, .inr ⟨hon, rfl⟩, rfl⟩
  rw [hplanned, ← mem_written_paths hwritten]
  by_cases hon : g.Indexed cs
  · have hdue := (indexDue_iff hfailed hwritten).mpr hon
    obtain ⟨⟨text, htext⟩, hwritable⟩ := writable_of_writeIndex hdue h
    rw [(writeIndex_of_due hdue htext hwritable).2] at h
    obtain rfl := Option.some.inj h
    obtain ⟨⟨loc, hloc, -⟩, -⟩ := hwritable
    have hpath : g.indexPath ≠ [] := by
      intro hnil
      rw [hnil] at hloc
      cases hloc
    simp [Report.paths, hpath, hon]
  · rw [writeIndex_of_not_due fun hdue => hon ((indexDue_iff hfailed hwritten).mp hdue)] at h
    obtain rfl := Option.some.inj h
    simp [Report.paths, hindex, hon]

theorem exists_report_writeIndex :
    (∃ last, (g.writeIndex s report).report = some last) ↔
      (g.Indexed cs → (∃ text, g.renderer.index (moduleList cs) = .ok text) ∧ Writable s g.indexPath) := by
  rw [← modules_of_perm hwritten, ← indexDue_iff hfailed hwritten]
  constructor
  · rintro ⟨last, hlast⟩ hdue
    exact writable_of_writeIndex hdue hlast
  · intro h
    by_cases hdue : g.IndexDue report
    · obtain ⟨⟨text, htext⟩, hwritable⟩ := h hdue
      exact ⟨_, (writeIndex_of_due hdue htext hwritable).2⟩
    · exact ⟨_, writeIndex_of_not_due hdue⟩

end

end

/-! ## Setbacks -/

section

variable {g : Generator} {setbacks : Setbacks} {s : System}

theorem perform_unhindered {j : Job} (h : (g.perform s j setbacks).fault = none) :
    g.perform s j setbacks = g.perform s j := by
  unfold perform at h ⊢
  cases hrender : g.renderService j.service j.source with
  | error f => rfl
  | ok content =>
    simp only [hrender] at h ⊢
    split at h
    next => cases h
    next hattempt =>
      rw [no_setback_of_success (congrArg Attempt.fault hattempt)] at hattempt
      rw [hattempt]

theorem performAll_unhindered {jobs : List Job} (hnodup : (jobs.map (·.module)).Nodup) :
    ∀ {s : System} {signal : Signal},
      (∀ j ∈ jobs, (g.performAll s signal jobs setbacks).results.lookup j.module = some none) →
        g.performAll s signal jobs setbacks = g.performAll s signal jobs := by
  induction jobs with
  | nil => exact fun _ => rfl
  | cons first rest ih =>
    intro s signal h
    rw [List.map_cons, List.nodup_cons] at hnodup
    unfold performAll at h ⊢
    cases hask : signal.ask with
    | none => rfl
    | some signal' =>
      simp only [hask] at h ⊢
      have hfirst := h first List.mem_cons_self
      rw [lookup_cons_ite, if_pos rfl] at hfirst
      have hrest : ∀ j ∈ rest,
          (g.performAll (g.perform s first setbacks).files signal' rest setbacks).results.lookup j.module = some none := by
        intro j hj
        have hne : j.module ≠ first.module := fun heq => hnodup.1 (heq ▸ List.mem_map_of_mem hj)
        have hlater := h j (List.mem_cons_of_mem first hj)
        rwa [lookup_cons_ite, if_neg hne] at hlater
      rw [ih hnodup.2 hrest, perform_unhindered (Option.some.inj hfirst)]

theorem writeIndex_unhindered {report last : Report} (h : (g.writeIndex s report setbacks).report = some last) :
    g.writeIndex s report setbacks = g.writeIndex s report := by
  unfold writeIndex at h ⊢
  split
  next => rfl
  next hwanted =>
    rw [if_neg hwanted] at h
    split
    next => rfl
    next hok =>
      rw [if_neg hok] at h
      cases hcontent : g.renderer.index report.modules with
      | error f => rfl
      | ok content =>
        simp only [hcontent] at h ⊢
        split at h
        next => cases h
        next hattempt =>
          rw [no_setback_of_success (congrArg Attempt.fault hattempt)] at hattempt
          rw [hattempt]

end

/-! ## Runs -/

section

variable {g : Generator} {arrange : List Job → List Job} {files ready : System} {signal : Signal} {count : Nat}
  {failures : List Failure} {documents : List Document}

theorem runDocuments_of_end {setbacks : Setbacks}
    (hready : (if (g.plan documents).jobs.isEmpty then .ok files else files.mkdirAll g.options.outputDir) = .ok ready)
    (hend : (g.performAll ready signal (arrange (g.plan documents).jobs) setbacks).stopped = false) :
    let batch := g.performAll ready signal (arrange (g.plan documents).jobs) setbacks
    let report := reportOn (g.plan documents) (failures ++ (g.plan documents).refused) batch.results
    (g.runDocuments arrange files signal count failures documents setbacks).files = (g.writeIndex batch.files report setbacks).files ∧
      (g.runDocuments arrange files signal count failures documents setbacks).report =
        (g.writeIndex batch.files report setbacks).report.map (fun r => { r with documents := count }) ∧
      ((g.runDocuments arrange files signal count failures documents setbacks).fault = none ↔
        report.failed = [] ∧ ∃ last, (g.writeIndex batch.files report setbacks).report = some last) := by
  intro batch report
  have hcarry : (g.carryOut arrange files signal failures (g.plan documents) setbacks).files = (g.writeIndex batch.files report setbacks).files ∧
      (g.carryOut arrange files signal failures (g.plan documents) setbacks).report = (g.writeIndex batch.files report setbacks).report ∧
      (g.carryOut arrange files signal failures (g.plan documents) setbacks).fault = (g.writeIndex batch.files report setbacks).fault := by
    simp only [carryOut, hready, hend]
    cases (g.writeIndex batch.files report setbacks).report with
    | none => simp only [batch, report, Bool.false_eq_true, if_false, and_self]
    | some last => simp only [batch, report, Bool.false_eq_true, if_false, and_self]
  obtain ⟨hfiles, hreport, hfault⟩ := hcarry
  unfold runDocuments
  simp only
  cases hlast : (g.writeIndex batch.files report setbacks).report with
  | none =>
    rw [hreport, hlast]
    rw [hfault, writeIndex_fault, hlast]
    refine ⟨hfiles, hreport.trans hlast, ?_⟩
    simp
  | some last =>
    rw [hreport, hlast]
    refine ⟨hfiles, rfl, ?_⟩
    have hlists := (writeIndex_lists hlast).2
    rw [fault?_eq_none]
    exact ⟨fun hnil => ⟨hlists.symm.trans hnil, last, rfl⟩, fun hnil => hlists.trans hnil.1⟩

theorem exists_end {setbacks : Setbacks}
    (h : (g.runDocuments arrange files signal count failures documents setbacks).fault = none) :
    ∃ ready, (if (g.plan documents).jobs.isEmpty then .ok files else files.mkdirAll g.options.outputDir) = .ok ready ∧
      (g.performAll ready signal (arrange (g.plan documents).jobs) setbacks).stopped = false := by
  cases hready : (if (g.plan documents).jobs.isEmpty then .ok files else files.mkdirAll g.options.outputDir) with
  | error f =>
    simp only [runDocuments, carryOut, hready] at h
    cases h
  | ok ready =>
    refine ⟨ready, rfl, ?_⟩
    cases hend : (g.performAll ready signal (arrange (g.plan documents).jobs) setbacks).stopped with
    | false => rfl
    | true =>
      simp only [runDocuments, carryOut, hready, hend] at h
      cases h

/-- A run that goes well met no setback on its way. -/
theorem runDocuments_unhindered (harrange : ∀ jobs, (arrange jobs).Perm jobs) {setbacks : Setbacks}
    (h : (g.runDocuments arrange files signal count failures documents setbacks).fault = none) :
    g.runDocuments arrange files signal count failures documents setbacks =
      g.runDocuments arrange files signal count failures documents := by
  obtain ⟨ready, hready, hend⟩ := exists_end h
  obtain ⟨hfailed, last, hlast⟩ := ((runDocuments_of_end hready hend).2.2).mp h
  have hperm := harrange (g.plan documents).jobs
  have hdone := (failedJobs_eq_nil_iff fun j hj => lookup_performAll (hperm.mem_iff.mpr hj) hend).mp
    (failed_eq_nil_iff.mp hfailed).2
  have hbatch : g.performAll ready signal (arrange (g.plan documents).jobs) setbacks =
      g.performAll ready signal (arrange (g.plan documents).jobs) := by
    refine performAll_unhindered ?_ fun j hj => hdone j (hperm.mem_iff.mp hj)
    exact (hperm.map _).nodup_iff.mpr (nodup_planFrom _ _)
  simp only [hbatch] at hlast
  simp only [runDocuments, carryOut, hready, hbatch, writeIndex_unhindered hlast]

theorem generateIn_unhindered (harrange : ∀ jobs, (arrange jobs).Perm jobs) {setbacks : Setbacks} {paths : List Text}
    (h : (g.generateIn arrange files signal paths setbacks).fault = none) :
    g.generateIn arrange files signal paths setbacks = g.generateIn arrange files signal paths := by
  unfold generateIn at h ⊢
  simp only at h ⊢
  split at h
  next => rfl
  next => rw [runDocuments_unhindered harrange h]

section

variable (hext : IsExtension g.options.extension) (harrange : ∀ jobs, (arrange jobs).Perm jobs) {home : Location}
  (hhome : Home g home ready) {cs : List Candidate} (hnodup : (cs.map fun c => Binding.moduleName c.name).Nodup)
  (hend : (g.performAll ready signal (arrange (cs.map g.job))).stopped = false)

include hext harrange hhome hnodup hend

theorem performAll_settles : Settled g home (cs.map g.job) ready (g.performAll ready signal (arrange (cs.map g.job))) := by
  have hperm := harrange (cs.map g.job)
  have hmem : ∀ j, j ∈ arrange (cs.map g.job) ↔ j ∈ cs.map g.job := fun j => hperm.mem_iff
  have hsettled : Settled g home (arrange (cs.map g.job)) ready (g.performAll ready signal (arrange (cs.map g.job))) := by
    refine performAll_settled hext hhome (fun j hj => ?_) ?_ hend
    · obtain ⟨c, -, rfl⟩ := List.mem_map.mp ((hmem j).mp hj)
      exact ⟨c, rfl⟩
    · rw [(hperm.map _).nodup_iff, List.map_map]
      exact hnodup
  exact ⟨fun j hj => hsettled.result j ((hmem j).mpr hj), hsettled.cwd, hsettled.numbers,
    fun j hj => hsettled.own j ((hmem j).mpr hj), fun l hl => hsettled.elsewhere l fun j hj => hl j ((hmem j).mp hj)⟩

theorem failedJobs_performAll :
    failedJobs (g.performAll ready signal (arrange (cs.map g.job))).results (cs.map g.job) = [] ↔
      ∀ c ∈ cs, (∃ text, g.renderService c.service c.source = .ok text) ∧ Writable ready (g.outputPath c.name) := by
  have hsettled := performAll_settles hext harrange hhome hnodup hend
  rw [failedJobs_eq_nil_iff fun j hj => ⟨_, hsettled.result j hj⟩, List.forall_mem_map]
  refine forall_congr' fun c => forall_congr' fun hc => ?_
  rw [hsettled.result _ (List.mem_map_of_mem hc), Option.some.injEq]
  cases hrender : g.renderService c.service c.source with
  | error f =>
    rw [(perform_of_error (j := g.job c) hrender).2]
    exact iff_of_false nofun fun h => nomatch h.1
  | ok text =>
    rw [(perform_of_ok (j := g.job c) hrender).2, fault_eq_none_iff]
    exact (and_iff_right ⟨text, rfl⟩).symm

theorem written_of_no_failure (failures : List Failure)
    (h : failedJobs (g.performAll ready signal (arrange (cs.map g.job))).results (cs.map g.job) = []) :
    (reportOn ⟨cs.map g.job, []⟩ failures (g.performAll ready signal (arrange (cs.map g.job))).results).written.Perm
      ((cs.map g.job).map fun j => ⟨j.service.name, j.module, j.path⟩) := by
  have hsettled := performAll_settles hext harrange hhome hnodup hend
  exact written_perm ((failedJobs_eq_nil_iff fun j hj => ⟨_, hsettled.result j hj⟩).mp h)

theorem read_performAll {c : Candidate} (hc : c ∈ cs) {text : Text} (hrender : g.renderService c.service c.source = .ok text)
    (hwritable : Writable ready (g.outputPath c.name)) :
    (g.performAll ready signal (arrange (cs.map g.job))).files.read (g.outputPath c.name) = .ok text := by
  have hsettled := performAll_settles hext harrange hhome hnodup hend
  have hsame := (performAll_rewrites (g := g) (fun _ => none) (arrange (cs.map g.job)) ready signal).same
  have hnone := (fault_eq_none_iff text).mpr hwritable
  obtain ⟨loc, hloc, hdir, hreplaced⟩ := replaced_of_no_fault hnone
  obtain ⟨-, rfl⟩ := (hhome.locate_modulePath hext (isModule_moduleName c.name) hloc).resolve_right hdir
  refine System.read_ok_iff.mpr ⟨_, hsame.locate.mpr hloc, ?_⟩
  have hown := hsettled.own _ (List.mem_map_of_mem hc)
  rw [(perform_of_ok (j := g.job c) hrender).1] at hown
  exact hown.trans ((hreplaced.entry _).trans (if_pos rfl))

end

theorem inside_performAll (hext : IsExtension g.options.extension) (harrange : ∀ jobs, (arrange jobs).Perm jobs)
    {home : Location} (hhome : Home g home ready) (cs : List Candidate) (signal : Signal) :
    Inside g home ready (g.performAll ready signal (arrange (cs.map g.job))).files := by
  refine inside_of_rewritten hext hhome ((performAll_rewrites (fun _ => none) _ _ _).mono ?_)
  rintro l text ⟨j, hj, -, hloc⟩
  obtain ⟨c, -, rfl⟩ := List.mem_map.mp ((harrange _).mem_iff.mp hj)
  exact ⟨_, isModule_moduleName c.name, hloc⟩

section

variable (hext : IsExtension g.options.extension) (harrange : ∀ jobs, (arrange jobs).Perm jobs) {home : Location}
  (hhome : Home g home ready) (hplan : g.plan documents = ⟨(candidates documents).map g.job, []⟩)
  (hnodup : ((candidates documents).map fun c => Binding.moduleName c.name).Nodup) (hne : candidates documents ≠ [])
  (hready : files.mkdirAll g.options.outputDir = .ok ready)
  (hend : (g.performAll ready signal (arrange ((candidates documents).map g.job))).stopped = false)

include hext harrange hhome hplan hnodup hne hready hend

theorem fault_runDocuments :
    (g.runDocuments arrange files signal count failures documents).fault = none ↔
      failures = [] ∧ g.Renderable (candidates documents) ∧
        ∀ m, g.Planned (candidates documents) m → Writable ready (g.modulePath m) := by
  have hready' : (if (g.plan documents).jobs.isEmpty then .ok files else files.mkdirAll g.options.outputDir) = .ok ready := by
    rw [hplan, if_neg (by simpa using hne), hready]
  have hend' : (g.performAll ready signal (arrange (g.plan documents).jobs)).stopped = false := by rw [hplan]; exact hend
  obtain ⟨-, -, hfault⟩ := @runDocuments_of_end g arrange files ready signal count failures documents _ hready' hend'
  simp only [hplan, List.append_nil] at hfault
  have hjobs := failedJobs_performAll hext harrange hhome hnodup hend
  have hindexPath : Writable (g.performAll ready signal (arrange ((candidates documents).map g.job))).files g.indexPath ↔
      Writable ready g.indexPath :=
    (inside_performAll hext harrange hhome (candidates documents) signal).writable hhome hext isModule_indexModule
  rw [hfault, failed_eq_nil_iff, and_assoc]
  refine and_congr_right fun hnil => ?_
  constructor
  · rintro ⟨hfailed, hlast⟩
    have hservices := hjobs.mp hfailed
    have hwritten := written_of_no_failure hext harrange hhome hnodup hend failures hfailed
    have hindex := (exists_report_writeIndex (failed_eq_nil_iff.mpr ⟨hnil, hfailed⟩) hwritten).mp hlast
    refine ⟨⟨hnodup, fun c hc => (hservices c hc).1, fun hon => (hindex hon).1⟩, ?_⟩
    rintro m (⟨c, hc, rfl⟩ | ⟨hon, rfl⟩)
    · exact (hservices c hc).2
    · exact hindexPath.mp (hindex hon).2
  · rintro ⟨hrenderable, hwritable⟩
    have hfailed := hjobs.mpr fun c hc => ⟨hrenderable.services c hc, hwritable _ (.inl ⟨c, hc, rfl⟩)⟩
    have hwritten := written_of_no_failure hext harrange hhome hnodup hend failures hfailed
    refine ⟨hfailed, (exists_report_writeIndex (failed_eq_nil_iff.mpr ⟨hnil, hfailed⟩) hwritten).mpr fun hon => ?_⟩
    exact ⟨hrenderable.index hon, hindexPath.mpr (hwritable _ (.inr ⟨hon, rfl⟩))⟩

theorem accomplished_runDocuments (h : (g.runDocuments arrange files signal count failures documents).fault = none) :
    g.Accomplished (candidates documents) (g.runDocuments arrange files signal count failures documents) := by
  obtain ⟨hnil, hrenderable, hwritable⟩ := (fault_runDocuments hext harrange hhome hplan hnodup hne hready hend).mp h
  have hready' : (if (g.plan documents).jobs.isEmpty then .ok files else files.mkdirAll g.options.outputDir) = .ok ready := by
    rw [hplan, if_neg (by simpa using hne), hready]
  have hend' : (g.performAll ready signal (arrange (g.plan documents).jobs)).stopped = false := by rw [hplan]; exact hend
  obtain ⟨hfiles, hreport, hfault⟩ := @runDocuments_of_end g arrange files ready signal count failures documents _ hready' hend'
  obtain ⟨hfailed, last, hlast⟩ := hfault.mp h
  simp only [hplan, List.append_nil] at hfiles hreport hfailed hlast
  have hwritten := written_of_no_failure hext harrange hhome hnodup hend failures (failed_eq_nil_iff.mp hfailed).2
  have hhome' := hhome.sameDirectories (inside_performAll hext harrange hhome (candidates documents) signal).same
  refine ⟨hrenderable, fun m text hdue => ?_, ⟨_, hreport.trans (congrArg _ hlast), fun p => ?_⟩, fun _ => ⟨home, ?_⟩⟩
  · rw [hfiles]
    cases hdue with
    | index hon htext =>
      have hdue := (indexDue_iff hfailed hwritten).mpr hon
      rw [← modules_of_perm hwritten] at htext
      obtain ⟨-, hplace⟩ := writable_of_writeIndex hdue hlast
      rw [(writeIndex_of_due hdue htext hplace).1]
      obtain ⟨loc, hloc, hdir, hreplaced⟩ := replaced_of_no_fault ((fault_eq_none_iff text).mpr hplace)
      exact hreplaced.read hdir hloc
    | @service c _ hc hkept htext =>
      -- the index comes last and does not touch the file of another module
      have hindex : g.options.index = false ∨ Binding.moduleName c.name ≠ indexModule := by
        by_cases hon : g.options.index = true
        · exact .inr fun heq => hkept ⟨⟨hon, hne⟩, heq⟩
        · exact .inl (by simpa using hon)
      refine ((writeIndex_aside hhome' hext hindex).read hhome' hext (isModule_moduleName _) text).mpr ?_
      exact read_performAll hext harrange hhome hnodup hend hc htext (hwritable _ (.inl ⟨_, hc, rfl⟩))
  · exact mem_paths_writeIndex hfailed hwritten hlast rfl
  · rw [hfiles]
    exact hhome'.sameDirectories (writeIndex_rewrites (fun _ => none) _ _).same

end

theorem accomplished_of_nothing (hnone : candidates documents = [])
    (h : (g.runDocuments arrange files signal count failures documents).fault = none) :
    g.Accomplished (candidates documents) (g.runDocuments arrange files signal count failures documents) := by
  have hplan := plan_of_nothing (g := g) hnone
  obtain ⟨ready, hready, hend⟩ := exists_end h
  obtain ⟨-, hreport, hfault⟩ := @runDocuments_of_end g arrange files ready signal count failures documents _ hready hend
  obtain ⟨hfailed, last, hlast⟩ := hfault.mp h
  rw [hnone]
  refine ⟨⟨.nil, nofun, fun hon => absurd rfl hon.2⟩, fun m text hdue => absurd hdue.planned (not_planned_nil m), ?_, absurd rfl⟩
  exact ⟨_, hreport.trans (congrArg _ hlast), fun p => mem_paths_writeIndex hfailed (written_of_nothing hplan _ _) hlast rfl⟩

theorem failures_of_no_fault (h : (g.runDocuments arrange files signal count failures documents).fault = none) :
    failures = [] ∧ (g.plan documents).refused = [] := by
  obtain ⟨ready, hready, hend⟩ := exists_end h
  obtain ⟨-, -, hfault⟩ := @runDocuments_of_end g arrange files ready signal count failures documents _ hready hend
  exact List.append_eq_nil_iff.mp (failed_eq_nil_iff.mp (hfault.mp h).1).1

theorem exists_ready (hne : candidates documents ≠ [])
    (h : (g.runDocuments arrange files signal count failures documents).fault = none) :
    ∃ ready home, Home g home ready ∧ g.plan documents = ⟨(candidates documents).map g.job, []⟩ ∧
      ((candidates documents).map fun c => Binding.moduleName c.name).Nodup ∧
      files.mkdirAll g.options.outputDir = .ok ready ∧
      (g.performAll ready signal (arrange ((candidates documents).map g.job))).stopped = false := by
  obtain ⟨ready, hready, hend⟩ := exists_end h
  obtain ⟨hplan, hnodup⟩ := plan_of_refused (failures_of_no_fault h).2
  rw [hplan] at hready hend
  rw [if_neg (by simpa using hne)] at hready
  obtain ⟨home, hhome⟩ := home_of_isDirectory (System.made_of_mkdirAllFrom hready).isDirectory
  exact ⟨ready, home, hhome, hplan, hnodup, hready, hend⟩

theorem accomplished_of_no_fault (hext : IsExtension g.options.extension) (harrange : ∀ jobs, (arrange jobs).Perm jobs)
    (h : (g.runDocuments arrange files signal count failures documents).fault = none) :
    g.Accomplished (candidates documents) (g.runDocuments arrange files signal count failures documents) := by
  by_cases hne : candidates documents = []
  · exact accomplished_of_nothing hne h
  · obtain ⟨ready, home, hhome, hplan, hnodup, hready, hend⟩ := exists_ready hne h
    exact accomplished_runDocuments hext harrange hhome hplan hnodup hne hready hend h

theorem ready_of_no_fault (hext : IsExtension g.options.extension) (harrange : ∀ jobs, (arrange jobs).Perm jobs)
    (h : (g.runDocuments arrange files signal count failures documents).fault = none) :
    g.Ready files (candidates documents) := by
  intro hne
  obtain ⟨ready, home, hhome, hplan, hnodup, hready, hend⟩ := exists_ready hne h
  obtain ⟨-, -, hwritable⟩ := (fault_runDocuments hext harrange hhome hplan hnodup hne hready hend).mp h
  exact ⟨ready, hready, hwritable⟩

theorem no_fault_of_renderable (hext : IsExtension g.options.extension) (harrange : ∀ jobs, (arrange jobs).Perm jobs)
    (hrenderable : g.Renderable (candidates documents)) (hready : g.Ready files (candidates documents)) :
    (g.runDocuments arrange files .never count [] documents).fault = none := by
  by_cases hnone : candidates documents = []
  · have hplan := plan_of_nothing (g := g) hnone
    have hready : (if (g.plan documents).jobs.isEmpty then .ok files else files.mkdirAll g.options.outputDir) = .ok files := by
      rw [hplan]
      rfl
    obtain ⟨-, -, hfault⟩ := @runDocuments_of_end g arrange files files .never count [] documents _ hready (performAll_never _ _)
    have hfailed : ∀ results, (reportOn (g.plan documents) ([] ++ (g.plan documents).refused) results).failed = [] := by
      intro results
      rw [failed_eq_nil_iff, hplan]
      exact ⟨rfl, rfl⟩
    exact hfault.mpr ⟨hfailed _, (exists_report_writeIndex (hfailed _) (written_of_nothing hplan _ _)).mpr fun hon =>
      absurd rfl hon.2⟩
  · have hplan : g.plan documents = ⟨(candidates documents).map g.job, []⟩ :=
      planFrom_of_nodup _ (fun _ _ => rfl) hrenderable.distinct
    obtain ⟨ready, hready, hwritable⟩ := hready hnone
    obtain ⟨home, hhome⟩ := home_of_isDirectory (System.made_of_mkdirAllFrom hready).isDirectory
    exact (fault_runDocuments hext harrange hhome hplan hrenderable.distinct hnone hready (performAll_never _ _)).mpr
      ⟨rfl, hrenderable, hwritable⟩

end

/-! ## Runs over files -/

section

variable {g : Generator} {arrange : List Job → List Job} {files : System} {signal : Signal} {paths : List Text}

theorem unloaded_eq_nil_iff : paths.filterMap (unloaded? files) = [] ↔ ∀ p ∈ paths, ∃ d, Document.load files p = .ok d := by
  rw [List.filterMap_eq_nil_iff]
  refine forall_congr' fun p => forall_congr' fun _ => ?_
  unfold unloaded?
  cases Document.load files p <;> simp

theorem exists_loaded (h : (g.generateIn arrange files signal paths).fault = none) :
    ∃ next, (loadAll files signal paths).signal = some next := by
  cases hnext : (loadAll files signal paths).signal with
  | none =>
    simp only [generateIn, hnext] at h
    cases h
  | some next => exact ⟨next, rfl⟩

theorem generateIn_of_loaded {next : Signal} (h : (loadAll files signal paths).signal = some next) :
    g.generateIn arrange files signal paths =
      let run := g.runDocuments arrange files next paths.length (paths.filterMap (unloaded? files))
        (paths.filterMap (loaded? files))
      { run with log := (loadAll files signal paths).log ++ run.log } := by
  obtain ⟨hdocuments, hfailures⟩ := loadAll_lists paths h
  simp only [generateIn, h, hdocuments, hfailures]

theorem accomplished_generateIn (hext : IsExtension g.options.extension) (harrange : ∀ jobs, (arrange jobs).Perm jobs)
    (h : (g.generateIn arrange files signal paths).fault = none) :
    (∀ p ∈ paths, ∃ d, Document.load files p = .ok d) ∧ g.Ready files (candidates (paths.filterMap (loaded? files))) ∧
      g.Accomplished (candidates (paths.filterMap (loaded? files))) (g.generateIn arrange files signal paths) := by
  obtain ⟨next, hnext⟩ := exists_loaded h
  rw [generateIn_of_loaded hnext] at h ⊢
  have hdone := accomplished_of_no_fault hext harrange h
  refine ⟨unloaded_eq_nil_iff.mp (failures_of_no_fault h).1, ready_of_no_fault hext harrange h, ?_⟩
  exact ⟨hdone.renderable, hdone.holds, hdone.report, hdone.home⟩

/-- A run goes well if and only if nothing stands in its way. -/
theorem fault_generateIn (hext : IsExtension g.options.extension) (harrange : ∀ jobs, (arrange jobs).Perm jobs) :
    (g.generateIn arrange files .never paths).fault = none ↔
      (∀ p ∈ paths, ∃ d, Document.load files p = .ok d) ∧ g.Renderable (candidates (paths.filterMap (loaded? files))) ∧
        g.Ready files (candidates (paths.filterMap (loaded? files))) := by
  constructor
  · intro h
    obtain ⟨hloads, hready, hdone⟩ := accomplished_generateIn hext harrange h
    exact ⟨hloads, hdone.renderable, hready⟩
  · rintro ⟨hloads, hrenderable, hready⟩
    rw [generateIn_of_loaded (loadAll_never files paths), unloaded_eq_nil_iff.mpr hloads]
    exact no_fault_of_renderable hext harrange hrenderable hready

end

end Generator

end RpcBindings.Generate
