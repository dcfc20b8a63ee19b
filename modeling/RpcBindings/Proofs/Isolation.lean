import Mathlib.Data.List.Nodup
import RpcBindings.Generate.Run
import RpcBindings.Proofs.Modules

/-!
# Services of a run do not disturb each other

A plan gives every module to the first service that names it, so its jobs have different modules. Each job changes the
file of its module only. What becomes of a service in a run is therefore what would become of it alone: its file and
its line in the report depend on nothing but the service and the place of its file.
-/

namespace RpcBindings.Generate

open Files

namespace Generator

variable {g : Generator}

/-! ## Plans -/

def job (g : Generator) (c : Candidate) : Job :=
  ⟨c.source, c.service, Binding.moduleName c.name, g.outputPath c.name⟩

theorem planFrom_of_taken {owners : List (Text × Text)} {c : Candidate} {owner : Text}
    (h : owners.lookup (Binding.moduleName c.name) = some owner) (rest : List Candidate) :
    (g.planFrom owners (c :: rest)).jobs = (g.planFrom owners rest).jobs := by
  simp only [planFrom, h]

theorem planFrom_of_free {owners : List (Text × Text)} {c : Candidate}
    (h : owners.lookup (Binding.moduleName c.name) = none) (rest : List Candidate) :
    (g.planFrom owners (c :: rest)).jobs =
      g.job c :: (g.planFrom ((Binding.moduleName c.name, c.name) :: owners) rest).jobs := by
  simp only [planFrom, h]
  rfl

theorem free_of_mem_planFrom {cs : List Candidate} : ∀ {owners : List (Text × Text)} {j : Job},
    j ∈ (g.planFrom owners cs).jobs → owners.lookup j.module = none ∧ ∃ c ∈ cs, j = g.job c := by
  induction cs with
  | nil =>
    intro owners j h
    cases h
  | cons c rest ih =>
    intro owners j h
    cases howner : owners.lookup (Binding.moduleName c.name) with
    | some owner =>
      rw [planFrom_of_taken howner] at h
      obtain ⟨hfree, d, hd, hjob⟩ := ih h
      exact ⟨hfree, d, List.mem_cons_of_mem c hd, hjob⟩
    | none =>
      rw [planFrom_of_free howner] at h
      rcases List.mem_cons.mp h with rfl | h
      · exact ⟨howner, c, List.mem_cons_self, rfl⟩
      · obtain ⟨hfree, d, hd, hjob⟩ := ih h
        rw [lookup_cons_ite] at hfree
        split at hfree
        next => cases hfree
        next => exact ⟨hfree, d, List.mem_cons_of_mem c hd, hjob⟩

theorem job_of_mem_plan {documents : List Document} {j : Job} (h : j ∈ (g.plan documents).jobs) : ∃ c, j = g.job c := by
  obtain ⟨-, c, -, hjob⟩ := free_of_mem_planFrom h
  exact ⟨c, hjob⟩

theorem nodup_planFrom (cs : List Candidate) (owners : List (Text × Text)) :
    ((g.planFrom owners cs).jobs.map (·.module)).Nodup := by
  induction cs generalizing owners with
  | nil => exact .nil
  | cons c rest ih =>
    cases howner : owners.lookup (Binding.moduleName c.name) with
    | some owner =>
      rw [planFrom_of_taken howner]
      exact ih owners
    | none =>
      rw [planFrom_of_free howner, List.map_cons, List.nodup_cons]
      refine ⟨fun hin => ?_, ih _⟩
      obtain ⟨j, hj, heq⟩ := List.mem_map.mp hin
      have hfree := (free_of_mem_planFrom hj).1
      rw [show j.module = Binding.moduleName c.name from heq, lookup_cons_ite, if_pos rfl] at hfree
      cases hfree

theorem job_mem_planFrom {before after : List Candidate} {c : Candidate}
    (hfirst : ∀ d ∈ before, Binding.moduleName d.name ≠ Binding.moduleName c.name) :
    ∀ {owners : List (Text × Text)}, owners.lookup (Binding.moduleName c.name) = none →
      g.job c ∈ (g.planFrom owners (before ++ c :: after)).jobs := by
  induction before with
  | nil =>
    intro owners hfree
    rw [List.nil_append, planFrom_of_free hfree]
    exact List.mem_cons_self
  | cons d before ih =>
    intro owners hfree
    have hrest := @ih fun d' hd' => hfirst d' (List.mem_cons_of_mem d hd')
    rw [List.cons_append]
    cases howner : owners.lookup (Binding.moduleName d.name) with
    | some owner =>
      rw [planFrom_of_taken howner]
      exact hrest hfree
    | none =>
      rw [planFrom_of_free howner]
      refine List.mem_cons_of_mem _ (hrest ?_)
      rw [lookup_cons_ite, if_neg (Ne.symm (hfirst d List.mem_cons_self)), hfree]

/-! ## Jobs -/

section

variable {s : System} {home : Location} {m : Text} {signal : Signal} {j : Job} {jobs : List Job}

theorem perform_of_error {f : Fault} (h : g.renderService j.service j.source = .error f) :
    (g.perform s j).files = s ∧ (g.perform s j).fault = some f := by
  simp only [perform, h, and_self]

theorem perform_of_ok {text : Text} (h : g.renderService j.service j.source = .ok text) :
    (g.perform s j).files = (writeWhole s j.path text).files ∧ (g.perform s j).fault = (writeWhole s j.path text).fault := by
  simp only [perform, h]
  rcases writeWhole s j.path text with ⟨files, _ | f⟩ <;> exact ⟨rfl, rfl⟩

theorem perform_sameDirectories (s : System) (j : Job) : s.SameDirectories (g.perform s j).files := by
  cases h : g.renderService j.service j.source with
  | error f =>
    rw [(perform_of_error h).1]
    exact .refl s
  | ok text =>
    rw [(perform_of_ok h).1]
    exact writeWhole_sameDirectories s j.path text

theorem perform_aside (hhome : Home g home s) (hext : IsExtension g.options.extension) {c : Candidate}
    (hne : (g.job c).module ≠ m) : Aside g home m s (g.perform s (g.job c)).files := by
  cases h : g.renderService (g.job c).service (g.job c).source with
  | error f =>
    rw [(perform_of_error h).1]
    exact .refl s
  | ok text =>
    rw [(perform_of_ok h).1]
    exact .writeWhole hhome hext (isModule_moduleName c.name) hne text

theorem performAll_aside (hext : IsExtension g.options.extension)
    (hjobs : ∀ j ∈ jobs, (∃ c, j = g.job c) ∧ j.module ≠ m) :
    ∀ {s : System} {signal : Signal}, Home g home s → Aside g home m s (g.performAll s signal jobs).files := by
  induction jobs with
  | nil =>
    intro s signal _
    exact .refl s
  | cons j rest ih =>
    intro s signal hhome
    rw [performAll]
    split
    next => exact .refl s
    next signal' _ =>
      obtain ⟨⟨c, rfl⟩, hne⟩ := hjobs j List.mem_cons_self
      have hstep := perform_aside hhome hext hne
      exact hstep.trans (ih (fun j' hj' => hjobs j' (List.mem_cons_of_mem _ hj')) (hhome.sameDirectories hstep.same))

theorem performAll_at (hext : IsExtension g.options.extension) (hj : j ∈ jobs) (hjobs : ∀ j' ∈ jobs, ∃ c, j' = g.job c)
    (hnodup : (jobs.map (·.module)).Nodup) :
    ∀ {s : System} {signal : Signal}, Home g home s → (g.performAll s signal jobs).stopped = false →
      ∃ mid, Aside g home j.module s mid ∧
        (g.performAll s signal jobs).results.lookup j.module = some (g.perform mid j).fault ∧
        Aside g home j.module (g.perform mid j).files (g.performAll s signal jobs).files := by
  induction jobs with
  | nil => cases hj
  | cons first rest ih =>
    intro s signal hhome hend
    rw [performAll] at hend ⊢
    rw [List.map_cons, List.nodup_cons] at hnodup
    split at hend
    next => cases hend
    next signal' _ =>
      have hhome' : Home g home (g.perform s first).files := hhome.sameDirectories (perform_sameDirectories s first)
      have hrestJobs : ∀ j' ∈ rest, ∃ c, j' = g.job c := fun j' hj' => hjobs j' (List.mem_cons_of_mem _ hj')
      dsimp only
      -- the state at the turn of the job is the one to compare with: here, or further on in the rest
      rcases List.mem_cons.mp hj with rfl | hin
      · refine ⟨s, .refl s, by rw [lookup_cons_ite, if_pos rfl], performAll_aside hext ?_ hhome'⟩
        intro j' hj'
        refine ⟨hrestJobs j' hj', fun heq => hnodup.1 ?_⟩
        exact heq ▸ List.mem_map.mpr ⟨j', hj', rfl⟩
      · have hne : first.module ≠ j.module := fun heq => hnodup.1 (heq ▸ List.mem_map.mpr ⟨j, hin, rfl⟩)
        obtain ⟨c, rfl⟩ := hjobs first List.mem_cons_self
        obtain ⟨mid, hbefore, hlookup, hafter⟩ := ih hin hrestJobs hnodup.2 hhome' hend
        refine ⟨mid, (perform_aside hhome hext hne).trans hbefore, ?_, hafter⟩
        rw [lookup_cons_ite, if_neg (Ne.symm hne), hlookup]

theorem lookup_performAll {setbacks : Setbacks} (hj : j ∈ jobs) :
    ∀ {s : System} {signal : Signal}, (g.performAll s signal jobs setbacks).stopped = false →
      ∃ fault, (g.performAll s signal jobs setbacks).results.lookup j.module = some fault := by
  induction jobs with
  | nil => cases hj
  | cons first rest ih =>
    intro s signal hend
    rw [performAll] at hend ⊢
    split at hend
    next => cases hend
    next signal' hask =>
      dsimp only
      rw [lookup_cons_ite]
      split
      next => exact ⟨_, rfl⟩
      next hne =>
        rcases List.mem_cons.mp hj with rfl | hj
        · exact absurd rfl hne
        · exact ih hj hend

end

/-! ## Reports -/

section

variable {plan : Plan} {failures : List Failure} {results : List (Text × Option Fault)} {j : Job}

theorem mem_written_reportOn (hj : j ∈ plan.jobs) (h : results.lookup j.module = some none) :
    ⟨j.service.name, j.module, j.path⟩ ∈ (reportOn plan failures results).written := by
  rw [reportOn, List.mem_mergeSort, writtenJobs]
  exact List.mem_filterMap.mpr ⟨j, hj, by simp only [h]⟩

theorem mem_failed_reportOn {f : Fault} (hj : j ∈ plan.jobs) (h : results.lookup j.module = some (some f)) :
    ⟨j.source, j.service.name, f⟩ ∈ (reportOn plan failures results).failed := by
  rw [reportOn, List.mem_mergeSort, failedJobs]
  exact List.mem_append_right _ (List.mem_filterMap.mpr ⟨j, hj, by simp only [h]⟩)

end

/-! ## Module indexes -/

def IndexDue (g : Generator) (report : Report) : Prop :=
  g.options.index = true ∧ report.written ≠ [] ∧ report.failed = []

inductive IndexEnd (g : Generator) (s : System) (report : Report) (setbacks : Setbacks) : Run → Prop
  | skipped (h : ¬ g.IndexDue report) (log : List Log.Entry) : IndexEnd g s report setbacks ⟨s, log, some report, none⟩
  | unrendered {f : Fault} (h : g.IndexDue report) (hf : g.renderer.index report.modules = .error f) :
      IndexEnd g s report setbacks ⟨s, [], none, some f⟩
  | unwritten {content : Text} {files : System} {f : Fault} (h : g.IndexDue report)
      (hcontent : g.renderer.index report.modules = .ok content)
      (hattempt : writeWhole s g.indexPath content (setbacks g.indexPath) = ⟨files, some f⟩) :
      IndexEnd g s report setbacks ⟨files, [], none, some f⟩
  | written {content : Text} {files : System} (h : g.IndexDue report)
      (hcontent : g.renderer.index report.modules = .ok content)
      (hattempt : writeWhole s g.indexPath content (setbacks g.indexPath) = ⟨files, none⟩) :
      IndexEnd g s report setbacks ⟨files, [], some { report with index := g.indexPath }, none⟩

section

variable {s : System} {report : Report} {home : Location} {m : Text}

theorem writeIndex_end (s : System) (report : Report) (setbacks : Setbacks) :
    IndexEnd g s report setbacks (g.writeIndex s report setbacks) := by
  unfold writeIndex
  split
  next hunwanted => exact .skipped (fun hdue => by simp [hdue.1, hdue.2.1] at hunwanted) _
  next hwanted =>
    simp only [Bool.or_eq_true, List.isEmpty_iff, Bool.not_eq_true', ← Bool.not_eq_true, not_or, not_not] at hwanted
    split
    next hfailed => exact .skipped (fun hdue => by simp [Report.ok, hdue.2.2] at hfailed) _
    next hok =>
      have hdue : g.IndexDue report := ⟨hwanted.2, hwanted.1, by simpa [Report.ok] using hok⟩
      split
      next f hf => exact .unrendered hdue hf
      next content hcontent =>
        rcases hattempt : writeWhole s g.indexPath content (setbacks g.indexPath) with ⟨files, _ | f⟩
        · exact .written hdue hcontent hattempt
        · exact .unwritten hdue hcontent hattempt

theorem writeIndex_aside (hhome : Home g home s) (hext : IsExtension g.options.extension)
    (hindex : g.options.index = false ∨ m ≠ indexModule) : Aside g home m s (g.writeIndex s report).files := by
  have haside : g.IndexDue report → ∀ content, Aside g home m s (writeWhole s g.indexPath content).files := by
    intro hdue content
    have hne : indexModule ≠ m := by
      rcases hindex with hoff | hne
      · exact absurd (hoff.symm.trans hdue.1) nofun
      · exact Ne.symm hne
    exact Aside.writeWhole hhome hext isModule_indexModule hne content
  have hend := writeIndex_end (g := g) s report fun _ => none
  generalize g.writeIndex s report = run at hend ⊢
  cases hend with
  | skipped => exact .refl s
  | unrendered => exact .refl s
  | @unwritten content _ _ hdue _ hattempt => simpa only [hattempt] using haside hdue content
  | @written content _ hdue _ hattempt => simpa only [hattempt] using haside hdue content

theorem writeIndex_lists {last : Report} {setbacks : Setbacks} (h : (g.writeIndex s report setbacks).report = some last) :
    last.written = report.written ∧ last.failed = report.failed := by
  have hend := writeIndex_end (g := g) s report setbacks
  generalize g.writeIndex s report setbacks = run at hend h
  cases hend with
  | skipped => exact Option.some.inj h ▸ ⟨rfl, rfl⟩
  | unrendered => cases h
  | unwritten => cases h
  | written => exact Option.some.inj h ▸ ⟨rfl, rfl⟩

theorem writeIndex_fault {setbacks : Setbacks} :
    (g.writeIndex s report setbacks).fault = none ↔ ∃ last, (g.writeIndex s report setbacks).report = some last := by
  have hend := writeIndex_end (g := g) s report setbacks
  generalize g.writeIndex s report setbacks = run at hend ⊢
  cases hend with
  | skipped => exact iff_of_true rfl ⟨_, rfl⟩
  | unrendered => exact iff_of_false nofun nofun
  | unwritten => exact iff_of_false nofun nofun
  | written => exact iff_of_true rfl ⟨_, rfl⟩

theorem writeIndex_of_not_due (h : ¬ g.IndexDue report) : (g.writeIndex s report).report = some report := by
  have hend := writeIndex_end (g := g) s report fun _ => none
  generalize g.writeIndex s report = run at hend ⊢
  cases hend with
  | skipped => rfl
  | unrendered hdue => exact absurd hdue h
  | unwritten hdue => exact absurd hdue h
  | written hdue => exact absurd hdue h

end

/-! ## Runs -/

section

variable {arrange : List Job → List Job} {files ready : System} {signal : Signal} {count : Nat} {failures : List Failure}
  {documents : List Document}

theorem runDocuments_of_ready (hjobs : (g.plan documents).jobs ≠ []) (hready : files.mkdirAll g.options.outputDir = .ok ready)
    (hend : (g.runDocuments arrange files signal count failures documents).fault ≠ some .cancelled) :
    let batch := g.performAll ready signal (arrange (g.plan documents).jobs)
    let report := reportOn (g.plan documents) (failures ++ (g.plan documents).refused) batch.results
    batch.stopped = false ∧
      (g.runDocuments arrange files signal count failures documents).files = (g.writeIndex batch.files report).files ∧
      (g.runDocuments arrange files signal count failures documents).report =
        (g.writeIndex batch.files report).report.map fun r => { r with documents := count } := by
  intro batch report
  have hnonempty : (g.plan documents).jobs.isEmpty = false := by simpa using hjobs
  simp only [runDocuments, carryOut, hnonempty, hready] at hend ⊢
  cases hstopped : batch.stopped with
  | true => simp [batch, hstopped] at hend
  | false =>
    cases hreport : (g.writeIndex batch.files report).report with
    | none => simp [batch, report, hstopped, hreport]
    | some last => simp [batch, report, hstopped, hreport]

end

end Generator

def SameFile (path : Text) (s s' : System) : Prop := ∀ content, s'.read path = .ok content ↔ s.read path = .ok content

/-- What a run makes of one service among others: its file holds its text, or is what it was and the report says why.
Whether the file can be written is decided once the output directory is there. -/
structure Isolated (g : Generator) (files ready : System) (c : Candidate) (run : Run) : Prop where
  written : ∀ text, g.renderService c.service c.source = .ok text → Writable ready (g.outputPath c.name) →
    run.files.read (g.outputPath c.name) = .ok text ∧
      ∀ report, run.report = some report →
        ⟨c.service.name, Binding.moduleName c.name, g.outputPath c.name⟩ ∈ report.written
  unwritable : ∀ text, g.renderService c.service c.source = .ok text → ¬ Writable ready (g.outputPath c.name) →
    SameFile (g.outputPath c.name) files run.files ∧
      ∃ report f, run.report = some report ∧ ⟨c.source, c.service.name, f⟩ ∈ report.failed ∧ f.is .io = true
  unrendered : ∀ f, g.renderService c.service c.source = .error f →
    SameFile (g.outputPath c.name) files run.files ∧
      ∃ report, run.report = some report ∧ ⟨c.source, c.service.name, f⟩ ∈ report.failed

namespace Generator

variable {g : Generator} {arrange : List Job → List Job} {files ready : System} {signal : Signal} {count : Nat}
  {failures : List Failure} {documents : List Document}

/-- A run passes through the job of a service that owns its module. All else it does is done for other modules, and the
report on the service says what became of the job. -/
theorem runDocuments_passes (harrange : ∀ jobs, (arrange jobs).Perm jobs) {before after : List Candidate} {c : Candidate}
    (hcandidates : candidates documents = before ++ c :: after)
    (hfirst : ∀ d ∈ before, Binding.moduleName d.name ≠ Binding.moduleName c.name)
    (hready : files.mkdirAll g.options.outputDir = .ok ready) (hext : IsExtension g.options.extension) {home : Location}
    (hhome : Home g home ready) (hindex : g.options.index = false ∨ Binding.moduleName c.name ≠ indexModule)
    (hend : (g.runDocuments arrange files signal count failures documents).fault ≠ some .cancelled) :
    ∃ mid, Aside g home (Binding.moduleName c.name) ready mid ∧
      Aside g home (Binding.moduleName c.name) (g.perform mid (g.job c)).files
        (g.runDocuments arrange files signal count failures documents).files ∧
      ((g.perform mid (g.job c)).fault = none →
        ∀ report, (g.runDocuments arrange files signal count failures documents).report = some report →
          ⟨c.service.name, Binding.moduleName c.name, g.outputPath c.name⟩ ∈ report.written) ∧
      ∀ f, (g.perform mid (g.job c)).fault = some f →
        ∃ report, (g.runDocuments arrange files signal count failures documents).report = some report ∧
          ⟨c.source, c.service.name, f⟩ ∈ report.failed := by
  have hmem : g.job c ∈ (g.plan documents).jobs := by
    rw [plan, hcandidates]
    exact job_mem_planFrom hfirst rfl
  have hperm := harrange (g.plan documents).jobs
  have hjobs : ∀ j ∈ arrange (g.plan documents).jobs, ∃ c', j = g.job c' := fun j hj =>
    job_of_mem_plan (hperm.mem_iff.mp hj)
  have hnodup : ((arrange (g.plan documents).jobs).map (·.module)).Nodup :=
    (hperm.map _).nodup_iff.mpr (nodup_planFrom _ _)
  obtain ⟨hstopped, hfiles, hreport⟩ := runDocuments_of_ready (List.ne_nil_of_mem hmem) hready hend
  obtain ⟨mid, hbefore, hlookup, hafter⟩ := performAll_at hext (hperm.mem_iff.mpr hmem) hjobs hnodup hhome hstopped
  have hhomeDone : Home g home (g.perform mid (g.job c)).files :=
    (hhome.sameDirectories hbefore.same).sameDirectories (perform_sameDirectories mid (g.job c))
  rw [hfiles, hreport]
  refine ⟨mid, hbefore, hafter.trans (writeIndex_aside (hhomeDone.sameDirectories hafter.same) hext hindex), ?_, ?_⟩
  · intro hfault report heq
    obtain ⟨last, hlast, rfl⟩ := Option.map_eq_some_iff.mp heq
    rw [hfault] at hlookup
    change _ ∈ last.written
    rw [(writeIndex_lists hlast).1]
    exact mem_written_reportOn hmem hlookup
  · intro f hfault
    rw [hfault] at hlookup
    have hfailed := @mem_failed_reportOn _ (failures ++ (g.plan documents).refused) _ _ f hmem hlookup
    rw [writeIndex_of_not_due fun hdue => List.ne_nil_of_mem hfailed hdue.2.2]
    exact ⟨_, rfl, hfailed⟩

theorem runDocuments_isolated (harrange : ∀ jobs, (arrange jobs).Perm jobs) {before after : List Candidate} {c : Candidate}
    (hcandidates : candidates documents = before ++ c :: after)
    (hfirst : ∀ d ∈ before, Binding.moduleName d.name ≠ Binding.moduleName c.name)
    (hready : files.mkdirAll g.options.outputDir = .ok ready) {key : Text}
    (hextension : Settings.checkExtension key g.options.extension = .ok ())
    (hindex : g.options.index = false ∨ Binding.moduleName c.name ≠ indexModule)
    (hend : (g.runDocuments arrange files signal count failures documents).fault ≠ some .cancelled) :
    Isolated g files ready c (g.runDocuments arrange files signal count failures documents) := by
  have hext := isExtension_of_check hextension
  have hm := isModule_moduleName c.name
  obtain ⟨hgrown, hdir, hcwd⟩ := System.made_of_mkdirAllFrom hready
  obtain ⟨home, hhome⟩ := home_of_isDirectory hdir
  obtain ⟨mid, hbefore, hafter, hwritten, hfailed⟩ :=
    runDocuments_passes harrange hcandidates hfirst hready hext hhome hindex hend
  have hhomeMid := hhome.sameDirectories hbefore.same
  have hwritable := hbefore.writable hhome hext hm
  -- creating the output directory changes no file, and neither does a job that fails
  have hsame : Aside g home (Binding.moduleName c.name) mid (g.perform mid (g.job c)).files →
      SameFile (g.outputPath c.name) files (g.runDocuments arrange files signal count failures documents).files := by
    intro hjob content
    refine (((hbefore.trans hjob).trans hafter).read hhome hext hm content).trans ?_
    have habs : Path.isAbsolute (g.outputPath c.name) = Path.isAbsolute g.options.outputDir :=
      Path.isAbsolute_join hhome.nonempty _
    exact hgrown.read (fun hrel => hcwd (habs.symm.trans hrel)) (Path.straight_join hhome.nonempty _) content
  refine ⟨fun text hrender hready' => ?_, fun text hrender hready' => ?_, fun f hrender => ?_⟩
  · obtain ⟨⟨loc, hloc, hnot⟩, temporary, place, htemporary, hplace⟩ := hwritable.mpr hready'
    obtain ⟨hfiles, hfault⟩ := @perform_of_ok g mid (g.job c) text hrender
    obtain ⟨hnone, hreplaced⟩ := writeWhole_of_writable hloc hnot htemporary hplace text
    refine ⟨(hafter.read ?_ hext hm text).mpr ?_, hwritten (hfault.trans hnone)⟩
    · exact hhomeMid.sameDirectories (perform_sameDirectories mid (g.job c))
    · rw [hfiles]
      exact hreplaced.read hnot hloc
  · obtain ⟨hfiles, hfault⟩ := @perform_of_ok g mid (g.job c) text hrender
    obtain ⟨⟨f, hsome, hio⟩, hunchanged⟩ := writeWhole_of_not_writable (fun h => hready' (hwritable.mp h)) text
    obtain ⟨report, hreport, hin⟩ := hfailed f (hfault.trans hsome)
    refine ⟨hsame ?_, report, f, hreport, hin, hio⟩
    rw [hfiles]
    exact .of_unchanged hunchanged
  · obtain ⟨hfiles, hfault⟩ := @perform_of_error g mid (g.job c) f hrender
    refine ⟨hsame ?_, hfailed f hfault⟩
    rw [hfiles]
    exact .refl mid

def plain (outputDir : Text) (index : Bool) : Generator where
  options := ⟨outputDir, ".rs", index, 1, [], "v1"⟩
  renderer := ⟨.ofList [(Render.serviceName, [.text "// ", .action ⟨[], false, [[.field ["Name"]]]⟩])], "v1"⟩

def emptyService (name : Text) : Service := ⟨name, 1, [], .empty, .empty, .empty⟩

def brokenService : Service where
  name := "Bad"
  id := 2
  documentation := []
  procedures := .ofList [("P", ⟨"P", 1, [], [⟨"m", .container .list []⟩], none, false⟩)]
  classes := .empty
  enumerations := .empty

def yardDocuments : List Document :=
  [⟨"bad.json", .ofList [("Bad", brokenService)]⟩, ⟨"port.json", .ofList [("Port", emptyService "Port")]⟩]

def emptyFiles : System := ⟨.empty, []⟩

theorem runDocuments_isolated_yard :
    ∃ ready, emptyFiles.mkdirAll (plain "gen" true).options.outputDir = .ok ready ∧
      Isolated (plain "gen" true) emptyFiles ready ⟨"port.json", "Port", emptyService "Port"⟩
        ((plain "gen" true).runDocuments List.reverse emptyFiles .never 2 [] yardDocuments) ∧
      Isolated (plain "gen" true) emptyFiles ready ⟨"bad.json", "Bad", brokenService⟩
        ((plain "gen" true).runDocuments List.reverse emptyFiles .never 2 [] yardDocuments) ∧
      (((plain "gen" true).runDocuments List.reverse emptyFiles .never 2 [] yardDocuments).files.read
        "gen/port.rs").toOption = some ("// Port" : Text) := by
  have hend : ((plain "gen" true).runDocuments List.reverse emptyFiles .never 2 [] yardDocuments).fault ≠
      some .cancelled := by decide +kernel
  have hport : candidates yardDocuments = [⟨"bad.json", "Bad", brokenService⟩] ++
      ⟨"port.json", "Port", emptyService "Port"⟩ :: [] := rfl
  have hbad : candidates yardDocuments = [] ++
      ⟨"bad.json", "Bad", brokenService⟩ :: [⟨"port.json", "Port", emptyService "Port"⟩] := rfl
  have hextension : Settings.checkExtension "output.extension" (plain "gen" true).options.extension = .ok () := rfl
  refine ⟨_, rfl, ?_, ?_, by decide +kernel⟩
  · exact runDocuments_isolated List.reverse_perm hport (by decide) rfl hextension (.inr (by decide)) hend
  · exact runDocuments_isolated List.reverse_perm hbad (by decide) rfl hextension (.inr (by decide)) hend

/-- A run over one document leaves out a service, although it is rendered, the output directory can be created, and no
directory stands at the path of its file. -/
structure LeavesOut (g : Generator) (files : System) (d : Document) (name : Text) (s : Service) : Prop where
  listed : d.services.entries = [(name, s)]
  directory : (files.mkdirAll g.options.outputDir).toOption.isSome = true
  path : files.isDirectory (g.outputPath name) = false
  extension : Settings.checkExtension "output.extension" g.options.extension = .ok ()
  index : g.options.index = false
  rendered : (g.renderService s d.path).toOption.isSome = true
  uncancelled : (g.generateDocuments files .never [d]).fault ≠ some .cancelled
  unwritten : ((g.generateDocuments files .never [d]).files.read (g.outputPath name)).toOption = none
  unlisted : (g.generateDocuments files .never [d]).report.map (·.written) = some []

def longName : Text := List.replicate 250 97

theorem leavesOut_long_and_covered :
    LeavesOut (plain "gen" false) emptyFiles ⟨"s.json", .ofList [(longName, emptyService longName)]⟩ longName
        (emptyService longName) ∧
      LeavesOut (plain "a.rs/.." false) emptyFiles ⟨"s.json", .ofList [("A", emptyService "A")]⟩ "A"
        (emptyService "A") := by
  refine ⟨⟨rfl, ?_, ?_, rfl, rfl, ?_, ?_, ?_, ?_⟩, ⟨rfl, ?_, ?_, rfl, rfl, ?_, ?_, ?_, ?_⟩⟩ <;> decide +kernel

end Generator

end RpcBindings.Generate
