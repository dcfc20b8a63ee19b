import RpcBindings.Proofs.Layout
import RpcBindings.Proofs.Order

/-!
# Which file of a run belongs to whom

A run writes its modules one after another and the index last, so what stands in a place at the end is the text that was
put there last. A module whose place no other file of the report shares still holds its own text. Modules of a run have
different names and with them different places. The index has a name of its own that no module is kept from having.
-/

namespace RpcBindings.Generate

open Files

def Meet (s : System) (path path' : Text) : Prop := ∃ l, s.locate path = .ok l ∧ s.locate path' = .ok l

def Alone (s : System) (report : Report) (w : Written) : Prop :=
  (∀ w' ∈ report.written, w' ≠ w → ¬ Meet s w'.path w.path) ∧ (report.index ≠ [] → ¬ Meet s report.index w.path)

theorem Home.eq_of_meet {g : Generator} {home loc : Location} {s : System} {m m' : Text} (h : Home g home s)
    (hext : IsExtension g.options.extension) (hm : IsModule m) (hm' : IsModule m')
    (hloc : s.locate (g.modulePath m) = .ok loc) (hdir : s.tree.get? loc ≠ some .directory)
    (hmeet : Meet s (g.modulePath m') (g.modulePath m)) : m' = m := by
  obtain ⟨l, hl', hl⟩ := hmeet
  obtain rfl := Except.ok.inj (hloc.symm.trans hl)
  obtain ⟨-, heq⟩ := (h.locate_modulePath hext hm hloc).resolve_right hdir
  obtain ⟨-, heq'⟩ := (h.locate_modulePath hext hm' hl').resolve_right hdir
  have hname := List.append_cancel_left (heq'.symm.trans heq)
  exact List.append_cancel_right (List.cons.inj hname).1

namespace Generator

variable {g : Generator}

def Kept (g : Generator) (jobs : List Job) (s : System) (w : Written) : Prop :=
  ∃ j ∈ jobs, w = ⟨j.service.name, j.module, j.path⟩ ∧
    ∃ text, g.renderService j.service j.source = .ok text ∧ s.read w.path = .ok text

/-! ## What stays of a job -/

section

variable (setbacks : Setbacks)

theorem perform_cases (s : System) (j : Job) :
    (g.perform s j setbacks).fault ≠ none ∧ Unchanged s (g.perform s j setbacks).files ∨
      (g.perform s j setbacks).fault = none ∧ ∃ text loc, g.renderService j.service j.source = .ok text ∧
        s.locate j.path = .ok loc ∧ s.tree.get? loc ≠ some .directory ∧
          Replaced loc text s (g.perform s j setbacks).files := by
  unfold perform
  cases hrender : g.renderService j.service j.source with
  | error f => exact .inl ⟨nofun, .refl s⟩
  | ok text =>
    have hcases := writeWhole_cases s j.path text (setbacks j.path)
    have hsuccess := @replaced_of_success s j.path text (setbacks j.path)
    dsimp only
    generalize writeWhole s j.path text (setbacks j.path) = attempt at hcases hsuccess ⊢
    obtain ⟨files, _ | f⟩ := attempt
    · obtain ⟨loc, hloc, hdir, hreplaced⟩ := hsuccess rfl
      exact .inr ⟨rfl, text, loc, rfl, hloc, hdir, hreplaced⟩
    · exact .inl ⟨nofun, hcases.resolve_right fun h => nomatch h.1⟩

variable {jobs : List Job}

theorem performAll_keeps (hnodup : (jobs.map (·.module)).Nodup) {l : Location} : ∀ {s : System} {signal : Signal},
    (∀ j ∈ jobs, (g.performAll s signal jobs setbacks).results.lookup j.module = some none → s.locate j.path ≠ .ok l) →
      (g.performAll s signal jobs setbacks).files.tree.get? l = s.tree.get? l := by
  induction jobs with
  | nil =>
    intro s signal _
    rfl
  | cons first rest ih =>
    intro s signal hothers
    rw [List.map_cons, List.nodup_cons] at hnodup
    rw [performAll] at hothers ⊢
    split at hothers
    next => rfl
    next next _ =>
      have hstep := perform_cases (g := g) setbacks s first
      have hsame := (perform_rewrites (g := g) setbacks s first).same
      dsimp only at hothers ⊢
      rw [ih hnodup.2 fun j hj hwritten hloc => ?_]
      · rcases hstep with ⟨-, hunchanged⟩ | ⟨hnone, text, loc, -, hloc, -, hreplaced⟩
        · exact hunchanged.entry l
        · rw [hreplaced.entry, if_neg]
          rintro rfl
          exact hothers first List.mem_cons_self (by rw [lookup_cons_ite, if_pos rfl, hnone]) hloc
      · have hne : j.module ≠ first.module := fun heq => hnodup.1 (heq ▸ List.mem_map_of_mem hj)
        refine hothers j (List.mem_cons_of_mem _ hj) ?_ (hsame.locate.mp hloc)
        rw [lookup_cons_ite, if_neg hne, hwritten]

theorem performAll_puts (hnodup : (jobs.map (·.module)).Nodup) {j : Job} (hj : j ∈ jobs) :
    ∀ {s : System} {signal : Signal}, (g.performAll s signal jobs setbacks).results.lookup j.module = some none →
      ∃ text loc, g.renderService j.service j.source = .ok text ∧ s.locate j.path = .ok loc ∧
        s.tree.get? loc ≠ some .directory ∧
        ((∀ j' ∈ jobs, j'.module ≠ j.module →
            (g.performAll s signal jobs setbacks).results.lookup j'.module = some none → s.locate j'.path ≠ .ok loc) →
          (g.performAll s signal jobs setbacks).files.tree.get? loc = some (.file text)) := by
  induction jobs with
  | nil => cases hj
  | cons first rest ih =>
    intro s signal hwritten
    rw [List.map_cons, List.nodup_cons] at hnodup
    have hapart : ∀ j' ∈ rest, j'.module ≠ first.module := fun j' hj' heq => hnodup.1 (heq ▸ List.mem_map_of_mem hj')
    rw [performAll] at hwritten ⊢
    split at hwritten
    next => cases hwritten
    next next _ =>
      have hsame := (perform_rewrites (g := g) setbacks s first).same
      dsimp only at hwritten ⊢
      rcases List.mem_cons.mp hj with rfl | hin
      · -- the jobs behind it do not come to its place
        rw [lookup_cons_ite, if_pos rfl] at hwritten
        rcases perform_cases (g := g) setbacks s j with ⟨hfault, -⟩ | ⟨-, text, loc, hrender, hloc, hdir, hreplaced⟩
        · exact absurd (Option.some.inj hwritten) hfault
        · refine ⟨text, loc, hrender, hloc, hdir, fun hothers => ?_⟩
          rw [performAll_keeps setbacks hnodup.2 fun j' hj' hlookup hloc' => ?_]
          · rw [hreplaced.entry, if_pos rfl]
          · refine hothers j' (List.mem_cons_of_mem _ hj') (hapart j' hj') ?_ (hsame.locate.mp hloc')
            rw [lookup_cons_ite, if_neg (hapart j' hj'), hlookup]
      · rw [lookup_cons_ite, if_neg (hapart j hin)] at hwritten
        obtain ⟨text, loc, hrender, hloc, hdir, hstays⟩ := ih hnodup.2 hin hwritten
        refine ⟨text, loc, hrender, hsame.locate.mp hloc, fun h => hdir ((hsame.directory_iff loc).mpr h), fun hothers => ?_⟩
        refine hstays fun j' hj' hne hlookup hloc' => ?_
        refine hothers j' (List.mem_cons_of_mem _ hj') hne ?_ (hsame.locate.mp hloc')
        rw [lookup_cons_ite, if_neg (hapart j' hj'), hlookup]

end

/-! ## What a report lists -/

section

variable {plan : Plan} {failures : List Failure} {results : List (Text × Option Fault)}

theorem mem_written_iff {w : Written} : w ∈ (reportOn plan failures results).written ↔
    ∃ j ∈ plan.jobs, results.lookup j.module = some none ∧ w = ⟨j.service.name, j.module, j.path⟩ := by
  rw [reportOn, List.mem_mergeSort, writtenJobs, List.mem_filterMap]
  refine exists_congr fun j => and_congr_right fun _ => ?_
  split
  next hlookup => simp [hlookup, eq_comm]
  next hlookup => exact iff_of_false (Option.some_ne_none w).symm fun h => hlookup h.1

theorem nodup_written (hnodup : (plan.jobs.map (·.module)).Nodup) :
    ((reportOn plan failures results).written.map (·.module)).Nodup := by
  have hsub : ∀ jobs : List Job, ((writtenJobs results jobs).map (·.module)).Sublist (jobs.map (·.module)) := by
    intro jobs
    induction jobs with
    | nil => exact .slnil
    | cons j rest ih =>
      rw [writtenJobs, List.filterMap_cons, List.map_cons]
      split
      next => exact ih.cons _
      next w hw =>
        split at hw
        next =>
          obtain rfl := Option.some.inj hw
          exact ih.cons_cons _
        next => cases hw
  exact (((List.mergeSort_perm _ _).map _).nodup_iff).mpr (hnodup.sublist (hsub plan.jobs))

end

theorem writeIndex_adds {s : System} {report last : Report} {setbacks : Setbacks} (hindex : report.index = [])
    (h : (g.writeIndex s report setbacks).report = some last) :
    last.written = report.written ∧
      (last.index = [] ∧ (g.writeIndex s report setbacks).files = s ∨
        last.index = g.indexPath ∧ ∃ text loc, g.renderer.index report.modules = .ok text ∧
          s.locate g.indexPath = .ok loc ∧ s.tree.get? loc ≠ some .directory ∧
          Replaced loc text s (g.writeIndex s report setbacks).files) := by
  have hend := writeIndex_end (g := g) s report setbacks
  generalize g.writeIndex s report setbacks = run at hend h ⊢
  cases hend with
  | skipped =>
    obtain rfl := Option.some.inj h
    exact ⟨rfl, .inl ⟨hindex, rfl⟩⟩
  | unrendered => cases h
  | unwritten => cases h
  | @written content files _ hcontent hattempt =>
    obtain rfl := Option.some.inj h
    obtain ⟨loc, hloc, hdir, hreplaced⟩ :=
      @replaced_of_success s g.indexPath content (setbacks g.indexPath) (by rw [hattempt])
    rw [hattempt] at hreplaced
    exact ⟨rfl, .inr ⟨rfl, content, loc, hcontent, hloc, hdir, hreplaced⟩⟩

/-! ## What a run leaves behind -/

/-- The files that a report lists have been put in places that are no directories. The index stays, and so does a module
that is alone in its place. -/
structure Delivered (g : Generator) (jobs : List Job) (report : Report) (s : System) : Prop where
  home : report.written ≠ [] → ∃ home, Home g home s
  distinct : (report.written.map (·.module)).Nodup
  module : ∀ w ∈ report.written, ∃ j ∈ jobs, w = ⟨j.service.name, j.module, j.path⟩ ∧ (∃ c, j = g.job c) ∧
    ∃ text loc, g.renderService j.service j.source = .ok text ∧ s.locate w.path = .ok loc ∧
      s.tree.get? loc ≠ some .directory ∧ (Alone s report w → s.tree.get? loc = some (.file text))
  index : report.index ≠ [] → report.index = g.indexPath ∧ ∃ text loc, g.renderer.index report.modules = .ok text ∧
    s.locate report.index = .ok loc ∧ s.tree.get? loc = some (.file text)

theorem delivered_performAll {arrange : List Job → List Job} (harrange : ∀ jobs, (arrange jobs).Perm jobs) {plan : Plan}
    (hnodup : (plan.jobs.map (·.module)).Nodup) (hjobs : ∀ j ∈ plan.jobs, ∃ c, j = g.job c) {s : System}
    (hhome : plan.jobs ≠ [] → ∃ home, Home g home s) (signal : Signal) (failures : List Failure) (setbacks : Setbacks) :
    Delivered g plan.jobs
      (reportOn plan failures (g.performAll s signal (arrange plan.jobs) setbacks).results)
      (g.performAll s signal (arrange plan.jobs) setbacks).files := by
  have hperm := harrange plan.jobs
  have hsame := (performAll_rewrites (g := g) setbacks (arrange plan.jobs) s signal).same
  refine ⟨fun hsome => ?_, nodup_written hnodup, fun w hw => ?_, fun hindex => absurd rfl hindex⟩
  · obtain ⟨w, hw⟩ := List.exists_mem_of_ne_nil _ hsome
    obtain ⟨j, hj, -⟩ := mem_written_iff.mp hw
    obtain ⟨home, hhome⟩ := hhome (List.ne_nil_of_mem hj)
    exact ⟨home, hhome.sameDirectories hsame⟩
  · obtain ⟨j, hj, hlookup, rfl⟩ := mem_written_iff.mp hw
    obtain ⟨text, loc, hrender, hloc, hdir, hstays⟩ :=
      performAll_puts setbacks ((hperm.map _).nodup_iff.mpr hnodup) (hperm.mem_iff.mpr hj) hlookup
    refine ⟨j, hj, rfl, hjobs j hj, text, loc, hrender, hsame.locate.mpr hloc,
      fun hin => hdir ((hsame.directory_iff loc).mp hin), fun halone => hstays fun j' hj' hne hlookup' hloc' => ?_⟩
    exact halone.1 _ (mem_written_reportOn (hperm.mem_iff.mp hj') hlookup') (fun heq => hne (congrArg Written.module heq))
      ⟨loc, hsame.locate.mpr hloc', hsame.locate.mpr hloc⟩

theorem Delivered.writeIndex {jobs : List Job} {s : System} {report last : Report} {setbacks : Setbacks}
    (h : Delivered g jobs report s) (hindex : report.index = [])
    (hlast : (g.writeIndex s report setbacks).report = some last) :
    Delivered g jobs last (g.writeIndex s report setbacks).files := by
  obtain ⟨hwritten, hadds⟩ := writeIndex_adds hindex hlast
  generalize (g.writeIndex s report setbacks).files = s' at hadds ⊢
  have hsame : s.SameDirectories s' := by
    rcases hadds with ⟨-, rfl⟩ | ⟨-, _, _, -, -, hdir, hreplaced⟩
    · exact .refl s'
    · exact hreplaced.sameDirectories hdir
  have hmodules : last.modules = report.modules := by rw [Report.modules, Report.modules, hwritten]
  refine ⟨fun hsome => ?_, hwritten ▸ h.distinct, fun w hw => ?_, fun hsome => ?_⟩
  · obtain ⟨home, hhome⟩ := h.home (hwritten ▸ hsome)
    exact ⟨home, hhome.sameDirectories hsame⟩
  · obtain ⟨j, hj, hentry, hjob, text, loc, hrender, hloc, hdir, hstays⟩ := h.module w (hwritten ▸ hw)
    refine ⟨j, hj, hentry, hjob, text, loc, hrender, hsame.locate.mpr hloc,
      fun hin => hdir ((hsame.directory_iff loc).mp hin), fun halone => ?_⟩
    have hput := hstays ⟨fun w' hw' hne ⟨l, hl', hl⟩ =>
      halone.1 w' (hwritten ▸ hw') hne ⟨l, hsame.locate.mpr hl', hsame.locate.mpr hl⟩, fun hsome => absurd hindex hsome⟩
    rcases hadds with ⟨-, rfl⟩ | ⟨hpath, _, place, -, hplace, -, hreplaced⟩
    · exact hput
    · rw [hreplaced.entry, if_neg]
      · exact hput
      · rintro rfl
        refine halone.2 (hpath ▸ System.ne_nil_of_locate hplace) ⟨loc, ?_, hsame.locate.mpr hloc⟩
        exact hpath ▸ hsame.locate.mpr hplace
  · rcases hadds with ⟨hnone, -⟩ | ⟨hpath, text, place, hrender, hplace, -, hreplaced⟩
    · exact absurd hnone hsome
    · refine ⟨hpath, text, place, hmodules ▸ hrender, hpath ▸ hsame.locate.mpr hplace, ?_⟩
      rw [hreplaced.entry, if_pos rfl]

section

variable {arrange : List Job → List Job} {files : System} {signal : Signal} {count : Nat} {failures : List Failure}
  {documents : List Document} {setbacks : Setbacks} {report : Report}

theorem runDocuments_reported
    (h : (g.runDocuments arrange files signal count failures documents setbacks).report = some report) :
    ∃ ready, (if (g.plan documents).jobs.isEmpty then .ok files else files.mkdirAll g.options.outputDir) = .ok ready ∧
      let batch := g.performAll ready signal (arrange (g.plan documents).jobs) setbacks
      let ending := g.writeIndex batch.files
        (reportOn (g.plan documents) (failures ++ (g.plan documents).refused) batch.results) setbacks
      batch.stopped = false ∧
        (g.runDocuments arrange files signal count failures documents setbacks).files = ending.files ∧
        ∃ last, ending.report = some last ∧ report = { last with documents := count } := by
  unfold runDocuments carryOut at h ⊢
  dsimp only at h ⊢
  generalize hready : (if (g.plan documents).jobs.isEmpty then .ok files else files.mkdirAll g.options.outputDir) =
    made at h ⊢
  cases made with
  | error f => cases h
  | ok ready =>
    refine ⟨ready, rfl, ?_⟩
    dsimp only at h ⊢
    generalize g.performAll ready signal (arrange (g.plan documents).jobs) setbacks = batch at h ⊢
    cases hstopped : batch.stopped with
    | true =>
      simp only [hstopped, if_true] at h
      cases h
    | false =>
      simp only [hstopped, Bool.false_eq_true, if_false] at h ⊢
      generalize g.writeIndex batch.files
        (reportOn (g.plan documents) (failures ++ (g.plan documents).refused) batch.results) setbacks = ending at h ⊢
      cases hlast : ending.report with
      | none =>
        simp only [hlast] at h
        cases h
      | some last =>
        simp only [hlast] at h ⊢
        exact ⟨trivial, trivial, last, rfl, (Option.some.inj h).symm⟩

theorem runDocuments_delivers (harrange : ∀ jobs, (arrange jobs).Perm jobs)
    (h : (g.runDocuments arrange files signal count failures documents setbacks).report = some report) :
    Delivered g (g.plan documents).jobs report
      (g.runDocuments arrange files signal count failures documents setbacks).files := by
  obtain ⟨ready, hready, -, hfiles, last, hlast, rfl⟩ := runDocuments_reported h
  have hhome : (g.plan documents).jobs ≠ [] → ∃ home, Home g home ready := by
    intro hsome
    rw [if_neg (by simpa using hsome)] at hready
    exact home_of_isDirectory (System.made_of_mkdirAllFrom hready).isDirectory
  have hnodup : ((g.plan documents).jobs.map (·.module)).Nodup := nodup_planFrom _ _
  have hbatch := delivered_performAll harrange hnodup (fun j => job_of_mem_plan) hhome signal
    (failures ++ (g.plan documents).refused) setbacks
  have hdelivered := hbatch.writeIndex rfl hlast
  rw [hfiles]
  exact ⟨hdelivered.home, hdelivered.distinct, hdelivered.module, hdelivered.index⟩

end

/-! ## Who owns which path -/

namespace Delivered

variable {jobs : List Job} {report : Report} {s : System} {w : Written}

theorem kept (h : Delivered g jobs report s) (hw : w ∈ report.written) (halone : Alone s report w) : Kept g jobs s w := by
  obtain ⟨j, hj, hentry, -, text, loc, hrender, hloc, -, hstays⟩ := h.module w hw
  exact ⟨j, hj, hentry, text, hrender, System.read_ok_iff.mpr ⟨loc, hloc, hstays halone⟩⟩

theorem isModule (h : Delivered g jobs report s) (hw : w ∈ report.written) :
    IsModule w.module ∧ w.path = g.modulePath w.module := by
  obtain ⟨j, -, rfl, ⟨c, rfl⟩, -⟩ := h.module w hw
  exact ⟨isModule_moduleName c.name, rfl⟩

theorem eq_of_module (h : Delivered g jobs report s) {w' : Written} (hw : w ∈ report.written) (hw' : w' ∈ report.written)
    (heq : w'.module = w.module) : w' = w :=
  List.inj_on_of_nodup_map h.distinct hw' hw heq

theorem alone_iff (h : Delivered g jobs report s) (hext : IsExtension g.options.extension) (hw : w ∈ report.written) :
    Alone s report w ↔ report.index = [] ∨ w.module ≠ indexModule := by
  obtain ⟨hm, hpath⟩ := h.isModule hw
  obtain ⟨home, hhome⟩ := h.home (List.ne_nil_of_mem hw)
  obtain ⟨-, -, -, -, -, loc, -, hloc, hdir, -⟩ := h.module w hw
  constructor
  · intro halone
    by_cases hindex : report.index = []
    · exact .inl hindex
    · refine .inr fun heq => halone.2 hindex ⟨loc, ?_, hloc⟩
      rw [(h.index hindex).1, indexPath, ← heq, ← hpath]
      exact hloc
  · intro hfree
    rw [hpath] at hloc
    refine ⟨fun w' hw' hne hmeet => hne ?_, fun hindex hmeet => ?_⟩
    · obtain ⟨hm', hpath'⟩ := h.isModule hw'
      rw [hpath, hpath'] at hmeet
      exact h.eq_of_module hw hw' (hhome.eq_of_meet hext hm hm' hloc hdir hmeet)
    · rw [hpath, (h.index hindex).1] at hmeet
      exact hfree.elim hindex fun hne => hne (hhome.eq_of_meet hext hm isModule_indexModule hloc hdir hmeet).symm

theorem nodup_paths_iff (h : Delivered g jobs report s) (hext : IsExtension g.options.extension) :
    report.paths.Nodup ↔ report.index = [] ∨ indexModule ∉ report.modules := by
  have hwritten : (report.written.map (·.path)).Nodup := by
    refine h.distinct.of_map.map_on fun w hw w' hw' heq => h.eq_of_module hw' hw ?_
    obtain ⟨hm, hpath⟩ := h.isModule hw
    obtain ⟨hm', hpath'⟩ := h.isModule hw'
    exact modulePath_injective hext hm hm' (hpath ▸ hpath' ▸ heq)
  by_cases hindex : report.index = []
  · simpa [Report.paths, hindex] using hwritten
  · have hmeets : report.index ∈ report.written.map (·.path) ↔ indexModule ∈ report.modules := by
      rw [(h.index hindex).1, Report.modules, List.mem_mergeSort, List.mem_map, List.mem_map]
      refine exists_congr fun w => and_congr_right fun hw => ?_
      obtain ⟨hm, hpath⟩ := h.isModule hw
      rw [hpath]
      exact ⟨modulePath_injective hext hm isModule_indexModule, fun heq => by rw [heq, indexPath]⟩
    rw [Report.paths, if_neg hindex, List.nodup_append_comm, List.singleton_append, List.nodup_cons, hmeets]
    simp [hindex, hwritten]

end Delivered

variable {arrange : List Job → List Job} {files : System} {signal : Signal} {count : Nat} {failures : List Failure}
  {documents : List Document} {setbacks : Setbacks} {report : Report}

/-- Whatever the options are, a module that is alone in its place holds its text when the run is over, and so does the
index. With an extension that leaves names in their directory, modules are alone but for one, which has the name of the
index. -/
theorem runDocuments_paths_owned (harrange : ∀ jobs, (arrange jobs).Perm jobs)
    (h : (g.runDocuments arrange files signal count failures documents setbacks).report = some report) :
    let done := (g.runDocuments arrange files signal count failures documents setbacks).files
    (∀ w ∈ report.written, Alone done report w → Kept g (g.plan documents).jobs done w) ∧
      (report.index ≠ [] → ∃ text, g.renderer.index report.modules = .ok text ∧ done.read report.index = .ok text) ∧
      (IsExtension g.options.extension →
        (report.paths.Nodup ↔ report.index = [] ∨ indexModule ∉ report.modules) ∧
        ∀ w ∈ report.written, (Alone done report w ↔ report.index = [] ∨ w.module ≠ indexModule)) := by
  intro done
  have hdelivered : Delivered g (g.plan documents).jobs report done := runDocuments_delivers harrange h
  refine ⟨fun w hw => hdelivered.kept hw, fun hindex => ?_, fun hext => ?_⟩
  · obtain ⟨-, text, loc, hrender, hloc, hfile⟩ := hdelivered.index hindex
    exact ⟨text, hrender, System.read_ok_iff.mpr ⟨loc, hloc, hfile⟩⟩
  · exact ⟨hdelivered.nodup_paths_iff hext, fun w hw => hdelivered.alone_iff hext hw⟩

def depot : Generator := ⟨⟨"gen", ".rs", true, 1, [], "v1"⟩, ⟨Render.Layout.library, "v1"⟩⟩

def depotDocuments (name : Text) : List Document := [⟨"s.json", .ofList [(name, emptyService name)]⟩]

theorem runDocuments_paths_owned_port :
    ∃ report, (depot.runDocuments List.reverse emptyFiles .never 1 [] (depotDocuments "Port")).report = some report ∧
      report.written = [⟨"Port", "port", "gen/port.rs"⟩] ∧ report.index = "gen/mod.rs" ∧
      IsExtension depot.options.extension ∧ report.paths.Nodup ∧
      Kept depot (depot.plan (depotDocuments "Port")).jobs
        (depot.runDocuments List.reverse emptyFiles .never 1 [] (depotDocuments "Port")).files
        ⟨"Port", "port", "gen/port.rs"⟩ := by
  have hreport : (depot.runDocuments List.reverse emptyFiles .never 1 [] (depotDocuments "Port")).report =
      some ⟨1, 1, [⟨"Port", "port", "gen/port.rs"⟩], [], "gen/mod.rs"⟩ := by decide +kernel
  have hext : IsExtension depot.options.extension := by
    rw [IsExtension]
    decide
  obtain ⟨hkept, -, howned⟩ := runDocuments_paths_owned List.reverse_perm hreport
  obtain ⟨hpaths, halone⟩ := howned hext
  have hport := List.mem_singleton_self (⟨"Port", "port", "gen/port.rs"⟩ : Written)
  refine ⟨_, hreport, rfl, rfl, hext, hpaths.mpr (.inr (by decide +kernel)), ?_⟩
  exact hkept _ hport ((halone _ hport).mpr (.inr (by decide)))

/-- A module with the name of the index is listed as written, and its file holds the index. -/
theorem paths_meet_mod :
    ∃ report, (depot.runDocuments id emptyFiles .never 1 [] (depotDocuments "Mod")).report = some report ∧
      ¬ report.paths.Nodup ∧ ∃ w ∈ report.written, ¬ Kept depot (depot.plan (depotDocuments "Mod")).jobs
        (depot.runDocuments id emptyFiles .never 1 [] (depotDocuments "Mod")).files w := by
  have hreport : (depot.runDocuments id emptyFiles .never 1 [] (depotDocuments "Mod")).report =
      some ⟨1, 1, [⟨"Mod", "mod", "gen/mod.rs"⟩], [], "gen/mod.rs"⟩ := by decide +kernel
  have hjobs : (depot.plan (depotDocuments "Mod")).jobs = [depot.job ⟨"s.json", "Mod", emptyService "Mod"⟩] := rfl
  refine ⟨_, hreport, by decide, _, List.mem_cons_self, ?_⟩
  rintro ⟨j, hj, -, text, hrender, hread⟩
  rw [hjobs, List.mem_singleton] at hj
  have hother : (depot.renderService (emptyService "Mod") "s.json").toOption ≠
      ((depot.runDocuments id emptyFiles .never 1 [] (depotDocuments "Mod")).files.read "gen/mod.rs").toOption := by
    decide +kernel
  rw [hread] at hother
  rw [hj] at hrender
  exact hother (congrArg Except.toOption hrender)

end Generator

end RpcBindings.Generate
