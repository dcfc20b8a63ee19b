import RpcBindings.Proofs.Confinement
import RpcBindings.Proofs.Documents

/-!
# The order of jobs and of paths does not matter

What becomes of a job does not depend on the jobs around it, so a batch can be described without its order: each result
and each file is what the job alone would give. Two orders of one batch have the same description. A report sorts its
lists by what tells its entries apart, so it shows no order either.
-/

namespace RpcBindings.Generate

open Files

/-- What can be seen of two runs is the same. The logs are in the order of what was done and are left out. -/
structure SameOutcome (run run' : Run) : Prop where
  files : Unchanged run.files run'.files
  report : run'.report = run.report
  fault : run'.fault = run.fault

/-- A batch without regard to its order. -/
structure Settled (g : Generator) (home : Location) (jobs : List Job) (s : System) (b : Batch) : Prop where
  result : ∀ j ∈ jobs, b.results.lookup j.module = some (g.perform s j).fault
  cwd : b.files.cwd = s.cwd
  numbers : b.files.numbers = s.numbers
  own : ∀ j ∈ jobs, b.files.tree.get? (home ++ [j.module ++ g.options.extension]) =
    (g.perform s j).files.tree.get? (home ++ [j.module ++ g.options.extension])
  elsewhere : ∀ l, (∀ j ∈ jobs, l ≠ home ++ [j.module ++ g.options.extension]) → b.files.tree.get? l = s.tree.get? l

theorem Settled.unchanged {g : Generator} {home : Location} {jobs jobs' : List Job} {s : System} {b b' : Batch}
    (h : Settled g home jobs s b) (h' : Settled g home jobs' s b') (hmem : ∀ j, j ∈ jobs' ↔ j ∈ jobs) :
    Unchanged b.files b'.files := by
  refine ⟨h'.cwd.trans h.cwd.symm, h'.numbers.trans h.numbers.symm, fun l => ?_⟩
  by_cases hl : ∃ j ∈ jobs, l = home ++ [j.module ++ g.options.extension]
  · obtain ⟨j, hj, rfl⟩ := hl
    rw [h.own j hj, h'.own j ((hmem j).mpr hj)]
  · have hnot : ∀ j ∈ jobs, l ≠ home ++ [j.module ++ g.options.extension] := fun j hj heq => hl ⟨j, hj, heq⟩
    rw [h.elsewhere l hnot, h'.elsewhere l fun j hj => hnot j ((hmem j).mp hj)]

namespace Generator

variable {g : Generator}

/-! ## Jobs -/

section

variable {s s' : System} {home : Location} {signal : Signal} {jobs : List Job}

theorem perform_alike {c : Candidate} (h : Aside g home (g.job c).module s s') (hhome : Home g home s)
    (hext : IsExtension g.options.extension) :
    (g.perform s' (g.job c)).fault = (g.perform s (g.job c)).fault ∧
      (g.perform s' (g.job c)).files.tree.get? (home ++ [(g.job c).module ++ g.options.extension]) =
        (g.perform s (g.job c)).files.tree.get? (home ++ [(g.job c).module ++ g.options.extension]) := by
  have hm : IsModule (g.job c).module := isModule_moduleName c.name
  have hhome' := hhome.sameDirectories h.same
  cases hrender : g.renderService (g.job c).service (g.job c).source with
  | error f =>
    obtain ⟨hfiles, hfault⟩ := @perform_of_error g s _ f hrender
    obtain ⟨hfiles', hfault'⟩ := @perform_of_error g s' _ f hrender
    rw [hfiles, hfiles', hfault, hfault']
    exact ⟨rfl, h.get?_fileName⟩
  | ok text =>
    obtain ⟨hfiles, hfault⟩ := @perform_of_ok g s _ text hrender
    obtain ⟨hfiles', hfault'⟩ := @perform_of_ok g s' _ text hrender
    have hsame : (writeWhole s' (g.job c).path text).fault = (writeWhole s (g.job c).path text).fault :=
      h.fault_writeWhole hhome hext hm text
    rw [hfiles, hfiles', hfault, hfault']
    refine ⟨hsame, ?_⟩
    by_cases hnone : (writeWhole s (g.job c).path text).fault = none
    · obtain ⟨loc, hloc, hdir, hreplaced⟩ := replaced_of_no_fault hnone
      obtain ⟨loc', hloc', hdir', hreplaced'⟩ := replaced_of_no_fault (hsame.trans hnone)
      obtain ⟨-, rfl⟩ := (hhome.locate_modulePath hext hm hloc).resolve_right hdir
      obtain ⟨-, rfl⟩ := (hhome'.locate_modulePath hext hm hloc').resolve_right hdir'
      rw [hreplaced.entry, hreplaced'.entry, if_pos rfl, if_pos rfl]
    · rw [(unchanged_of_fault hnone).entry, (unchanged_of_fault (hsame.symm ▸ hnone)).entry]
      exact h.get?_fileName

theorem performAll_settled (hext : IsExtension g.options.extension) (hhome : Home g home s)
    (hjobs : ∀ j ∈ jobs, ∃ c, j = g.job c) (hnodup : (jobs.map (·.module)).Nodup)
    (hend : (g.performAll s signal jobs).stopped = false) : Settled g home jobs s (g.performAll s signal jobs) := by
  have hrewritten := performAll_rewrites (g := g) (fun _ => none) jobs s signal
  refine ⟨fun j hj => ?_, hrewritten.same.cwd, hrewritten.same.numbers, fun j hj => ?_, fun l hl => ?_⟩
  · obtain ⟨mid, hbefore, hlookup, -⟩ := performAll_at hext hj hjobs hnodup hhome hend
    obtain ⟨c, rfl⟩ := hjobs j hj
    rw [hlookup, (perform_alike hbefore hhome hext).1]
  · obtain ⟨mid, hbefore, -, hafter⟩ := performAll_at hext hj hjobs hnodup hhome hend
    obtain ⟨c, rfl⟩ := hjobs j hj
    rw [hafter.get?_fileName, (perform_alike hbefore hhome hext).2]
  · rcases hrewritten.entry l with hkept | ⟨text, hfile, j, hj, -, hloc⟩
    · exact hkept
    · obtain ⟨c, rfl⟩ := hjobs j hj
      rcases hhome.locate_modulePath hext (isModule_moduleName c.name) hloc with ⟨-, heq⟩ | hdir
      · exact absurd heq (hl _ hj)
      · rw [(hrewritten.same.directory_iff l).mpr hdir] at hfile
        cases hfile

theorem performAll_stopped_congr (jobs : List Job) : ∀ {jobs' : List Job} {s s' : System} {signal : Signal},
    jobs'.length = jobs.length → (g.performAll s' signal jobs').stopped = (g.performAll s signal jobs).stopped := by
  induction jobs with
  | nil =>
    intro jobs' s s' signal h
    rw [List.length_eq_zero_iff.mp h]
    rfl
  | cons j rest ih =>
    intro jobs' s s' signal h
    cases jobs' with
    | nil => cases h
    | cons j' rest' =>
      rw [performAll, performAll]
      cases signal.ask with
      | none => rfl
      | some next => exact ih (Nat.succ.inj h)

end

/-! ## Reports -/

end Generator

theorem mergeSort_eq_of_perm {α : Type} {le : α → α → Bool} {l l' : List α}
    (htrans : ∀ a b c, le a b = true → le b c = true → le a c = true) (htotal : ∀ a b, (le a b || le b a) = true)
    (hunique : ∀ a ∈ l, ∀ b ∈ l, le a b = true → le b a = true → a = b) (h : l'.Perm l) :
    l'.mergeSort le = l.mergeSort le := by
  refine List.Perm.eq_of_pairwise ?_ (List.pairwise_mergeSort htrans htotal l') (List.pairwise_mergeSort htrans htotal l) ?_
  · intro a b ha hb
    exact hunique a (h.mem_iff.mp (List.mem_mergeSort.mp ha)) b (List.mem_mergeSort.mp hb)
  · exact (List.mergeSort_perm l' le).trans (h.trans (List.mergeSort_perm l le).symm)

theorem Failure.before_iff {a b : Failure} :
    Failure.before a b = true ↔ a.source < b.source ∨ a.source = b.source ∧ a.service ≤ b.service := by
  unfold Failure.before
  split
  next heq => simp [heq, List.lt_irrefl]
  next hne => simp [hne, List.le_iff_lt_or_eq]

theorem Failure.before_trans (a b c : Failure) (hab : Failure.before a b = true) (hbc : Failure.before b c = true) :
    Failure.before a c = true := by
  rw [before_iff] at hab hbc ⊢
  rcases hab with hab | ⟨hab, hab'⟩
  · rcases hbc with hbc | ⟨hbc, -⟩
    · exact .inl (List.lt_trans hab hbc)
    · exact .inl (hbc ▸ hab)
  · rcases hbc with hbc | ⟨hbc, hbc'⟩
    · exact .inl (hab ▸ hbc)
    · exact .inr ⟨hab.trans hbc, List.le_trans hab' hbc'⟩

theorem Failure.before_total (a b : Failure) : (Failure.before a b || Failure.before b a) = true := by
  rw [Bool.or_eq_true, before_iff, before_iff]
  rcases List.le_total a.source b.source with h | h
  · rcases List.le_iff_lt_or_eq.mp h with hlt | heq
    · exact .inl (.inl hlt)
    · rcases List.le_total a.service b.service with h' | h'
      · exact .inl (.inr ⟨heq, h'⟩)
      · exact .inr (.inr ⟨heq.symm, h'⟩)
  · rcases List.le_iff_lt_or_eq.mp h with hlt | heq
    · exact .inr (.inl hlt)
    · rcases List.le_total a.service b.service with h' | h'
      · exact .inl (.inr ⟨heq.symm, h'⟩)
      · exact .inr (.inr ⟨heq, h'⟩)

theorem Failure.eq_of_before {a b : Failure} (hab : Failure.before a b = true) (hba : Failure.before b a = true) :
    a.source = b.source ∧ a.service = b.service := by
  rw [before_iff] at hab hba
  rcases hab with hab | ⟨hab, hab'⟩
  · rcases hba with hba | ⟨hba, -⟩
    · exact absurd (List.lt_trans hab hba) (List.lt_irrefl _)
    · exact absurd (hba ▸ hab) (List.lt_irrefl _)
  · rcases hba with hba | ⟨-, hba'⟩
    · exact absurd (hab ▸ hba) (List.lt_irrefl _)
    · exact ⟨hab, List.le_antisymm hab' hba'⟩

namespace Generator

variable {g : Generator}

section

variable {plan plan' : Plan} {failures failures' : List Failure} {results results' : List (Text × Option Fault)}

theorem writtenJobs_congr {jobs : List Job} (h : ∀ j ∈ jobs, results'.lookup j.module = results.lookup j.module) :
    writtenJobs results' jobs = writtenJobs results jobs :=
  List.filterMap_congr fun j hj => by rw [h j hj]

theorem failedJobs_congr {jobs : List Job} (h : ∀ j ∈ jobs, results'.lookup j.module = results.lookup j.module) :
    failedJobs results' jobs = failedJobs results jobs :=
  List.filterMap_congr fun j hj => by rw [h j hj]

theorem reportOn_congr (h : ∀ j ∈ plan.jobs, results'.lookup j.module = results.lookup j.module) :
    reportOn plan failures results' = reportOn plan failures results := by
  rw [reportOn, reportOn, writtenJobs_congr h, failedJobs_congr h]

theorem reportOn_perm (hjobs : plan'.jobs.Perm plan.jobs) (hfailures : failures'.Perm failures)
    (hwritten : ∀ j ∈ plan.jobs, ∀ j' ∈ plan.jobs, j.path = j'.path → j = j')
    (hfailed : ∀ a ∈ failures ++ failedJobs results plan.jobs, ∀ b ∈ failures ++ failedJobs results plan.jobs,
      a.source = b.source → a.service = b.service → a = b) :
    reportOn plan' failures' results = reportOn plan failures results := by
  have hservices : plan'.jobs.length + (failures'.filter fun f => f.service ≠ []).length =
      plan.jobs.length + (failures.filter fun f => f.service ≠ []).length := by
    rw [hjobs.length_eq, (hfailures.filter _).length_eq]
  have hsortedWritten : (writtenJobs results plan'.jobs).mergeSort (fun a b => decide (a.path ≤ b.path)) =
      (writtenJobs results plan.jobs).mergeSort fun a b => decide (a.path ≤ b.path) := by
    refine mergeSort_eq_of_perm (Text.ordered_trans Written.path) (Text.ordered_total Written.path) ?_ (hjobs.filterMap _)
    intro a ha b hb hab hba
    obtain ⟨j, hj, hja⟩ := List.mem_filterMap.mp ha
    obtain ⟨j', hj', hjb⟩ := List.mem_filterMap.mp hb
    have hpath := List.le_antisymm (of_decide_eq_true hab) (of_decide_eq_true hba)
    split at hja <;> cases hja
    split at hjb <;> cases hjb
    obtain rfl := hwritten j hj j' hj' hpath
    rfl
  have hsortedFailed : (failures' ++ failedJobs results plan'.jobs).mergeSort Failure.before =
      (failures ++ failedJobs results plan.jobs).mergeSort Failure.before := by
    refine mergeSort_eq_of_perm Failure.before_trans Failure.before_total ?_ (hfailures.append (hjobs.filterMap _))
    intro a ha b hb hab hba
    obtain ⟨hsource, hservice⟩ := Failure.eq_of_before hab hba
    exact hfailed a ha b hb hsource hservice
  rw [reportOn, reportOn, hservices, hsortedWritten, hsortedFailed]

theorem writeWhole_alike {s s' : System} {home : Location} {m : Text} (h : Unchanged s s') (hhome : Home g home s)
    (hext : IsExtension g.options.extension) (hm : IsModule m) (content : Text) :
    Unchanged (writeWhole s (g.modulePath m) content).files (writeWhole s' (g.modulePath m) content).files ∧
      (writeWhole s' (g.modulePath m) content).fault = (writeWhole s (g.modulePath m) content).fault := by
  have haside : Aside g home m s s' := .of_unchanged h
  have hfault := haside.fault_writeWhole hhome hext hm content
  refine ⟨?_, hfault⟩
  by_cases hnone : (writeWhole s (g.modulePath m) content).fault = none
  · obtain ⟨loc, hloc, -, hreplaced⟩ := replaced_of_no_fault hnone
    obtain ⟨loc', hloc', -, hreplaced'⟩ := replaced_of_no_fault (hfault.trans hnone)
    obtain rfl := Except.ok.inj (hloc.symm.trans (haside.same.locate.mp hloc'))
    refine ⟨hreplaced'.cwd.trans (h.cwd.trans hreplaced.cwd.symm),
      hreplaced'.numbers.trans (h.numbers.trans hreplaced.numbers.symm), fun l => ?_⟩
    rw [hreplaced.entry, hreplaced'.entry, h.entry]
  · have hkept := unchanged_of_fault hnone
    have hkept' := unchanged_of_fault (hfault.symm ▸ hnone)
    refine ⟨hkept'.cwd.trans (h.cwd.trans hkept.cwd.symm),
      hkept'.numbers.trans (h.numbers.trans hkept.numbers.symm), fun l => ?_⟩
    rw [hkept.entry, hkept'.entry, h.entry]

theorem writeIndex_alike {s s' : System} {home : Location} (h : Unchanged s s') (hhome : Home g home s)
    (hext : IsExtension g.options.extension) (report : Report) :
    SameOutcome (g.writeIndex s report) (g.writeIndex s' report) := by
  unfold writeIndex
  split
  next => exact ⟨h, rfl, rfl⟩
  next =>
    split
    next => exact ⟨h, rfl, rfl⟩
    next =>
      split
      next => exact ⟨h, rfl, rfl⟩
      next content _ =>
        obtain ⟨hfiles, hfault⟩ := writeWhole_alike h hhome hext isModule_indexModule content
        rw [← indexPath] at hfiles hfault
        rcases hwrite : writeWhole s g.indexPath content with ⟨files, fault⟩
        rcases hwrite' : writeWhole s' g.indexPath content with ⟨files', fault'⟩
        simp only [hwrite, hwrite'] at hfault hfiles
        subst hfault
        cases fault' with
        | some f => exact ⟨hfiles, rfl, rfl⟩
        | none => exact ⟨hfiles, rfl, rfl⟩

end

/-! ## Runs -/

def withJobs (g : Generator) (bound : Int) : Generator := { g with options := { g.options with jobs := bound } }

theorem performAll_withJobs (bound : Int) (jobs : List Job) : ∀ (s : System) (signal : Signal),
    (g.withJobs bound).performAll s signal jobs = g.performAll s signal jobs := by
  induction jobs with
  | nil =>
    intro s signal
    rfl
  | cons j rest ih =>
    intro s signal
    rw [performAll, performAll]
    cases signal.ask with
    | none => rfl
    | some next =>
      simp only [ih]
      rfl

theorem planFrom_withJobs (bound : Int) (cs : List Candidate) : ∀ owners : List (Text × Text),
    (g.withJobs bound).planFrom owners cs = g.planFrom owners cs := by
  induction cs with
  | nil =>
    intro owners
    rfl
  | cons c rest ih =>
    intro owners
    simp only [planFrom, ih]
    rfl

section

variable {arrange arrange' : List Job → List Job} {files : System} {signal : Signal} {failures failures' : List Failure}
  {plan plan' : Plan}

theorem carryOut_alike (hext : IsExtension g.options.extension) (harrange : ∀ jobs, (arrange jobs).Perm jobs)
    (harrange' : ∀ jobs, (arrange' jobs).Perm jobs) (hperm : plan'.jobs.Perm plan.jobs)
    (hjobs : ∀ j ∈ plan.jobs, ∃ c, j = g.job c) (hnodup : (plan.jobs.map (·.module)).Nodup)
    (hreport : ∀ results results', (∀ j ∈ plan.jobs, results'.lookup j.module = results.lookup j.module) →
      reportOn plan' (failures' ++ plan'.refused) results' = reportOn plan (failures ++ plan.refused) results)
    (bound : Int) (hend : (g.carryOut arrange files signal failures plan).fault ≠ some .cancelled) :
    SameOutcome (g.carryOut arrange files signal failures plan)
      ((g.withJobs bound).carryOut arrange' files signal failures' plan') := by
  have hempty : plan'.jobs.isEmpty = plan.jobs.isEmpty := by
    rw [Bool.eq_iff_iff, List.isEmpty_iff, List.isEmpty_iff]
    exact ⟨fun h => List.perm_nil.mp (h ▸ hperm).symm, fun h => List.perm_nil.mp (h ▸ hperm)⟩
  have hdir : (g.withJobs bound).options.outputDir = g.options.outputDir := rfl
  have hindex : ∀ s r, (g.withJobs bound).writeIndex s r = g.writeIndex s r := fun _ _ => rfl
  unfold carryOut at hend ⊢
  simp only [hempty, hdir, performAll_withJobs, hindex] at hend ⊢
  split
  next f hmkdir => exact ⟨.refl _, rfl, rfl⟩
  next ready hready =>
    simp only [hready] at hend
    have hlist := harrange plan.jobs
    have hlist' := (harrange' plan'.jobs).trans hperm
    have hstopped : (g.performAll ready signal (arrange' plan'.jobs)).stopped =
        (g.performAll ready signal (arrange plan.jobs)).stopped :=
      performAll_stopped_congr _ (hlist'.length_eq.trans hlist.length_eq.symm)
    rw [hstopped]
    split
    next hstop => simp [hstop] at hend
    next hgo =>
      have hstop : (g.performAll ready signal (arrange plan.jobs)).stopped = false := by simpa using hgo
      by_cases hnone : plan.jobs = []
      · -- nothing to do in either order
        have harranged : arrange plan.jobs = [] := List.perm_nil.mp (hnone ▸ hlist)
        have harranged' : arrange' plan'.jobs = [] := List.perm_nil.mp (hnone ▸ hlist')
        rw [harranged, harranged', hreport (g.performAll ready signal []).results _ fun _ _ => rfl]
        split <;> exact ⟨.refl _, rfl, rfl⟩
      · rw [if_neg (by simpa using hnone)] at hready
        obtain ⟨home, hhome⟩ := home_of_isDirectory (System.made_of_mkdirAllFrom hready).isDirectory
        have hsettled := performAll_settled hext hhome (fun j hj => hjobs j (hlist.mem_iff.mp hj))
          ((hlist.map _).nodup_iff.mpr hnodup) hstop
        have hsettled' := performAll_settled hext hhome (fun j hj => hjobs j (hlist'.mem_iff.mp hj))
          ((hlist'.map _).nodup_iff.mpr hnodup) (hstopped.trans hstop)
        have hfiles := hsettled.unchanged hsettled' fun j => hlist'.mem_iff.trans hlist.mem_iff.symm
        have hreports := hreport _ _ fun j hj =>
          (hsettled'.result j (hlist'.mem_iff.mpr hj)).trans (hsettled.result j (hlist.mem_iff.mpr hj)).symm
        have hhomeDone : Home g home (g.performAll ready signal (arrange plan.jobs)).files :=
          hhome.sameDirectories (performAll_rewrites (g := g) (fun _ => none) _ ready signal).same
        have hlast := writeIndex_alike hfiles hhomeDone hext
          (reportOn plan (failures ++ plan.refused) (g.performAll ready signal (arrange plan.jobs)).results)
        rw [hreports, hlast.report]
        split <;> exact ⟨hlast.files, rfl, hlast.fault⟩

theorem carryOut_fault {last : Report} (h : (g.carryOut arrange files signal failures plan).report = some last) :
    (g.carryOut arrange files signal failures plan).fault = none := by
  unfold carryOut at h ⊢
  simp only at h ⊢
  split at h
  next => cases h
  next =>
    split at h
    next => cases h
    next hgo =>
      rw [if_neg hgo]
      split at h
      next hnone =>
        rw [hnone] at h
        cases h
      next report hreport =>
        have hfault := writeIndex_fault.mpr ⟨report, hreport⟩
        rwa [hreport]

theorem runDocuments_alike {g' : Generator} {documents documents' : List Document} {count : Nat}
    (hend : (g.runDocuments arrange files signal count failures documents).fault ≠ some .cancelled)
    (h : (g.carryOut arrange files signal failures (g.plan documents)).fault ≠ some .cancelled →
      SameOutcome (g.carryOut arrange files signal failures (g.plan documents))
        (g'.carryOut arrange' files signal failures' (g'.plan documents'))) :
    SameOutcome (g.runDocuments arrange files signal count failures documents)
      (g'.runDocuments arrange' files signal count failures' documents') := by
  have hgo : (g.carryOut arrange files signal failures (g.plan documents)).fault ≠ some .cancelled := by
    cases hreport : (g.carryOut arrange files signal failures (g.plan documents)).report with
    | none =>
      simp only [runDocuments, hreport] at hend
      exact hend
    | some last =>
      rw [carryOut_fault hreport]
      exact (Option.some_ne_none _).symm
  have hsame := h hgo
  unfold runDocuments
  simp only [hsame.report]
  split
  next => exact hsame
  next => exact ⟨hsame.files, rfl, rfl⟩

end

/-! ## Plans of services with different modules -/

theorem planFrom_of_nodup (cs : List Candidate) : ∀ {owners : List (Text × Text)},
    (∀ c ∈ cs, owners.lookup (Binding.moduleName c.name) = none) →
    (cs.map fun c => Binding.moduleName c.name).Nodup → g.planFrom owners cs = ⟨cs.map g.job, []⟩ := by
  induction cs with
  | nil =>
    intro owners _ _
    rfl
  | cons c rest ih =>
    intro owners hfree hnodup
    rw [List.map_cons, List.nodup_cons] at hnodup
    have hrest : g.planFrom ((Binding.moduleName c.name, c.name) :: owners) rest = ⟨rest.map g.job, []⟩ := by
      refine ih (fun d hd => ?_) hnodup.2
      have hne : Binding.moduleName d.name ≠ Binding.moduleName c.name := fun heq =>
        hnodup.1 (List.mem_map.mpr ⟨d, hd, heq⟩)
      rw [lookup_cons_ite, if_neg hne]
      exact hfree d (List.mem_cons_of_mem _ hd)
    simp only [planFrom, hfree c List.mem_cons_self, hrest]
    rfl

theorem mem_failedJobs {results : List (Text × Option Fault)} {cs : List Candidate} {f : Failure}
    (h : f ∈ failedJobs results (cs.map g.job)) :
    ∃ c ∈ cs, f.source = c.source ∧ f.service = c.service.name ∧
      results.lookup (Binding.moduleName c.name) = some (some f.fault) := by
  obtain ⟨j, hj, hf⟩ := List.mem_filterMap.mp h
  obtain ⟨c, hc, rfl⟩ := List.mem_map.mp hj
  split at hf
  next fault hlookup =>
    obtain rfl := Option.some.inj hf
    exact ⟨c, hc, rfl, rfl, hlookup⟩
  next => cases hf

theorem failures_distinct {files : System} {paths : List Text} {results : List (Text × Option Fault)} {a b : Failure}
    (ha : a ∈ paths.filterMap (unloaded? files) ++
      failedJobs results ((candidates (paths.filterMap (loaded? files))).map g.job))
    (hb : b ∈ paths.filterMap (unloaded? files) ++
      failedJobs results ((candidates (paths.filterMap (loaded? files))).map g.job))
    (hsource : a.source = b.source) (hservice : a.service = b.service) : a = b := by
  -- a failure says whether its file was loaded, and then by which service of it
  have hkind : ∀ f ∈ paths.filterMap (unloaded? files) ++
      failedJobs results ((candidates (paths.filterMap (loaded? files))).map g.job),
      Document.load files f.source = .error f.fault ∨ (∃ d, Document.load files f.source = .ok d) ∧
        results.lookup (Binding.moduleName f.service) = some (some f.fault) := by
    intro f hf
    rcases List.mem_append.mp hf with hf | hf
    · exact .inl (mem_filterMap_unloaded? hf).2
    · obtain ⟨c, hc, hfsource, hfservice, hlookup⟩ := mem_failedJobs hf
      obtain ⟨d, hd, hc⟩ := List.mem_flatMap.mp hc
      obtain ⟨e, he, rfl⟩ := List.mem_map.mp hc
      obtain ⟨hload, hnames⟩ := mem_filterMap_loaded? hd
      refine .inr ⟨⟨d, hfsource ▸ hload⟩, ?_⟩
      rw [hfservice, hnames e he]
      exact hlookup
  have hfault : a.fault = b.fault := by
    rcases hkind a ha with hload | ⟨⟨d, hload⟩, hlookup⟩ <;> rcases hkind b hb with hload' | ⟨⟨d', hload'⟩, hlookup'⟩
    · rw [hsource, hload'] at hload
      exact (Except.error.inj hload).symm
    · rw [hsource, hload'] at hload
      cases hload
    · rw [hsource, hload'] at hload
      cases hload
    · rw [hservice, hlookup'] at hlookup
      exact (Option.some.inj (Option.some.inj hlookup)).symm
  cases a
  cases b
  simp_all

/-! ## Runs that are not told to stop -/

theorem execute_ne_cancelled {r : Render.Renderer} {name : Text} {v : Template.Value} {f : Fault}
    (h : r.execute name v = .error f) : f ≠ .cancelled := by
  unfold Render.Renderer.execute at h
  split at h
  next =>
    cases hexec : Template.execute r.library r.version name v with
    | ok text =>
      rw [hexec] at h
      cases h
    | error e =>
      rw [hexec] at h
      obtain rfl := Except.error.inj h
      nofun
  next =>
    obtain rfl := Except.error.inj h
    nofun

theorem fault?_ne_cancelled (r : Report) : r.fault? ≠ some .cancelled := by
  have hfold : ∀ (rest : List Fault) (f : Fault), f ≠ .cancelled → rest.foldl .both f ≠ .cancelled := by
    intro rest
    induction rest with
    | nil => exact fun f hf => hf
    | cons next rest ih => exact fun f _ => ih (.both f next) nofun
  unfold Report.fault?
  cases r.failed with
  | nil => nofun
  | cons f rest => exact fun h => hfold _ f.located nofun (Option.some.inj h)

theorem performAll_never (jobs : List Job) : ∀ s : System, (g.performAll s .never jobs).stopped = false := by
  induction jobs with
  | nil =>
    intro s
    rfl
  | cons j rest ih =>
    intro s
    exact ih (g.perform s j).files

theorem loadAll_never (files : System) (paths : List Text) : (loadAll files .never paths).signal = some .never := by
  induction paths with
  | nil => rfl
  | cons path rest ih =>
    rw [loadAll]
    simp only [Signal.never, Signal.ask] at ih ⊢
    cases Document.load files path <;> exact ih

theorem writeIndex_ne_cancelled (s : System) (report : Report) : (g.writeIndex s report).fault ≠ some .cancelled := by
  have hend := writeIndex_end (g := g) s report fun _ => none
  generalize g.writeIndex s report = run at hend ⊢
  cases hend with
  | skipped => nofun
  | unrendered _ hf => exact fun heq => execute_ne_cancelled hf (Option.some.inj heq)
  | @unwritten _ _ f _ _ hattempt =>
    have hio : f.is .io = true := writeWhole_fault_io (by rw [hattempt])
    intro heq
    rw [Option.some.inj heq] at hio
    cases hio
  | written => nofun

section

variable (arrange : List Job → List Job) (files : System) (count : Nat) (failures : List Failure)
  (documents : List Document)

theorem carryOut_never (plan : Plan) : (g.carryOut arrange files .never failures plan).fault ≠ some .cancelled := by
  unfold carryOut
  simp only
  split
  next => nofun
  next ready _ =>
    simp only [performAll_never, Bool.false_eq_true, if_false]
    split <;> exact writeIndex_ne_cancelled _ _

theorem runDocuments_never : (g.runDocuments arrange files .never count failures documents).fault ≠ some .cancelled := by
  unfold runDocuments
  simp only
  split
  next => exact carryOut_never arrange files failures (g.plan documents)
  next => exact fault?_ne_cancelled _

theorem generateIn_never (paths : List Text) : (g.generateIn arrange files .never paths).fault ≠ some .cancelled := by
  unfold generateIn
  simp only [loadAll_never]
  exact runDocuments_never arrange files _ _ _

end

theorem files_of_never {arrange : List Job → List Job} {files ready : System} {count : Nat} {failures : List Failure}
    {documents : List Document} (hoff : g.options.index = false) (hjobs : (g.plan documents).jobs ≠ [])
    (hready : files.mkdirAll g.options.outputDir = .ok ready) :
    (g.runDocuments arrange files .never count failures documents).files =
      (g.performAll ready .never (arrange (g.plan documents).jobs)).files := by
  have hend := runDocuments_never (g := g) arrange files count failures documents
  rw [(runDocuments_of_ready hjobs hready hend).2.1, writeIndex, hoff]
  simp

section

variable {arrange arrange' : List Job → List Job} (hext : Path.slash ∉ g.options.extension)
  (harrange : ∀ jobs, (arrange jobs).Perm jobs) (harrange' : ∀ jobs, (arrange' jobs).Perm jobs) (bound : Int)
  {files : System} {signal : Signal} {count : Nat}

include hext harrange harrange'

theorem runDocuments_any_order {failures : List Failure} {documents : List Document}
    (hend : (g.runDocuments arrange files signal count failures documents).fault ≠ some .cancelled) :
    SameOutcome (g.runDocuments arrange files signal count failures documents)
      ((g.withJobs bound).runDocuments arrange' files signal count failures documents) := by
  have hplan : (g.withJobs bound).plan documents = g.plan documents := planFrom_withJobs bound _ _
  refine runDocuments_alike hend fun hgo => ?_
  rw [hplan]
  refine carryOut_alike hext harrange harrange' (.refl _) ?_ ?_ ?_ bound hgo
  · exact fun j hj => job_of_mem_plan hj
  · exact nodup_planFrom _ _
  · exact fun results results' hsame => reportOn_congr hsame

theorem runDocuments_any_paths {paths paths' : List Text} (hperm : paths'.Perm paths)
    (hnodup : ((candidates (paths.filterMap (loaded? files))).map fun c => Binding.moduleName c.name).Nodup)
    (hend : (g.runDocuments arrange files signal count (paths.filterMap (unloaded? files))
      (paths.filterMap (loaded? files))).fault ≠ some .cancelled) :
    SameOutcome
      (g.runDocuments arrange files signal count (paths.filterMap (unloaded? files)) (paths.filterMap (loaded? files)))
      ((g.withJobs bound).runDocuments arrange' files signal count (paths'.filterMap (unloaded? files))
        (paths'.filterMap (loaded? files))) := by
  have hcandidates : (candidates (paths'.filterMap (loaded? files))).Perm (candidates (paths.filterMap (loaded? files))) :=
    (hperm.filterMap _).flatMap_right _
  have hjobs := hcandidates.map g.job
  have hplan : g.plan (paths.filterMap (loaded? files)) =
      ⟨(candidates (paths.filterMap (loaded? files))).map g.job, []⟩ :=
    planFrom_of_nodup _ (fun _ _ => rfl) hnodup
  have hplan' : (g.withJobs bound).plan (paths'.filterMap (loaded? files)) =
      ⟨(candidates (paths'.filterMap (loaded? files))).map g.job, []⟩ :=
    planFrom_of_nodup _ (fun _ _ => rfl) ((hcandidates.map _).nodup_iff.mpr hnodup)
  refine runDocuments_alike hend fun hgo => ?_
  rw [hplan] at hgo ⊢
  rw [hplan']
  refine carryOut_alike hext harrange harrange' hjobs ?_ ?_ ?_ bound hgo
  · intro j hj
    obtain ⟨c, -, rfl⟩ := List.mem_map.mp hj
    exact ⟨c, rfl⟩
  · rw [List.map_map]
    exact hnodup
  · intro results results' hlookup
    rw [reportOn_congr fun j hj => hlookup j (hjobs.mem_iff.mp hj)]
    simp only [List.append_nil]
    refine reportOn_perm hjobs (hperm.filterMap _) ?_ fun a ha b hb => failures_distinct ha hb
    -- an extension without a slash keeps the paths of different modules apart
    intro j hj j' hj' hpath
    obtain ⟨c, hc, rfl⟩ := List.mem_map.mp hj
    obtain ⟨c', hc', rfl⟩ := List.mem_map.mp hj'
    have hmodule := modulePath_injective hext (isModule_moduleName c.name) (isModule_moduleName c'.name) hpath
    rw [List.inj_on_of_nodup_map hnodup hc hc' hmodule]

end

theorem order_immaterial {arrange arrange' : List Job → List Job} (hext : Path.slash ∉ g.options.extension)
    (harrange : ∀ jobs, (arrange jobs).Perm jobs) (harrange' : ∀ jobs, (arrange' jobs).Perm jobs) (bound : Int)
    (files : System) (signal : Signal) :
    (∀ count failures documents,
      (g.runDocuments arrange files signal count failures documents).fault ≠ some .cancelled →
      SameOutcome (g.runDocuments arrange files signal count failures documents)
        ((g.withJobs bound).runDocuments arrange' files signal count failures documents)) ∧
    ∀ paths paths', paths'.Perm paths →
      ((candidates (loadAll files signal paths).documents).map fun c => Binding.moduleName c.name).Nodup →
      (g.generateIn arrange files signal paths).fault ≠ some .cancelled →
      SameOutcome (g.generateIn arrange files signal paths)
        ((g.withJobs bound).generateIn arrange' files signal paths') := by
  refine ⟨fun count failures documents => runDocuments_any_order hext harrange harrange' bound, ?_⟩
  intro paths paths' hperm hnodup hend
  have hsignal : (loadAll files signal paths').signal = (loadAll files signal paths).signal :=
    loadAll_signal_congr paths hperm.length_eq
  unfold generateIn at hend ⊢
  simp only [hsignal] at hend ⊢
  cases hnext : (loadAll files signal paths).signal with
  | none => simp [hnext] at hend
  | some next =>
    obtain ⟨hdocuments, hfailures⟩ := loadAll_lists paths hnext
    obtain ⟨hdocuments', hfailures'⟩ := loadAll_lists paths' (hsignal.trans hnext)
    simp only [hnext, hdocuments, hfailures, hdocuments', hfailures', hperm.length_eq] at hnodup hend ⊢
    have hsame := runDocuments_any_paths hext harrange harrange' bound hperm hnodup hend
    exact ⟨hsame.files, hsame.report, hsame.fault⟩

def declaring (service : Text) : Text :=
  "\x7b\"" ++ service ++ "\":\x7b\"id\":1,\"procedures\":\x7b\x7d,\"classes\":\x7b\x7d,\"enumerations\":\x7b\x7d\x7d\x7d"

def pierFiles : System where
  tree := ⟨[(["a.json"], .file (declaring "Anchor")), (["b.json"], .file (declaring "Buoy")), (["c.json"], .file "?")]⟩
  cwd := []

theorem order_immaterial_pier :
    SameOutcome ((plain "gen" true).runDocuments id emptyFiles .never 2 [] yardDocuments)
        (((plain "gen" true).withJobs 4).runDocuments List.reverse emptyFiles .never 2 [] yardDocuments) ∧
      SameOutcome ((plain "gen" true).generateIn id pierFiles .never ["a.json", "b.json", "c.json"])
        (((plain "gen" true).withJobs 4).generateIn List.reverse pierFiles .never ["b.json", "c.json", "a.json"]) := by
  have hext : Path.slash ∉ (plain "gen" true).options.extension := by decide
  have h := fun files => @order_immaterial (plain "gen" true) id List.reverse hext (fun jobs => .refl jobs)
    List.reverse_perm 4 files .never
  refine ⟨(h emptyFiles).1 2 [] yardDocuments (runDocuments_never _ _ _ _ _),
    (h pierFiles).2 _ _ ?_ ?_ (generateIn_never _ _ _)⟩
  · decide
  · decide +kernel

def funnel : Generator := { plain "gen" false with options := { (plain "gen" false).options with extension := "/../x.rs" } }

def pierDocuments : List Document :=
  [⟨"a.json", .ofList [("Anchor", emptyService "Anchor")]⟩, ⟨"b.json", .ofList [("Buoy", emptyService "Buoy")]⟩]

/-- Where all modules are written to one file, the last of them stays. -/
theorem order_matters_funnel :
    ((funnel.runDocuments id emptyFiles .never 2 [] pierDocuments).files.read "gen/x.rs").toOption =
        some ("// Buoy" : Text) ∧
      ((funnel.runDocuments List.reverse emptyFiles .never 2 [] pierDocuments).files.read "gen/x.rs").toOption =
        some ("// Anchor" : Text) := by
  have hfiles := fun arrange => @files_of_never funnel arrange emptyFiles _ 2 [] pierDocuments rfl (by decide) rfl
  rw [hfiles, hfiles]
  constructor <;> decide +kernel

end Generator

end RpcBindings.Generate
