import RpcBindings.Proofs.Order
import RpcBindings.Proofs.Ownership

/-!
# The account of a run

A run owes an entry of its report to every file that cannot be loaded and to every service of the others. What becomes of
the services is told in the order in which they are planned: one that finds its module taken has failed, any other fares
as its job does. The report lists exactly these entries, each once, in a fixed order.
-/

namespace RpcBindings.Generate

open Files

namespace Generator

variable {g : Generator}

/-! ## What becomes of services -/

def fates (results : List (Text × Option Fault)) (owners : List (Text × Text)) :
    List Candidate → List (Candidate × Option Fault)
  | [] => []
  | c :: rest =>
    match owners.lookup (Binding.moduleName c.name) with
    | some owner => (c, some (takenModule (Binding.moduleName c.name) owner)) :: fates results owners rest
    | none =>
      (c, (results.lookup (Binding.moduleName c.name)).join) ::
        fates results ((Binding.moduleName c.name, c.name) :: owners) rest

def writtenEntry (g : Generator) : Candidate × Option Fault → Option Written
  | (c, none) => some ⟨c.name, Binding.moduleName c.name, g.outputPath c.name⟩
  | (_, some _) => none

def failedEntry : Candidate × Option Fault → Option Failure
  | (_, none) => none
  | (c, some f) => some ⟨c.source, c.name, f⟩

section

variable {results : List (Text × Option Fault)} {owners : List (Text × Text)} {c : Candidate}

theorem fates_of_taken {owner : Text} (h : owners.lookup (Binding.moduleName c.name) = some owner)
    (rest : List Candidate) : fates results owners (c :: rest) =
      (c, some (takenModule (Binding.moduleName c.name) owner)) :: fates results owners rest := by
  simp only [fates, h]

theorem fates_of_free {fault : Option Fault} (h : owners.lookup (Binding.moduleName c.name) = none)
    (hfault : results.lookup (Binding.moduleName c.name) = some fault) (rest : List Candidate) :
    fates results owners (c :: rest) =
      (c, fault) :: fates results ((Binding.moduleName c.name, c.name) :: owners) rest := by
  simp only [fates, h, hfault, Option.join_some]

theorem map_fst_fates (cs : List Candidate) (owners : List (Text × Text)) :
    (fates results owners cs).map (·.1) = cs := by
  induction cs generalizing owners with
  | nil => rfl
  | cons c rest ih =>
    rw [fates]
    split <;> rw [List.map_cons, ih]

theorem fate_of_taken {cs : List Candidate} {x : Candidate × Option Fault} (hx : x ∈ fates results owners cs)
    (h : owners.lookup (Binding.moduleName x.1.name) ≠ none) : x.2 ≠ none := by
  induction cs generalizing owners with
  | nil => cases hx
  | cons c rest ih =>
    rw [fates] at hx
    split at hx
    next owner howner =>
      rcases List.mem_cons.mp hx with rfl | hx
      · exact nofun
      · exact ih hx h
    next hfree =>
      rcases List.mem_cons.mp hx with rfl | hx
      · exact absurd hfree h
      · refine ih hx ?_
        rw [lookup_cons_ite]
        split
        · exact nofun
        · exact h

theorem pairwise_fates (cs : List Candidate) (owners : List (Text × Text)) :
    (fates results owners cs).Pairwise fun a b =>
      Binding.moduleName a.1.name = Binding.moduleName b.1.name → b.2 ≠ none := by
  induction cs generalizing owners with
  | nil => exact .nil
  | cons c rest ih =>
    rw [fates]
    split
    next owner howner =>
      refine .cons (fun b hb heq => fate_of_taken hb ?_) (ih owners)
      rw [← heq, howner]
      exact nofun
    next =>
      refine .cons (fun b hb heq => fate_of_taken hb ?_) (ih _)
      rw [lookup_cons_ite, if_pos heq.symm]
      exact nofun

theorem refused_of_taken {owner : Text} (h : owners.lookup (Binding.moduleName c.name) = some owner)
    (rest : List Candidate) : (g.planFrom owners (c :: rest)).refused =
      ⟨c.source, c.name, takenModule (Binding.moduleName c.name) owner⟩ :: (g.planFrom owners rest).refused := by
  simp only [planFrom, h]

theorem refused_of_free (h : owners.lookup (Binding.moduleName c.name) = none) (rest : List Candidate) :
    (g.planFrom owners (c :: rest)).refused =
      (g.planFrom ((Binding.moduleName c.name, c.name) :: owners) rest).refused := by
  simp only [planFrom, h]

theorem entries_planFrom {cs : List Candidate} (hnames : ∀ c ∈ cs, c.service.name = c.name) :
    ∀ {owners : List (Text × Text)},
      (∀ j ∈ (g.planFrom owners cs).jobs, ∃ fault, results.lookup j.module = some fault) →
      writtenJobs results (g.planFrom owners cs).jobs = (fates results owners cs).filterMap g.writtenEntry ∧
        ((g.planFrom owners cs).refused ++ failedJobs results (g.planFrom owners cs).jobs).Perm
          ((fates results owners cs).filterMap failedEntry) := by
  induction cs with
  | nil =>
    intro owners _
    exact ⟨rfl, .nil⟩
  | cons c rest ih =>
    intro owners hdone
    have hrest := @ih fun d hd => hnames d (List.mem_cons_of_mem c hd)
    cases howner : owners.lookup (Binding.moduleName c.name) with
    | some owner =>
      rw [planFrom_of_taken howner] at hdone ⊢
      obtain ⟨hwritten, hfailed⟩ := hrest hdone
      rw [refused_of_taken howner, fates_of_taken howner]
      exact ⟨hwritten, hfailed.cons _⟩
    | none =>
      rw [planFrom_of_free howner] at hdone ⊢
      obtain ⟨hwritten, hfailed⟩ := hrest fun j hj => hdone j (List.mem_cons_of_mem _ hj)
      obtain ⟨fault, hfault⟩ := hdone (g.job c) List.mem_cons_self
      have hname := hnames c List.mem_cons_self
      have hmodule : (g.job c).module = Binding.moduleName c.name := rfl
      rw [refused_of_free howner, fates_of_free howner hfault]
      rw [writtenJobs] at hwritten ⊢
      rw [failedJobs] at hfailed ⊢
      rw [List.filterMap_cons, List.filterMap_cons, List.filterMap_cons, List.filterMap_cons, hfault]
      cases fault with
      | none =>
        refine ⟨?_, hfailed⟩
        simp only [writtenEntry, job, hname, hwritten]
      | some f =>
        -- the failure stands behind all refusals, although the fate of its service comes first
        refine ⟨hwritten, ?_⟩
        simp only [failedEntry, job, hname]
        exact List.perm_middle.trans (hfailed.cons _)

end

/-! ## What a batch tells -/

/-- The entries of a report are those that the fates of the services call for, beside the failures there were before. -/
structure Accounts (g : Generator) (failures : List Failure) (told : List (Candidate × Option Fault)) (report : Report) :
    Prop where
  written : report.written.Perm (told.filterMap g.writtenEntry)
  failed : report.failed.Perm (failures ++ told.filterMap failedEntry)
  sole : told.Pairwise fun a b => Binding.moduleName a.1.name = Binding.moduleName b.1.name → b.2 ≠ none
  written_ascending : report.written.Pairwise fun a b => a.path ≤ b.path
  failed_ascending : report.failed.Pairwise fun a b => a.source < b.source ∨ a.source = b.source ∧ a.service ≤ b.service

theorem accounts_reportOn {cs : List Candidate} {failures : List Failure} {results : List (Text × Option Fault)}
    (hnames : ∀ c ∈ cs, c.service.name = c.name)
    (hdone : ∀ j ∈ (g.planFrom [] cs).jobs, ∃ fault, results.lookup j.module = some fault) :
    Accounts g failures (fates results [] cs)
      (reportOn (g.planFrom [] cs) (failures ++ (g.planFrom [] cs).refused) results) := by
  obtain ⟨hwritten, hfailed⟩ := entries_planFrom hnames hdone
  refine ⟨?_, ?_, pairwise_fates cs [], ?_, ?_⟩
  · exact hwritten ▸ List.mergeSort_perm _ _
  · refine (List.mergeSort_perm _ _).trans ?_
    rw [List.append_assoc]
    exact hfailed.append_left failures
  · have hsorted := List.pairwise_mergeSort (Text.ordered_trans Written.path) (Text.ordered_total Written.path)
      (writtenJobs results (g.planFrom [] cs).jobs)
    exact hsorted.imp of_decide_eq_true
  · exact (List.pairwise_mergeSort Failure.before_trans Failure.before_total _).imp Failure.before_iff.mp

theorem names_of_candidates {documents : List Document} (h : ∀ d ∈ documents, ∀ e ∈ d.services.entries, e.2.name = e.1) :
    ∀ c ∈ candidates documents, c.service.name = c.name := by
  intro c hc
  obtain ⟨d, hd, hc⟩ := List.mem_flatMap.mp hc
  obtain ⟨e, he, rfl⟩ := List.mem_map.mp hc
  exact h d hd e he

section

variable {arrange : List Job → List Job} {files : System} {signal : Signal} {setbacks : Setbacks} {report : Report}

theorem runDocuments_accounts (harrange : ∀ jobs, (arrange jobs).Perm jobs) {count : Nat} {failures : List Failure}
    {documents : List Document} (hnames : ∀ d ∈ documents, ∀ e ∈ d.services.entries, e.2.name = e.1)
    (h : (g.runDocuments arrange files signal count failures documents setbacks).report = some report) :
    ∃ told, told.map (·.1) = candidates documents ∧ Accounts g failures told report := by
  obtain ⟨ready, -, hend, -, last, hlast, rfl⟩ := runDocuments_reported h
  obtain ⟨hwritten, hfailed⟩ := writeIndex_lists hlast
  have hdone : ∀ j ∈ (g.plan documents).jobs, ∃ fault,
      (g.performAll ready signal (arrange (g.plan documents).jobs) setbacks).results.lookup j.module = some fault :=
    fun j hj => lookup_performAll ((harrange _).mem_iff.mpr hj) hend
  have haccounts := @accounts_reportOn g _ failures _ (names_of_candidates hnames) hdone
  refine ⟨_, map_fst_fates _ _, ⟨?_, ?_, haccounts.sole, ?_, ?_⟩⟩
  · exact hwritten ▸ haccounts.written
  · exact hfailed ▸ haccounts.failed
  · exact hwritten ▸ haccounts.written_ascending
  · exact hfailed ▸ haccounts.failed_ascending

/-- The report of a run is complete. A file that cannot be loaded has one entry, a failure of the whole file. Every
service of the other files has one entry, as written or as failed, and only the first that names a module can be written.
There are no other entries, and they stand in order. -/
theorem generateIn_accounted (harrange : ∀ jobs, (arrange jobs).Perm jobs) {paths : List Text}
    (h : (g.generateIn arrange files signal paths setbacks).report = some report) :
    ∃ told, told.map (·.1) = candidates (paths.filterMap (loaded? files)) ∧
      Accounts g (paths.filterMap (unloaded? files)) told report := by
  unfold generateIn at h
  cases hsignal : (loadAll files signal paths).signal with
  | none =>
    simp only [hsignal] at h
    cases h
  | some signal' =>
    simp only [hsignal] at h
    obtain ⟨hdocuments, hfailures⟩ := loadAll_lists paths hsignal
    rw [hdocuments, hfailures] at h
    exact runDocuments_accounts harrange (fun d hd => (mem_filterMap_loaded? hd).2) h

end

def wharfFiles : System where
  tree := ⟨[(["a.json"], .file (declaring "TugBoat")), (["b.json"], .file (declaring "Tug_Boat")), (["c.json"], .file "?")]⟩
  cwd := []

def wharfPaths : List Text := ["d.json", "c.json", "a.json", "b.json"]

theorem generateIn_accounted_wharf :
    ∃ report told, ((plain "gen" false).generateIn List.reverse wharfFiles .never wharfPaths).report = some report ∧
      report.written = [⟨"TugBoat", "tug_boat", "gen/tug_boat.rs"⟩] ∧
      told.map (·.1.name) = ["TugBoat", "Tug_Boat"].map Text.ofString ∧
      (wharfPaths.filterMap (unloaded? wharfFiles)).map (·.source) = ["d.json", "c.json"].map Text.ofString ∧
      Accounts (plain "gen" false) (wharfPaths.filterMap (unloaded? wharfFiles)) told report := by
  have hran : ((plain "gen" false).generateIn List.reverse wharfFiles .never wharfPaths).report.map (·.written) =
      some [⟨"TugBoat", "tug_boat", "gen/tug_boat.rs"⟩] := by decide +kernel
  have hnames : (candidates (wharfPaths.filterMap (loaded? wharfFiles))).map (·.name) =
      ["TugBoat", "Tug_Boat"].map Text.ofString := by decide +kernel
  obtain ⟨report, hreport, hwritten⟩ := Option.map_eq_some_iff.mp hran
  obtain ⟨told, htold, haccounts⟩ := generateIn_accounted List.reverse_perm hreport
  refine ⟨report, told, hreport, hwritten, ?_, by decide +kernel, haccounts⟩
  rw [← hnames, ← htold, List.map_map]
  rfl

end Generator

end RpcBindings.Generate
