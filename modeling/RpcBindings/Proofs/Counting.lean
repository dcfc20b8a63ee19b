import Mathlib.Algebra.Ring.Nat
import RpcBindings.Proofs.Index

/-!
# How many services a report counts

A run counts its services once they are planned: those that have a job, and those among the failures so far. A failure
counts as that of a service if it has a name, so a service without a name is left out when its module is taken. The
entries of the report leave nobody out.
-/

namespace RpcBindings.Generate

open Files

theorem length_candidates (documents : List Document) :
    (candidates documents).length = (documents.map fun d => d.services.size).sum := by
  simp only [candidates, List.length_flatMap, List.length_map, Dict.size]

theorem exists_split_cons {P : List Candidate → Candidate → Prop} {c : Candidate} {cs : List Candidate} :
    (∃ before d after, c :: cs = before ++ d :: after ∧ P before d) ↔
      P [] c ∨ ∃ before d after, cs = before ++ d :: after ∧ P (c :: before) d := by
  constructor
  · rintro ⟨before, d, after, heq, hd⟩
    cases before with
    | nil =>
      obtain ⟨rfl, rfl⟩ := List.cons.inj heq
      exact .inl hd
    | cons b before =>
      obtain ⟨rfl, rfl⟩ := List.cons.inj heq
      exact .inr ⟨before, d, after, rfl, hd⟩
  · rintro (hc | ⟨before, d, after, rfl, hd⟩)
    · exact ⟨[], c, cs, rfl, hc⟩
    · exact ⟨c :: before, d, after, rfl, hd⟩

namespace Generator

variable {g : Generator}

/-! ## Services with a job and services refused -/

theorem length_planFrom (cs : List Candidate) (owners : List (Text × Text)) :
    (g.planFrom owners cs).jobs.length + (g.planFrom owners cs).refused.length = cs.length := by
  induction cs generalizing owners with
  | nil => rfl
  | cons c rest ih =>
    cases howner : owners.lookup (Binding.moduleName c.name) with
    | some owner =>
      have hrest := ih owners
      rw [planFrom_of_taken howner, refused_of_taken howner, List.length_cons, List.length_cons]
      omega
    | none =>
      have hrest := ih ((Binding.moduleName c.name, c.name) :: owners)
      rw [planFrom_of_free howner, refused_of_free howner, List.length_cons, List.length_cons]
      omega

theorem exists_refused_iff {name : Text} (cs : List Candidate) : ∀ {owners : List (Text × Text)},
    (∃ f ∈ (g.planFrom owners cs).refused, f.service = name) ↔
      ∃ before c after, cs = before ++ c :: after ∧ c.name = name ∧
        (owners.lookup (Binding.moduleName name) ≠ none ∨
          ∃ d ∈ before, Binding.moduleName d.name = Binding.moduleName name) := by
  induction cs with
  | nil =>
    intro owners
    refine iff_of_false (by rintro ⟨f, hf, -⟩; cases hf) ?_
    rintro ⟨before, c, after, hnil, -⟩
    simp at hnil
  | cons c rest ih =>
    intro owners
    rw [exists_split_cons]
    simp only [List.not_mem_nil, List.mem_cons, false_and, exists_false, or_false, exists_eq_or_imp, ← or_assoc]
    cases howner : owners.lookup (Binding.moduleName c.name) with
    | some owner =>
      have hsame : Binding.moduleName c.name = Binding.moduleName name →
          owners.lookup (Binding.moduleName name) ≠ none := by
        intro heq
        simp [← heq, howner]
      rw [refused_of_taken howner]
      simp only [List.mem_cons, exists_eq_or_imp, ih, or_iff_left_of_imp hsame]
      refine or_congr_left ⟨fun h => ?_, fun h => h.1⟩
      exact ⟨h, hsame (congrArg Binding.moduleName h)⟩
    | none =>
      have hnot : ¬ (c.name = name ∧ owners.lookup (Binding.moduleName name) ≠ none) := by
        rintro ⟨rfl, h⟩
        exact h howner
      have htaken : ((Binding.moduleName c.name, c.name) :: owners).lookup (Binding.moduleName name) ≠ none ↔
          owners.lookup (Binding.moduleName name) ≠ none ∨ Binding.moduleName c.name = Binding.moduleName name := by
        rw [lookup_cons_ite]
        by_cases heq : Binding.moduleName name = Binding.moduleName c.name
        · simp [heq]
        · simp [heq, Ne.symm heq]
      rw [refused_of_free howner, ih, htaken, or_iff_right hnot]

/-! ## Entries of a report -/

theorem length_entries (told : List (Candidate × Option Fault)) :
    (told.filterMap g.writtenEntry).length + (told.filterMap failedEntry).length = told.length := by
  induction told with
  | nil => rfl
  | cons x rest ih =>
    obtain ⟨c, fault⟩ := x
    cases fault <;> simp only [List.filterMap_cons, writtenEntry, failedEntry, List.length_cons] <;> omega

theorem of_mem_failedEntry {told : List (Candidate × Option Fault)} {f : Failure} (h : f ∈ told.filterMap failedEntry) :
    ∃ c ∈ told.map (·.1), f.source = c.source ∧ f.service = c.name := by
  obtain ⟨⟨c, fault⟩, hx, heq⟩ := List.mem_filterMap.mp h
  cases fault with
  | none => cases heq
  | some fault =>
    obtain rfl := Option.some.inj heq
    exact ⟨c, List.mem_map.mpr ⟨_, hx, rfl⟩, rfl, rfl⟩

theorem writeIndex_services {s : System} {report last : Report} {setbacks : Setbacks}
    (h : (g.writeIndex s report setbacks).report = some last) : last.services = report.services := by
  have hend := writeIndex_end (g := g) s report setbacks
  generalize g.writeIndex s report setbacks = run at hend h
  cases hend with
  | skipped => exact Option.some.inj h ▸ rfl
  | unrendered => cases h
  | unwritten => cases h
  | written => exact Option.some.inj h ▸ rfl

section

variable {arrange : List Job → List Job} {files : System} {signal : Signal} {setbacks : Setbacks} {report : Report}
  {paths : List Text}

theorem filter_named_unloaded : (paths.filterMap (unloaded? files)).filter (fun f => f.service ≠ []) = [] := by
  apply List.filter_eq_nil_iff.mpr
  intro f hf
  simp [(mem_filterMap_unloaded? hf).1]

theorem services_add_refused (h : (g.generateIn arrange files signal paths setbacks).report = some report) :
    report.services +
        ((g.plan (paths.filterMap (loaded? files))).refused.filter fun f => f.service = []).length =
      (candidates (paths.filterMap (loaded? files))).length := by
  obtain ⟨next, -, hrun⟩ := generateIn_reported h
  obtain ⟨ready, -, -, -, last, hlast, rfl⟩ := runDocuments_reported hrun
  change last.services + _ = _
  have hplan := length_planFrom (g := g) (candidates (paths.filterMap (loaded? files))) []
  have hsplit := List.length_eq_length_filter_add (fun f : Failure => decide (f.service = []))
    (l := (g.plan (paths.filterMap (loaded? files))).refused)
  rw [writeIndex_services hlast, reportOn, List.filter_append, filter_named_unloaded, List.nil_append, ← hplan]
  simp only [ne_eq, decide_not, plan] at hsplit ⊢
  omega

/-- A report has one entry for each service of the loaded files, beside those of the files that could not be loaded. Its
counter misses the services without a name that find their module taken, and it is right if there are none. If all
services have names, the named failures are those of services. -/
theorem generateIn_counted (harrange : ∀ jobs, (arrange jobs).Perm jobs)
    (h : (g.generateIn arrange files signal paths setbacks).report = some report) :
    let documents := paths.filterMap (loaded? files)
    let total := (documents.map fun d => d.services.size).sum
    ∃ services : List Failure, report.failed.Perm (paths.filterMap (unloaded? files) ++ services) ∧
      (∀ f ∈ services, ∃ c ∈ candidates documents, f.source = c.source ∧ f.service = c.name) ∧
      report.written.length + services.length = total ∧
      report.services + ((g.plan documents).refused.filter fun f => f.service = []).length = total ∧
      (report.services = total ↔ ∀ before c after, candidates documents = before ++ c :: after → c.name = [] →
        ∀ d ∈ before, Binding.moduleName d.name ≠ Binding.moduleName c.name) ∧
      ((∀ d ∈ documents, [] ∉ d.services.keys) →
        report.services = report.written.length + (report.failed.filter fun f => f.service ≠ []).length) := by
  intro documents total
  obtain ⟨next, -, hrun⟩ := generateIn_reported h
  obtain ⟨told, htold, haccounts⟩ := runDocuments_accounts harrange (fun d hd => (mem_filterMap_loaded? hd).2) hrun
  have htotal : (candidates documents).length = total := length_candidates documents
  have hservices : report.services + ((g.plan documents).refused.filter fun f => f.service = []).length = total := by
    rw [← htotal]
    exact services_add_refused h
  have hentries : report.written.length + (told.filterMap failedEntry).length = total := by
    rw [haccounts.written.length_eq, length_entries, ← htotal, ← htold, List.length_map]
  have hfailures : ∀ f ∈ told.filterMap failedEntry,
      ∃ c ∈ candidates documents, f.source = c.source ∧ f.service = c.name := by
    intro f hf
    rw [← htold]
    exact of_mem_failedEntry hf
  have hexact : report.services = total ↔ ∀ before c after, candidates documents = before ++ c :: after → c.name = [] →
      ∀ d ∈ before, Binding.moduleName d.name ≠ Binding.moduleName c.name := by
    have hnone : report.services = total ↔ ¬ ∃ f ∈ (g.plan documents).refused, f.service = [] := by
      have hzero : report.services = total ↔ ((g.plan documents).refused.filter fun f => f.service = []).length = 0 := by
        omega
      rw [hzero, List.length_eq_zero_iff, List.filter_eq_nil_iff]
      simp
    rw [hnone, plan, exists_refused_iff]
    constructor
    · intro hnot before c after heq hname d hd hsame
      exact hnot ⟨before, c, after, heq, hname, .inr ⟨d, hd, hname ▸ hsame⟩⟩
    · rintro hall ⟨before, c, after, heq, hname, htaken | ⟨d, hd, hsame⟩⟩
      · exact htaken rfl
      · exact hall before c after heq hname d hd (hname.symm ▸ hsame)
  refine ⟨_, haccounts.failed, hfailures, hentries, hservices, hexact, fun hnames => ?_⟩
  have hnamed : ∀ c ∈ candidates documents, c.name ≠ [] := by
    intro c hc
    obtain ⟨d, hd, hc⟩ := List.mem_flatMap.mp hc
    obtain ⟨e, he, rfl⟩ := List.mem_map.mp hc
    intro hnil
    exact hnames d hd (hnil ▸ List.mem_map.mpr ⟨e, he, rfl⟩)
  have hall : (told.filterMap failedEntry).filter (fun f => f.service ≠ []) = told.filterMap failedEntry := by
    apply List.filter_eq_self.mpr
    intro f hf
    obtain ⟨c, hc, -, hname⟩ := hfailures f hf
    simpa [hname] using hnamed c hc
  rw [(haccounts.failed.filter _).length_eq, List.filter_append, filter_named_unloaded, List.nil_append, hall, hentries]
  apply hexact.mpr
  intro before c after heq hname
  exact absurd hname (hnamed c (heq ▸ List.mem_append_right before List.mem_cons_self))

end

theorem generateIn_counted_wharf :
    ∃ report, ((plain "gen" false).generateIn List.reverse wharfFiles .never wharfPaths).report = some report ∧
      report.services = 2 ∧ report.written.length = 1 ∧ (report.failed.filter fun f => f.service ≠ []).length = 1 := by
  have hran : ((plain "gen" false).generateIn List.reverse wharfFiles .never wharfPaths).report.map (·.written) =
      some [⟨"TugBoat", "tug_boat", "gen/tug_boat.rs"⟩] := by decide +kernel
  have hsizes : (wharfPaths.filterMap (loaded? wharfFiles)).map (fun d => d.services.size) = [1, 1] := by decide +kernel
  have hnames : ∀ d ∈ wharfPaths.filterMap (loaded? wharfFiles), [] ∉ d.services.keys := by decide +kernel
  have hnone : (((plain "gen" false).plan (wharfPaths.filterMap (loaded? wharfFiles))).refused.filter
      fun f => f.service = []).length = 0 := by decide +kernel
  obtain ⟨report, hreport, hwritten⟩ := Option.map_eq_some_iff.mp hran
  obtain ⟨-, -, -, -, htotal, -, hnamed⟩ := generateIn_counted List.reverse_perm hreport
  rw [hnone, hsizes] at htotal
  have hcount : report.services = 2 := htotal
  have hlength : report.written.length = 1 := by rw [hwritten]; rfl
  have hsum := hnamed hnames
  refine ⟨report, hreport, hcount, hlength, ?_⟩
  omega

def buoyFiles : System where
  tree := ⟨[(["a.json"], .file (declaring ""))]⟩
  cwd := []

/-- The second of two services without a name is refused, and no one counts it. -/
theorem generateIn_uncounted_buoy :
    ∃ report, ((plain "gen" false).generateIn id buoyFiles .never ["a.json", "a.json"]).report = some report ∧
      report.services = 1 ∧ report.written.length + report.failed.length = 2 ∧
      (([Text.ofString "a.json", "a.json"].filterMap (loaded? buoyFiles)).map fun d => d.services.size) = [1, 1] := by
  have hreport : ((plain "gen" false).generateIn id buoyFiles .never ["a.json", "a.json"]).report =
      some ⟨2, 1, [⟨"", "", "gen/.rs"⟩], [⟨"a.json", "", takenModule "" ""⟩], []⟩ := by decide +kernel
  exact ⟨_, hreport, rfl, rfl, by decide +kernel⟩

end Generator

end RpcBindings.Generate
