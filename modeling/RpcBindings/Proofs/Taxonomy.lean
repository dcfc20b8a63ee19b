import RpcBindings.Proofs.Categories
import RpcBindings.Proofs.Index
import RpcBindings.Proofs.WorkList

/-!
# The category of a failure

What can go wrong in a run belongs to one of five categories. Each place where a fault arises marks it once, and what is
said around it later changes nothing. One place leaves the mark out: a service that finds its module taken is refused
with a fault of no category.
-/

namespace RpcBindings

def Category.taxonomy : List Category := [.io, .parse, .malformedType, .malformedEnum, .render]

namespace Fault

inductive Around (cause : Fault) : Fault → Prop
  | refl : Around cause cause
  | within {f : Fault} (context : Text) (h : Around cause f) : Around cause (.within context f)
  | hinted {f : Fault} (hint : Text) (h : Around cause f) : Around cause (.hinted hint f)
  | detailed {f : Fault} (detail : Text) (h : Around cause f) : Around cause (.detailed detail f)
  | located {f : Fault} (part : Text) (h : Around cause f) : Around cause (.located part f)

theorem Around.is_eq {cause f : Fault} (h : cause.Around f) (c : Category) : f.is c = cause.is c := by
  induction h with
  | refl => rfl
  | within context _ ih => exact ih
  | hinted hint _ ih => exact ih
  | detailed detail _ ih => exact ih
  | located part _ ih => exact ih

/-- A fault belongs to just one category, and it is one of those of a run. -/
def Classified (f : Fault) : Prop := ∃ c ∈ Category.taxonomy, f.Only c

theorem Classified.existsUnique {f : Fault} (h : f.Classified) : ∃! c, c ∈ Category.taxonomy ∧ f.is c = true := by
  obtain ⟨c, hc, honly⟩ := h
  exact ⟨c, ⟨hc, (honly c).mpr rfl⟩, fun c' hc' => (honly c').mp hc'.2⟩

end Fault

/-! ## Documents -/

theorem DecodeFault.classified (f : DecodeFault) : f.fault.Classified := by
  induction f with
  | invalid => exact ⟨.parse, by decide, Fault.only_hinted (Fault.only_marked .parse fun _ => rfl)⟩
  | nullDocument =>
    refine ⟨.parse, by decide, ?_⟩
    rw [fault, ← List.append_nil (Text.ofString "service file is null")]
    exact Fault.only_ofParse (fun c => by cases c <;> decide) []
  | nullDefinition =>
    refine ⟨.parse, by decide, ?_⟩
    rw [fault, ← List.append_nil (Text.ofString "definition is null")]
    exact Fault.only_ofParse (fun c => by cases c <;> decide) []
  | noField name => exact ⟨.parse, by decide, Fault.only_ofParse (fun c => by cases c <;> decide) _⟩
  | nullParameter index =>
    refine ⟨.parse, by decide, ?_⟩
    rw [fault, List.append_assoc]
    exact Fault.only_ofParse (fun c => by cases c <;> decide) _
  | nullMember index =>
    refine ⟨.parse, by decide, ?_⟩
    rw [fault, List.append_assoc]
    exact Fault.only_ofParse (fun c => by cases c <;> decide) _
  | nullClass name =>
    refine ⟨.parse, by decide, ?_⟩
    rw [fault, List.append_assoc]
    exact Fault.only_ofParse (fun c => by cases c <;> decide) _
  | repeatedMember name =>
    exact ⟨.malformedEnum, by decide, Fault.only_marked _ (Fault.is_plain (fun c => by cases c <;> decide) _)⟩
  | type cause => exact ⟨.malformedType, by decide, cause.only_fault⟩
  | within context cause ih => exact ih

theorem Document.classified_of_load {files : Files.System} {path : Text} {f : Fault} (h : load files path = .error f) :
    f.Classified := by
  unfold load at h
  split at h
  next =>
    obtain rfl := Except.error.inj h
    exact ⟨.io, by decide, Fault.only_ofIo _ fun _ => rfl⟩
  next =>
    split at h
    next fault _ =>
      obtain rfl := Except.error.inj h
      obtain ⟨c, hc, honly⟩ := fault.classified
      exact ⟨c, hc, Fault.only_wrap _ honly⟩
    next => cases h

/-! ## Services -/

namespace Binding

theorem classified_of_buildContext {s : Service} {f : Fault} (h : buildContext s = .error f) : f.Classified := by
  rcases bind_eq_error.mp h with hdeps | ⟨deps, -, h⟩
  · obtain ⟨cause, -, rfl⟩ := mapError_eq_error.mp hdeps
    exact ⟨.malformedType, by decide, cause.only_fault⟩
  rcases bind_eq_error.mp h with hparts | ⟨parts, -, h⟩
  · obtain ⟨cause, -, rfl⟩ := mapError_eq_error.mp hparts
    exact ⟨.malformedType, by decide, cause.only_fault⟩
  rcases bind_eq_error.mp h with henums | ⟨enums, -, h⟩
  · obtain ⟨cause, -, rfl⟩ := mapError_eq_error.mp henums
    exact ⟨.malformedEnum, by decide, cause.only_fault⟩
  · cases h

end Binding

namespace Render

theorem guarded_quoted (name : Text) : ∃ rest, Text.guarded (Text.quoted name) = 34 :: rest := by
  have hquoted : ∃ rest, Text.maskAngles (Text.quoted name) = 34 :: rest := ⟨_, by rw [Text.quoted, Text.quotedAs]; rfl⟩
  obtain ⟨rest, hrest⟩ := hquoted
  unfold Text.guarded
  split
  · exact ⟨rest ++ [63], by rw [hrest, List.cons_append]⟩
  · exact ⟨rest, hrest⟩

theorem only_of_execute {r : Renderer} {name : Text} {v : Template.Value} {f : Fault} (h : r.execute name v = .error f) :
    f.Only .render := by
  unfold Renderer.execute at h
  split at h
  next =>
    obtain ⟨cause, -, rfl⟩ := mapError_eq_error.mp h
    exact Fault.only_marked .render fun _ => rfl
  next =>
    obtain rfl := Except.error.inj h
    obtain ⟨rest, hrest⟩ := guarded_quoted name
    -- the quotation mark sets the words apart from those of the category, which begin alike
    have hwords : Text.ofString "template " ++ Text.guarded (Text.quoted name) ++ Text.ofString " not found" =
        Text.ofString "template \"" ++ (rest ++ Text.ofString " not found") := by
      rw [hrest]
      rfl
    rw [hwords]
    exact Fault.only_marked .render (Fault.is_plain (fun c => by cases c <;> decide) _)

end Render

namespace Generate

open Files

theorem only_of_writeWhole {files : System} {path content : Text} {setback : Option Setback} {f : Fault}
    (h : (writeWhole files path content setback).fault = some f) : f.Only .io := by
  unfold writeWhole at h
  simp only at h
  split at h
  next => exact Option.some.inj h ▸ Fault.only_ofIo _ fun _ => rfl
  next =>
    cases setback with
    | some s => exact Option.some.inj h ▸ Fault.only_ofIo _ fun _ => rfl
    | none =>
      simp only at h
      split at h
      next => cases h
      next => exact Option.some.inj h ▸ Fault.only_ofIo _ fun _ => rfl

theorem is_takenModule (module owner : Text) (c : Category) : (takenModule module owner).is c = false := by
  simp only [takenModule, List.append_assoc]
  exact Fault.is_plain (fun c => by cases c <;> decide) _ c

namespace Generator

variable {g : Generator}

theorem classified_of_renderService {s : Service} {source : Text} {f : Fault}
    (h : g.renderService s source = .error f) : f.Classified := by
  rcases bind_eq_error.mp h with hcontext | ⟨c, -, hservice⟩
  · unfold context at hcontext
    split at hcontext
    next cause hcause =>
      obtain rfl := Except.error.inj hcontext
      obtain ⟨c, hc, honly⟩ := Binding.classified_of_buildContext hcause
      exact ⟨c, hc, Fault.only_within honly⟩
    next => cases hcontext
  · obtain ⟨cause, hcause, rfl⟩ := mapError_eq_error.mp hservice
    exact ⟨.render, by decide, Fault.only_within (Render.only_of_execute hcause)⟩

theorem classified_of_perform {s : System} {j : Job} {setbacks : Setbacks} {f : Fault}
    (h : (g.perform s j setbacks).fault = some f) : f.Classified := by
  unfold perform at h
  simp only at h
  split at h
  next cause hcause => exact Option.some.inj h ▸ classified_of_renderService hcause
  next content _ =>
    rcases hattempt : writeWhole s j.path content (setbacks j.path) with ⟨files, _ | cause⟩
    · rw [hattempt] at h
      cases h
    · rw [hattempt] at h
      obtain rfl := Option.some.inj h
      exact ⟨.io, by decide, only_of_writeWhole (congrArg Attempt.fault hattempt)⟩

theorem classified_of_performAll {setbacks : Setbacks} {module : Text} {f : Fault} (jobs : List Job) :
    ∀ {s : System} {signal : Signal}, (module, some f) ∈ (g.performAll s signal jobs setbacks).results →
      f.Classified := by
  induction jobs with
  | nil =>
    intro s signal h
    cases h
  | cons j rest ih =>
    intro s signal h
    rw [performAll] at h
    split at h
    next => cases h
    next next _ =>
      rcases List.mem_cons.mp h with heq | h
      · exact classified_of_perform (Prod.mk.inj heq).2.symm
      · exact ih h

theorem classified_of_failedJobs {results : List (Text × Option Fault)} {jobs : List Job} {f : Failure}
    (hresults : ∀ module fault, (module, some fault) ∈ results → fault.Classified) (h : f ∈ failedJobs results jobs) :
    f.fault.Classified := by
  obtain ⟨j, -, hj⟩ := List.mem_filterMap.mp h
  split at hj
  next fault hlookup => exact Option.some.inj hj ▸ hresults j.module fault (mem_of_lookup hlookup)
  next => cases hj

theorem fault_of_refused {f : Failure} (cs : List Candidate) : ∀ {owners : List (Text × Text)},
    f ∈ (g.planFrom owners cs).refused → ∃ module owner, f.fault = takenModule module owner := by
  induction cs with
  | nil =>
    intro owners h
    cases h
  | cons c rest ih =>
    intro owners h
    cases howner : owners.lookup (Binding.moduleName c.name) with
    | some owner =>
      rw [refused_of_taken howner] at h
      rcases List.mem_cons.mp h with rfl | h
      · exact ⟨_, owner, rfl⟩
      · exact ih h
    | none =>
      rw [refused_of_free howner] at h
      exact ih h

theorem refused_eq_nil_iff (documents : List Document) :
    (g.plan documents).refused = [] ↔ ((candidates documents).map fun c => Binding.moduleName c.name).Nodup := by
  constructor
  · intro h
    exact (plan_of_refused h).2
  · intro h
    rw [plan, planFrom_of_nodup _ (fun _ _ => rfl) h]

section

variable {arrange : List Job → List Job} {files : System} {signal : Signal} {paths : List Text} {setbacks : Setbacks}
  {report : Report}

theorem mem_failed_iff (h : (g.generateIn arrange files signal paths setbacks).report = some report) :
    ∃ jobs : List Failure, (∀ f ∈ jobs, f.fault.Classified) ∧ ∀ f, f ∈ report.failed ↔
      f ∈ paths.filterMap (unloaded? files) ∨ f ∈ (g.plan (paths.filterMap (loaded? files))).refused ∨ f ∈ jobs := by
  obtain ⟨next, -, hrun⟩ := generateIn_reported h
  obtain ⟨ready, -, -, -, last, hlast, rfl⟩ := runDocuments_reported hrun
  have hfailed := (writeIndex_lists hlast).2
  generalize hbatch : g.performAll ready next (arrange _) setbacks = batch at hfailed
  refine ⟨failedJobs batch.results (g.plan (paths.filterMap (loaded? files))).jobs,
    fun f => classified_of_failedJobs ?_, fun f => ?_⟩
  · intro module fault hin
    exact classified_of_performAll _ (hbatch ▸ hin)
  · change f ∈ last.failed ↔ _
    rw [hfailed, reportOn, List.mem_mergeSort, List.append_assoc, List.mem_append, List.mem_append]

/-- Every failure that a run reports, whatever is said around it, belongs to exactly one of the five categories, unless
it is the refusal of a service that finds its module taken. A refusal belongs to none. So all failures have their
category exactly if the services have different modules. -/
theorem generateIn_classified (h : (g.generateIn arrange files signal paths setbacks).report = some report) :
    (∀ f ∈ report.failed, ∀ e, f.fault.Around e →
      ((∃! c, c ∈ Category.taxonomy ∧ e.is c = true) ↔ f ∉ (g.plan (paths.filterMap (loaded? files))).refused) ∧
      (f ∈ (g.plan (paths.filterMap (loaded? files))).refused → ∀ c, e.is c = false)) ∧
    ((∀ f ∈ report.failed, ∃! c, c ∈ Category.taxonomy ∧ f.fault.is c = true) ↔
      ((candidates (paths.filterMap (loaded? files))).map fun c => Binding.moduleName c.name).Nodup) := by
  obtain ⟨jobs, hjobs, hmem⟩ := mem_failed_iff h
  have hrefused : ∀ f ∈ (g.plan (paths.filterMap (loaded? files))).refused, ∀ c, f.fault.is c = false := by
    intro f hf c
    obtain ⟨module, owner, hfault⟩ := fault_of_refused _ hf
    rw [hfault, is_takenModule]
  have hothers : ∀ f ∈ report.failed, f ∉ (g.plan (paths.filterMap (loaded? files))).refused → f.fault.Classified := by
    intro f hf hnot
    rcases (hmem f).mp hf with hunloaded | hrefuse | hjob
    · exact Document.classified_of_load (mem_filterMap_unloaded? hunloaded).2
    · exact absurd hrefuse hnot
    · exact hjobs f hjob
  have hexact : ∀ f ∈ report.failed, (∃! c, c ∈ Category.taxonomy ∧ f.fault.is c = true) ↔
      f ∉ (g.plan (paths.filterMap (loaded? files))).refused := by
    intro f hf
    constructor
    · rintro ⟨c, ⟨-, hc⟩, -⟩ hin
      rw [hrefused f hin c] at hc
      cases hc
    · intro hnot
      exact (hothers f hf hnot).existsUnique
  refine ⟨fun f hf e he => ?_, ?_⟩
  · simp only [he.is_eq]
    exact ⟨hexact f hf, hrefused f⟩
  · rw [← refused_eq_nil_iff (g := g)]
    constructor
    · intro hall
      apply List.eq_nil_iff_forall_not_mem.mpr
      intro f hf
      have hin := (hmem f).mpr (.inr (.inl hf))
      exact (hexact f hin).mp (hall f hin) hf
    · intro hnone f hf
      apply (hexact f hf).mpr
      rw [hnone]
      exact List.not_mem_nil

end

theorem generateIn_classified_marina :
    ∃ report f, (depot.generateIn id marinaFiles .never ["b.json", "a.json"]).report = some report ∧ f ∈ report.failed ∧
      f.source = "b.json" ∧ ∃! c, c ∈ Category.taxonomy ∧ f.located.is c = true := by
  have hfailed : (depot.generateIn id marinaFiles .never ["b.json", "a.json"]).report.map
      (fun r => r.failed.map (·.source)) = some [Text.ofString "b.json"] := by decide +kernel
  have hmodules : ((candidates ([Text.ofString "b.json", "a.json"].filterMap (loaded? marinaFiles))).map
      fun c => Binding.moduleName c.name).Nodup := by decide +kernel
  obtain ⟨report, hreport, hsources⟩ := Option.map_eq_some_iff.mp hfailed
  have hin : Text.ofString "b.json" ∈ report.failed.map (·.source) := by simp [hsources]
  obtain ⟨f, hf, hsource⟩ := List.mem_map.mp hin
  obtain ⟨-, hall⟩ := generateIn_classified hreport
  obtain ⟨c, hc, hunique⟩ := hall.mpr hmodules f hf
  exact ⟨report, f, hreport, hf, hsource, c, hc, hunique⟩

def berthFiles : System where
  tree := ⟨[(["a.json"], .file (declaring "TugBoat")), (["b.json"], .file (declaring "Tug_Boat"))]⟩
  cwd := []

/-- The second service for a module fails, and its failure is of no category. -/
theorem generateIn_unclassified_berth :
    ∃ report, (depot.generateIn id berthFiles .never ["a.json", "b.json"]).report = some report ∧
      report.failed.map (·.service) = ["Tug_Boat"] ∧ ∀ f ∈ report.failed, ∀ c, f.fault.is c = false := by
  have hreport : (depot.generateIn id berthFiles .never ["a.json", "b.json"]).report =
      some ⟨2, 2, [⟨"TugBoat", "tug_boat", "gen/tug_boat.rs"⟩],
        [⟨"b.json", "Tug_Boat", takenModule "tug_boat" "TugBoat"⟩], []⟩ := by decide +kernel
  refine ⟨_, hreport, rfl, fun f hf c => ?_⟩
  rw [List.mem_singleton.mp hf]
  exact is_takenModule _ _ c

end Generator

end Generate

end RpcBindings
