import Mathlib.Data.List.Basic
import RpcBindings.Binding.Context
import RpcBindings.Proofs.Naming
import RpcBindings.Proofs.Partition
import RpcBindings.Proofs.Resolve

/-!
# References of a service and of its context

The dependencies of a service are found by a work list over the types of its procedures, those of a rendered function by
resolving its types. Both are the references to other services at any depth, so they agree but for the receivers of
methods, which no function shows. The module of a reference is what stands in front of its first two colons.
-/

namespace RpcBindings

namespace DataType

mutual

def isComplete : DataType → Bool
  | missing => false
  | primitive _ => true
  | message _ => true
  | container _ elements => allComplete elements
  | reference _ _ _ => true

def allComplete : List DataType → Bool
  | [] => true
  | t :: ts => isComplete t && allComplete ts

end

theorem allComplete_eq (ts : List DataType) : allComplete ts = ts.all isComplete := by
  induction ts with
  | nil => rfl
  | cons t ts ih => simp [allComplete, ih]

end DataType

/-- A type is that of a parameter or of the result. -/
def Procedure.Mentions (p : Procedure) (t : DataType) : Prop := (∃ q ∈ p.parameters, q.type = t) ∨ p.result = some t

namespace Binding

namespace Dependencies

def collectEach (own : Text) (deps : Dependencies) (refs : List (Text × Text)) : Dependencies :=
  refs.foldl (fun d r => d.collect own r.1 r.2) deps

/-- The work list leads to every reference at any depth, unless it meets a missing node. -/
theorem collectAll_eq (own : Text) (deps : Dependencies) (work : List DataType) :
    collectAll own deps work =
      if work.all DataType.isComplete then .ok (collectEach own deps (work.flatMap DataType.references))
      else .error .missing := by
  fun_induction collectAll own deps work with
  | case1 deps => rfl
  | case2 deps rest => simp [DataType.isComplete]
  | case3 deps code rest ih => simpa [DataType.isComplete, DataType.references] using ih
  | case4 deps code rest ih => simpa [DataType.isComplete, DataType.references] using ih
  | case5 deps shape elements rest ih =>
    rw [ih]
    simp [DataType.isComplete, DataType.allComplete_eq, DataType.references, DataType.referencesAll_eq]
  | case6 deps r service name rest ih =>
    rw [ih]
    simp [DataType.isComplete, DataType.references, collectEach]

theorem collect_eq (own : Text) (deps : Dependencies) (r : Text × Text) :
    deps.collect own r.1 r.2 =
      if DataType.isForeign own r then ⟨deps.names.add (qualify r.1 r.2), deps.modules.add (moduleName r.1)⟩
      else deps := by
  by_cases hown : r.1 = own
  · simp [collect, DataType.isForeign, hown]
  · by_cases hservice : r.1 = []
    · simp [collect, DataType.isForeign, hservice]
    · by_cases hname : r.2 = []
      · simp [collect, DataType.isForeign, hname]
      · simp [collect, DataType.isForeign, hown, hservice, hname]

theorem collectEach_eq (own : Text) (deps : Dependencies) (refs : List (Text × Text)) :
    collectEach own deps refs =
      ⟨addAll deps.names ((refs.filter (DataType.isForeign own)).map fun r => qualify r.1 r.2),
       addAll deps.modules ((refs.filter (DataType.isForeign own)).map fun r => moduleName r.1)⟩ := by
  induction refs generalizing deps with
  | nil => rfl
  | cons r refs ih =>
    change collectEach own (deps.collect own r.1 r.2) refs = _
    rw [ih, collect_eq]
    by_cases hr : DataType.isForeign own r = true
    · rw [if_pos hr, List.filter_cons_of_pos hr]
      rfl
    · rw [if_neg hr, List.filter_cons_of_neg hr]

end Dependencies

theorem mem_signatureTypes {p : Procedure} {t : DataType} : t ∈ signatureTypes p ↔ p.Mentions t := by
  simp [signatureTypes, Procedure.Mentions]

def signatureReferences (entries : List (Text × Procedure)) : List (Text × Text) :=
  entries.flatMap fun e => (signatureTypes e.2).flatMap DataType.references

theorem foldlM_collectAll {own : Text} {entries : List (Text × Procedure)} : ∀ {deps deps' : Dependencies},
    entries.foldlM (fun deps e =>
      (Dependencies.collectAll own deps (signatureTypes e.2)).mapError fun cause => (⟨e.1, cause⟩ : DependencyFault))
      deps = .ok deps' →
    deps' = Dependencies.collectEach own deps (signatureReferences entries) := by
  induction entries with
  | nil =>
    intro deps deps' h
    cases h
    rfl
  | cons e rest ih =>
    intro deps deps' h
    rw [List.foldlM_cons] at h
    obtain ⟨deps₁, hstep, hrest⟩ := bind_eq_ok.mp h
    rw [mapError_eq_ok, Dependencies.collectAll_eq] at hstep
    split at hstep
    next =>
      cases hstep
      rw [ih hrest]
      simp [Dependencies.collectEach, signatureReferences]
    next => cases hstep

theorem mem_signatureReferences {entries : List (Text × Procedure)} {r : Text × Text} :
    r ∈ signatureReferences entries ↔ ∃ e ∈ entries, ∃ t ∈ signatureTypes e.2, r ∈ t.references := by
  simp [signatureReferences]

theorem dependencies_ok {s : Service} {deps : Dependencies} (h : dependencies s = .ok deps) :
    (∀ q, q ∈ deps.names.keys ↔
      ∃ r ∈ signatureReferences s.procedures.entries, DataType.isForeign s.name r = true ∧ qualify r.1 r.2 = q) ∧
    ∀ m, m ∈ deps.modules.keys ↔
      ∃ r ∈ signatureReferences s.procedures.entries, DataType.isForeign s.name r = true ∧ moduleName r.1 = m := by
  rw [foldlM_collectAll h, Dependencies.collectEach_eq]
  simp [mem_keys_addAll, Dependencies.none, and_assoc]

theorem exists_dependencies_iff {s : Service} :
    (∃ deps, dependencies s = .ok deps) ↔
      ∀ e ∈ s.procedures.entries, (signatureTypes e.2).all DataType.isComplete = true := by
  constructor
  · rintro ⟨deps, h⟩ e he
    obtain ⟨b, b', hstep⟩ := step_of_foldlM h e he
    rw [mapError_eq_ok, Dependencies.collectAll_eq] at hstep
    split at hstep
    next hall => exact hall
    next => cases hstep
  · intro h
    refine exists_foldlM (fun deps e he => ?_) Dependencies.none
    rw [Dependencies.collectAll_eq, if_pos (h e he)]
    exact ⟨_, rfl⟩

theorem mem_foreignNames {own : Text} {t : DataType} {q : Text} :
    q ∈ t.foreignNames own ↔ ∃ r ∈ t.references, DataType.isForeign own r = true ∧ qualify r.1 r.2 = q := by
  simp [DataType.foreignNames, and_assoc]

/-! ## Modules of references -/

def modulePrefix : Text → Text
  | [] => []
  | 58 :: 58 :: _ => []
  | b :: rest => b :: modulePrefix rest

theorem modulePrefix_append {lead rest : Text} (h : 58 ∉ lead) : modulePrefix (lead ++ 58 :: 58 :: rest) = lead := by
  induction lead with
  | nil => rfl
  | cons b lead ih =>
    have hb : b ≠ 58 := fun hb => h (hb ▸ List.mem_cons_self)
    rw [List.cons_append, modulePrefix, ih fun hin => h (List.mem_cons_of_mem b hin)]
    intro r heq
    exact absurd heq hb

theorem modulePrefix_qualify (service name : Text) : modulePrefix (qualify service name) = moduleName service := by
  rw [qualify, List.append_assoc]
  exact modulePrefix_append (Naming.not_mem_snakeCase (by decide) service)

/-! ## The types that a context shows -/

def Signature.typeRefs (f : Signature) : List TypeRef := f.params.map (·.type) ++ f.result.toList.map (·.type)

def Context.typeRefs (c : Context) : List TypeRef :=
  (c.classes.flatMap (·.methods) ++ c.procedures).flatMap Signature.typeRefs

def shownTypes (place : Place) (d : Procedure) : List DataType :=
  (if place.isMethod then d.parameters.tail else d.parameters).map (·.type) ++ d.result.toList

theorem exists_of_mem_left {α β : Type} {R : α → β → Prop} {as : List α} {bs : List β} (h : List.Forall₂ R as bs)
    {a : α} (ha : a ∈ as) : ∃ b ∈ bs, R a b := by
  induction h with
  | nil => cases ha
  | cons hab _ ih =>
    rcases List.mem_cons.mp ha with rfl | ha
    · exact ⟨_, List.mem_cons_self, hab⟩
    · obtain ⟨b, hb, hr⟩ := ih ha
      exact ⟨b, List.mem_cons_of_mem _ hb, hr⟩

theorem describes_types {own : Text} {n : Nat} {ps : List Parameter} {qs : List Param}
    (h : List.Forall₂ (Param.Describes own) qs (ps.zipIdx n)) :
    List.Forall₂ (fun r t => resolve own t = .ok r) (qs.map (·.type)) (ps.map (·.type)) := by
  induction ps generalizing n qs with
  | nil =>
    cases h
    exact .nil
  | cons p ps ih =>
    obtain ⟨q, qs, hq, hqs, rfl⟩ := List.forall₂_cons_right_iff.mp h
    exact .cons hq.2.2.2.1 (ih hqs)

theorem typeRefs_forall₂ {own : Text} {d : Procedure} {place : Place} {name : Text} {f : Signature}
    (h : buildSignature own d place name = .ok f) :
    List.Forall₂ (fun r t => resolve own t = .ok r) f.typeRefs (shownTypes place d) := by
  obtain ⟨-, -, hparams, hresult⟩ := buildSignature_ok h
  refine List.rel_append ?_ ?_
  · split at hparams
    next hmethod =>
      rw [List.tail_zipIdx] at hparams
      rw [if_pos hmethod]
      exact describes_types hparams
    next hfree =>
      rw [if_neg hfree]
      exact describes_types hparams
  · unfold buildReturn at hresult
    split at hresult
    next hnone =>
      rw [hnone, ← Except.ok.inj hresult]
      exact .nil
    next t hsome =>
      split at hresult
      next => cases hresult
      next ref href =>
        rw [hsome, ← Except.ok.inj hresult]
        exact .cons href .nil

theorem exists_shown_of_mem {own : Text} {d : Procedure} {place : Place} {name : Text} {f : Signature}
    (h : buildSignature own d place name = .ok f) {r : TypeRef} (hr : r ∈ f.typeRefs) :
    ∃ t ∈ signatureTypes d, resolve own t = .ok r := by
  obtain ⟨t, ht, hres⟩ := exists_of_mem_left (typeRefs_forall₂ h) hr
  refine ⟨t, ?_, hres⟩
  rcases List.mem_append.mp ht with ht | ht
  · refine List.mem_append_left _ ?_
    split at ht
    next => exact List.map_subset _ (List.tail_sublist _).subset ht
    next => exact ht
  · exact List.mem_append_right _ ht

theorem shown_or_receiver {own : Text} {d : Procedure} {place : Place} {name : Text} {f : Signature}
    (h : buildSignature own d place name = .ok f) {t : DataType} (ht : t ∈ signatureTypes d) :
    (∃ r ∈ f.typeRefs, resolve own t = .ok r) ∨
      place.isMethod = true ∧ ∃ receiver rest, d.parameters = receiver :: rest ∧ t = receiver.type := by
  have hshown : t ∈ shownTypes place d → ∃ r ∈ f.typeRefs, resolve own t = .ok r := fun hin =>
    exists_of_mem_left (typeRefs_forall₂ h).flip hin
  rcases List.mem_append.mp ht with ht | ht
  · by_cases hmethod : place.isMethod = true
    · cases hparams : d.parameters with
      | nil => simp [hparams] at ht
      | cons receiver rest =>
        rw [hparams, List.map_cons, List.mem_cons] at ht
        rcases ht with rfl | ht
        · exact .inr ⟨hmethod, receiver, rest, rfl, rfl⟩
        · refine .inl (hshown (List.mem_append_left _ ?_))
          simpa [hmethod, hparams] using ht
    · refine .inl (hshown (List.mem_append_left _ ?_))
      simpa [hmethod] using ht
  · exact .inl (hshown (List.mem_append_right _ ht))

/-- The references of a context to other services: each that its functions show is listed and its module imported, and
each that is listed is shown or belongs to the receiver of a method. -/
structure Context.References (s : Service) (c : Context) : Prop where
  shown : ∀ r ∈ c.typeRefs, ∀ q ∈ r.deps, q ∈ c.dependencies ∧ modulePrefix q ∈ c.imports
  imports_iff : ∀ m, m ∈ c.imports ↔ ∃ q ∈ c.dependencies, modulePrefix q = m
  dependencies_ascending : c.dependencies.Pairwise (· < ·)
  imports_ascending : c.imports.Pairwise (· < ·)
  listed : ∀ q ∈ c.dependencies, (∃ r ∈ c.typeRefs, q ∈ r.deps) ∨
    ∃ cls ∈ c.classes, ∃ f ∈ cls.methods, ∃ d receiver rest,
      s.procedures.get? (cls.name ++ "_" ++ f.name) = some d ∧ d.parameters = receiver :: rest ∧
        q ∈ receiver.type.foreignNames s.name

theorem Placed.Holds.declared {s : Service} {st : Placed} (hst : Holds s s.procedures.entries st) {f : Signature}
    (hf : f ∈ (st.partition s).signatures) {r : TypeRef} (hr : r ∈ f.typeRefs) :
    ∃ e ∈ s.procedures.entries, ∃ t ∈ signatureTypes e.2, resolve s.name t = .ok r := by
  rcases List.mem_append.mp hf with hf | hf
  · obtain ⟨cls, hcls, hf⟩ := List.mem_flatMap.mp hf
    obtain ⟨procedure, d, hd, -, hbuild⟩ := hst.method_of_mem hcls hf
    exact ⟨_, hd, exists_shown_of_mem hbuild hr⟩
  · obtain ⟨d, hd, -, hbuild⟩ := hst.free_of_mem hf
    exact ⟨_, hd, exists_shown_of_mem hbuild hr⟩

theorem Placed.Holds.shown_or_receiver {s : Service} {st : Placed} (hst : Holds s s.procedures.entries st)
    {e : Text × Procedure} (he : e ∈ s.procedures.entries) {t : DataType} (ht : t ∈ signatureTypes e.2) :
    (∃ f ∈ (st.partition s).signatures, ∃ r ∈ f.typeRefs, resolve s.name t = .ok r) ∨
      ∃ cls ∈ (st.partition s).classes, ∃ f ∈ cls.methods, ∃ receiver rest,
        e.1 = cls.name ++ "_" ++ f.name ∧ e.2.parameters = receiver :: rest ∧ t = receiver.type := by
  rcases hst.listed he with ⟨cls, hcls, f, hf, hplace, hbuild⟩ | ⟨f, hf, -, -, hbuild⟩
  · rcases Binding.shown_or_receiver hbuild ht with hshown | ⟨-, receiver, rest, hparams, htype⟩
    · exact .inl ⟨f, List.mem_append_left _ (List.mem_flatMap.mpr ⟨cls, hcls, hf⟩), hshown⟩
    · exact .inr ⟨cls, hcls, f, hf, receiver, rest, (place_eq_method_iff.mp hplace).1, hparams, htype⟩
  · rcases Binding.shown_or_receiver hbuild ht with hshown | ⟨hmethod, -⟩
    · exact .inl ⟨f, List.mem_append_right _ hf, hshown⟩
    · cases hmethod

theorem buildContext_references {s : Service} {c : Context} (h : buildContext s = .ok c) : c.References s := by
  obtain ⟨deps, hdeps, h⟩ := bind_eq_ok.mp h
  obtain ⟨parts, hparts, h⟩ := bind_eq_ok.mp h
  obtain ⟨enums, -, h⟩ := bind_eq_ok.mp h
  obtain ⟨hnames, hmodules⟩ := dependencies_ok (mapError_eq_ok.mp hdeps)
  obtain ⟨st, rfl, hst⟩ := partition_ok (mapError_eq_ok.mp hparts)
  cases h
  have himports : ∀ m, m ∈ deps.modules.keys ↔ ∃ q ∈ deps.names.keys, modulePrefix q = m := by
    intro m
    rw [hmodules]
    constructor
    · rintro ⟨r, hr, hforeign, rfl⟩
      exact ⟨_, (hnames _).mpr ⟨r, hr, hforeign, rfl⟩, modulePrefix_qualify _ _⟩
    · rintro ⟨q, hq, rfl⟩
      obtain ⟨r, hr, hforeign, rfl⟩ := (hnames q).mp hq
      exact ⟨r, hr, hforeign, (modulePrefix_qualify _ _).symm⟩
  refine ⟨fun r hr q hq => ?_, himports, deps.names.keys_ascending, deps.modules.keys_ascending, fun q hq => ?_⟩
  · obtain ⟨f, hf, hr⟩ := List.mem_flatMap.mp hr
    obtain ⟨e, he, t, ht, hres⟩ := hst.declared hf hr
    obtain ⟨ref, href, hforeign, rfl⟩ := mem_foreignNames.mp ((mem_deps_iff hres q).mp hq)
    have hlisted := (hnames _).mpr ⟨ref, mem_signatureReferences.mpr ⟨e, he, t, ht, href⟩, hforeign, rfl⟩
    exact ⟨hlisted, (himports _).mpr ⟨_, hlisted, rfl⟩⟩
  · obtain ⟨ref, href, hforeign, rfl⟩ := (hnames q).mp hq
    obtain ⟨e, he, t, ht, href⟩ := mem_signatureReferences.mp href
    have hin : qualify ref.1 ref.2 ∈ t.foreignNames s.name := mem_foreignNames.mpr ⟨ref, href, hforeign, rfl⟩
    rcases hst.shown_or_receiver he ht with ⟨f, hf, r, hr, hres⟩ | ⟨cls, hcls, f, hf, receiver, rest, hname, hps, rfl⟩
    · exact .inl ⟨r, List.mem_flatMap.mpr ⟨f, hf, hr⟩, (mem_deps_iff hres _).mpr hin⟩
    · refine .inr ⟨cls, hcls, f, hf, e.2, receiver, rest, ?_, hps, hin⟩
      rw [← hname]
      exact Dict.get?_eq_some_iff.mpr he

def railService : Service where
  name := "Rail"
  id := 1
  documentation := []
  procedures := .ofList
    [("Car_Tow", ⟨"Car_Tow", 1, [],
       [⟨"this", .container .list [.reference .object "Map" "Node"]⟩,
        ⟨"by", .container .tuple [.reference .object "SpaceCenter" "Vessel", .reference .object "Rail" "Car"]⟩],
       none, false⟩),
     ("Find", ⟨"Find", 2, [], [], some (.reference .enumeration "Space_Center" "Mode"), false⟩)]
  classes := .ofList [("Car", ⟨"Car", []⟩)]
  enumerations := .empty

theorem buildContext_references_rail :
    ∃ c, buildContext railService = .ok c ∧ c.imports = ["map", "space_center"].map Text.ofString ∧
      c.dependencies = ["map::Node", "space_center::Mode", "space_center::Vessel"].map Text.ofString ∧
      c.References railService := by
  have hbuilt : (buildContext railService).toOption.map (fun c => (c.imports, c.dependencies)) =
      some (["map", "space_center"].map Text.ofString,
        ["map::Node", "space_center::Mode", "space_center::Vessel"].map Text.ofString) := by
    decide +kernel
  cases h : buildContext railService with
  | error fault =>
    rw [h] at hbuilt
    cases hbuilt
  | ok c =>
    rw [h] at hbuilt
    obtain ⟨himports, hdeps⟩ := Prod.mk.inj (Option.some.inj hbuilt)
    exact ⟨c, rfl, himports, hdeps, buildContext_references h⟩

end Binding

end RpcBindings
