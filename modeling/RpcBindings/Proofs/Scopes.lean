import RpcBindings.Proofs.Acceptance
import RpcBindings.Proofs.Declarations

/-!
# Functions and their scopes

A module has a scope for each class and one for what stands free. A table remembers which functions are taken, under the
name of the class, or the empty name for what stands free. So two functions meet in the table only if they are in one
scope, unless a class has the empty name itself. What is not refused has distinct functions in every scope.
-/

namespace RpcBindings.Binding

/-- Both procedures are methods of one declared class, or both stand free. -/
def SameScope (classes : Dict ClassDecl) (x y : Text) : Prop :=
  (∃ cls m n, place classes x = .method cls m ∧ place classes y = .method cls n) ∨
    (place classes x = .free ∧ place classes y = .free)

/-- One procedure stands free, and the other is a method of the class that has the empty name. -/
def Blurred (classes : Dict ClassDecl) (x y : Text) : Prop :=
  (∃ m, place classes x = .method [] m ∧ place classes y = .free) ∨
    (∃ n, place classes x = .free ∧ place classes y = .method [] n)

def functionOf (classes : Dict ClassDecl) (procedure : Text) : Text :=
  Naming.functionName ((place classes procedure).declared procedure)

section

variable {classes : Dict ClassDecl} {x y : Text}

theorem scope_eq_iff : (place classes x).scope = (place classes y).scope ↔ SameScope classes x y ∨ Blurred classes x y := by
  unfold SameScope Blurred
  cases place classes x <;> cases place classes y <;> simp [Place.scope, eq_comm]

theorem slot_eq_iff : slot classes x = slot classes y ↔
    (SameScope classes x y ∨ Blurred classes x y) ∧ functionOf classes x = functionOf classes y := by
  rw [← scope_eq_iff, slot, slot, Prod.mk.injEq]
  rfl

theorem empty_mem_of_blurred (h : Blurred classes x y) : [] ∈ classes.keys := by
  rcases h with ⟨m, hx, -⟩ | ⟨n, -, hy⟩
  · exact (place_eq_method_iff.mp hx).2.2
  · exact (place_eq_method_iff.mp hy).2.2

end

/-! ## Reports -/

namespace Placed

variable {s : Service}

theorem step_collision {st : Placed} {procedure x y f : Text} {p : Procedure}
    (h : step s st procedure p = .error (.collision x y f)) :
    y = procedure ∧ f = functionOf s.classes procedure ∧ st.taken.lookup (slot s.classes procedure) = some x := by
  simp only [step] at h
  split at h
  next => cases h
  next =>
    split at h
    next first hlookup =>
      cases h
      exact ⟨rfl, rfl, hlookup⟩
    next =>
      split at h
      next => cases h
      next => split at h <;> cases h

theorem taken_run {todo : List (Text × Procedure)} : ∀ {st st' : Placed}, run s st todo = (st', none) →
    st'.taken = (todo.map fun e => (slot s.classes e.1, e.1)).reverse ++ st.taken := by
  induction todo with
  | nil =>
    intro st st' h
    cases h
    rfl
  | cons e rest ih =>
    intro st st' h
    rw [run] at h
    split at h
    next => cases h
    next st₁ hstep =>
      rw [ih h, taken_step hstep]
      simp

theorem run_fault {f : PartitionFault} {todo : List (Text × Procedure)} : ∀ {st st' : Placed},
    run s st todo = (st', some f) → ∃ done procedure p rest, todo = done ++ (procedure, p) :: rest ∧
      run s st done = (st', none) ∧ step s st' procedure p = .error f := by
  induction todo with
  | nil => intro st st' h; cases h
  | cons e rest ih =>
    intro st st' h
    obtain ⟨procedure, p⟩ := e
    rw [run] at h
    split at h
    next hstep =>
      cases h
      exact ⟨[], procedure, p, rest, rfl, rfl, hstep⟩
    next st₁ hstep =>
      obtain ⟨done, q, d, rest', rfl, hrun, hfault⟩ := ih h
      refine ⟨(procedure, p) :: done, q, d, rest', rfl, ?_, hfault⟩
      rw [run, hstep]
      exact hrun

end Placed

section

variable {s : Service}

theorem partition_error {f : PartitionFault} (h : partition s = .error f) :
    ∃ st, Placed.run s (Placed.start s) s.procedures.entries = (st, some f) := by
  unfold partition partitionRun at h
  split at h
  next st f' hrun =>
    cases h
    exact ⟨st, hrun⟩
  next => cases h

theorem partition_collision {x y f : Text} (h : partition s = .error (.collision x y f)) :
    x ∈ s.procedures.keys ∧ y ∈ s.procedures.keys ∧ x < y ∧ functionOf s.classes y = f ∧
      slot s.classes x = slot s.classes y := by
  obtain ⟨st, hrun⟩ := partition_error h
  obtain ⟨done, procedure, p, rest, hentries, hdone, hstep⟩ := Placed.run_fault hrun
  obtain ⟨rfl, rfl, hlookup⟩ := Placed.step_collision hstep
  have htaken := mem_of_lookup hlookup
  rw [Placed.taken_run hdone] at htaken
  obtain ⟨e, he, heq⟩ : ∃ e ∈ done, (slot s.classes e.1, e.1) = (slot s.classes y, x) := by
    simpa [Placed.start] using htaken
  obtain ⟨hslot, rfl⟩ := Prod.mk.inj heq
  have hkeys : s.procedures.keys = done.map (·.1) ++ y :: rest.map (·.1) := by
    rw [Dict.keys, hentries, List.map_append, List.map_cons]
  have hfirst : e.1 ∈ done.map (·.1) := List.mem_map_of_mem he
  have hascending := s.procedures.keys_ascending
  rw [hkeys, List.pairwise_append] at hascending
  refine ⟨?_, ?_, hascending.2.2 e.1 hfirst y List.mem_cons_self, rfl, hslot⟩
  · rw [hkeys]
    exact List.mem_append_left _ hfirst
  · rw [hkeys]
    simp

def Placeable (s : Service) (procedure : Text) (p : Procedure) : Prop :=
  ¬ Nameless s.classes procedure ∧ ∀ t ∈ shownTypes (place s.classes procedure) p, t.WellFormed

theorem exists_partition_iff_slots : (∃ p, partition s = .ok p) ↔ (∀ e ∈ s.procedures.entries, Placeable s e.1 e.2) ∧
    ∀ x ∈ s.procedures.keys, ∀ y ∈ s.procedures.keys, slot s.classes x = slot s.classes y → x = y := by
  have hfresh : ∀ e ∈ s.procedures.entries, (Placed.start s).taken.lookup (slot s.classes e.1) = none := fun _ _ => rfl
  rw [exists_partition_iff, ← run_start_iff, partitionRun, Placed.run_eq_none_iff, nodup_slots_iff, eq_true hfresh,
    and_true]
  rfl

end

/-- Two procedures are reported to generate one function only if they do and are in one scope, or if one of them stands
free and the other is a method of a class with the empty name. So a method of a class with a name never meets what stands
free. A service is accepted exactly if each procedure could be placed alone and no two such procedures generate one
function. -/
theorem partition_scopes (s : Service) :
    (∀ x y f, partition s = .error (.collision x y f) →
      x ∈ s.procedures.keys ∧ y ∈ s.procedures.keys ∧ x < y ∧ functionOf s.classes x = f ∧ functionOf s.classes y = f ∧
        (SameScope s.classes x y ∨ [] ∈ s.classes.keys ∧ Blurred s.classes x y)) ∧
    (∀ x y cls m, place s.classes x = .method cls m → cls ≠ [] → place s.classes y = .free →
      ∀ f, partition s ≠ .error (.collision x y f) ∧ partition s ≠ .error (.collision y x f)) ∧
    ((∃ p, partition s = .ok p) ↔ (∀ e ∈ s.procedures.entries, Placeable s e.1 e.2) ∧
      ∀ x ∈ s.procedures.keys, ∀ y ∈ s.procedures.keys, x ≠ y → SameScope s.classes x y ∨ Blurred s.classes x y →
        functionOf s.classes x ≠ functionOf s.classes y) := by
  refine ⟨fun x y f h => ?_, fun x y cls m hx hcls hy f => ?_, ?_⟩
  · obtain ⟨hx, hy, hlt, hf, hslot⟩ := partition_collision h
    obtain ⟨hscope, hfunction⟩ := slot_eq_iff.mp hslot
    exact ⟨hx, hy, hlt, hfunction.trans hf, hf, hscope.imp_right fun hblurred => ⟨empty_mem_of_blurred hblurred, hblurred⟩⟩
  · have hapart : slot s.classes x ≠ slot s.classes y := by
      intro heq
      rw [slot, slot, hx, hy] at heq
      exact hcls (Prod.mk.inj heq).1
    exact ⟨fun h => hapart (partition_collision h).2.2.2.2, fun h => hapart (partition_collision h).2.2.2.2.symm⟩
  · rw [exists_partition_iff_slots]
    simp only [slot_eq_iff]
    refine and_congr_right fun _ => forall₄_congr fun x _ y _ => ?_
    tauto

def voidService : Service where
  name := "Void"
  id := 1
  documentation := []
  procedures := .ofList [("Foo", ⟨"Foo", 1, [], [], none, false⟩), ("_Foo", ⟨"_Foo", 2, [], [], none, false⟩)]
  classes := .ofList [("", ⟨"", []⟩)]
  enumerations := .empty

/-- A method of the class with the empty name is refused for a function of another scope. -/
theorem partition_blurs_void :
    place voidService.classes "Foo" = .free ∧ place voidService.classes "_Foo" = .method "" "Foo" ∧
      ¬ SameScope voidService.classes "Foo" "_Foo" ∧ partition voidService = .error (.collision "Foo" "_Foo" "foo") := by
  have hfree : place voidService.classes "Foo" = .free := by decide
  have hmethod : place voidService.classes "_Foo" = .method "" "Foo" := by decide
  exact ⟨hfree, hmethod, by simp [SameScope, hfree, hmethod], rfl⟩

/-! ## Functions of a module -/

section

variable {s : Service} {c : Context}

theorem eq_of_slot_eq (h : buildContext s = .ok c) {x y : Text} (hx : x ∈ s.procedures.keys) (hy : y ∈ s.procedures.keys)
    (hslot : slot s.classes x = slot s.classes y) : x = y :=
  (exists_partition_iff_slots.mp ⟨_, (buildContext_ok h).1⟩).2 x hx y hy hslot

theorem nodup_methods (h : buildContext s = .ok c) {k : ClassMethods} (hk : k ∈ c.classes) :
    (k.methods.map fun f => Naming.functionName f.name).Nodup := by
  obtain ⟨st, hst, hholds⟩ := partition_ok (buildContext_ok h).1
  have hclasses : c.classes = (st.partition s).classes := congrArg Partition.classes hst
  rw [hclasses] at hk
  obtain ⟨ms, -, -, hkeys⟩ := hholds.methods_of_mem hk
  have hnames : (k.methods.map (·.name)).Nodup := hkeys ▸ ms.nodup_keys
  refine List.pairwise_map.mpr ((List.pairwise_map.mp hnames).imp_of_mem ?_)
  intro f g hf hg hne heq
  obtain ⟨x, p, hx, hfplace, -⟩ := hholds.method_of_mem hk hf
  obtain ⟨y, q, hy, hgplace, -⟩ := hholds.method_of_mem hk hg
  have hslot : slot s.classes x = slot s.classes y := by
    rw [slot, slot, hfplace, hgplace]
    exact Prod.ext rfl heq
  obtain rfl := eq_of_slot_eq h (List.mem_map_of_mem hx) (List.mem_map_of_mem hy) hslot
  exact hne (Place.method.inj (hfplace.symm.trans hgplace)).2

theorem nodup_procedures (h : buildContext s = .ok c) : (c.procedures.map fun f => Naming.functionName f.name).Nodup := by
  obtain ⟨st, hst, hholds⟩ := partition_ok (buildContext_ok h).1
  have hprocedures : c.procedures = (st.partition s).procedures := congrArg Partition.procedures hst
  rw [hprocedures]
  have hnames : ((st.partition s).procedures.map (·.name)).Nodup := hholds.procedures_map_name ▸ st.free.nodup_keys
  refine List.pairwise_map.mpr ((List.pairwise_map.mp hnames).imp_of_mem ?_)
  intro f g hf hg hne heq
  obtain ⟨p, hp, hfplace, -⟩ := hholds.free_of_mem hf
  obtain ⟨q, hq, hgplace, -⟩ := hholds.free_of_mem hg
  have hslot : slot s.classes f.name = slot s.classes g.name := by
    rw [slot, slot, hfplace, hgplace]
    exact Prod.ext rfl heq
  exact hne (eq_of_slot_eq h (List.mem_map_of_mem hp) (List.mem_map_of_mem hq) hslot)

end

end RpcBindings.Binding

namespace RpcBindings.Render

open Binding Template

theorem text_function (isMethod : Bool) (f : Signature) : ∃ tail, (Function.ofSignature isMethod f).text =
    commented ("\n" ++ (Function.ofSignature isMethod f).indent ++ "/// ") f.doc ++ "\n" ++
      (Function.ofSignature isMethod f).indent ++ "pub fn " ++ Naming.functionName f.name ++ "(" ++ tail := by
  simp only [Function.text, Function.opening, List.append_assoc]
  exact ⟨_, rfl⟩

/-- A module is made of the functions of its classes and of what stands free, each of which is named by the template
function `fn_name` behind its `pub fn`. In the module of a service, the functions of a class have distinct names, and so
have those that stand free. -/
theorem functions_distinct {s : Service} {c : Context} (version : Text) (h : buildContext s = .ok c) :
    (Renderer.embedded version).bind (fun r => r.service c) =
      .ok (header c.source version c.name c.doc c.imports ++ c.enums.flatMap enumBlock ++ c.classes.flatMap classBlock ++
        c.procedures.flatMap procedureBlock ++ "\n") ∧
    (∀ k : ClassMethods, classBlock k = classBlock { k with methods := [] } ++ Item.functions k) ∧
    (∀ isMethod f, callFunction? version "fn_name" [.text f.name] = some (.text (Naming.functionName f.name)) ∧
      ∃ tail, (Function.ofSignature isMethod f).text =
        commented ("\n" ++ (Function.ofSignature isMethod f).indent ++ "/// ") f.doc ++ "\n" ++
          (Function.ofSignature isMethod f).indent ++ "pub fn " ++ Naming.functionName f.name ++ "(" ++ tail) ∧
    (∀ k ∈ c.classes, (k.methods.map fun f => Naming.functionName f.name).Nodup) ∧
    (c.procedures.map fun f => Naming.functionName f.name).Nodup :=
  ⟨service_embedded version c, classBlock_eq, fun isMethod f => ⟨rfl, text_function isMethod f⟩,
    fun _ hk => nodup_methods h hk, nodup_procedures h⟩

def slipService : Service where
  name := "Slip"
  id := 1
  documentation := []
  procedures := .ofList
    [("Boat_Type", ⟨"Boat_Type", 1, [], [⟨"this", .reference .object "Slip" "Boat"⟩], some (.primitive "STRING"), false⟩),
     ("Boat_Moor", ⟨"Boat_Moor", 2, [], [], none, false⟩),
     ("Type", ⟨"Type", 3, [], [], none, false⟩),
     ("moor", ⟨"moor", 4, [], [], none, false⟩)]
  classes := .ofList [("Boat", ⟨"Boat", []⟩)]
  enumerations := .empty

theorem functions_distinct_slip :
    ∃ c k, buildContext slipService = .ok c ∧ c.classes = [k] ∧
      k.methods.map (fun f => Naming.functionName f.name) = [Text.ofString "moor", Text.ofString "r#type"] ∧
      c.procedures.map (fun f => Naming.functionName f.name) = [Text.ofString "r#type", Text.ofString "moor"] ∧
      (k.methods.map fun f => Naming.functionName f.name).Nodup ∧
      (c.procedures.map fun f => Naming.functionName f.name).Nodup := by
  have hnames : ((buildContext slipService).toOption.map fun c =>
      (c.classes.map fun k => k.methods.map fun f => Naming.functionName f.name,
        c.procedures.map fun f => Naming.functionName f.name)) =
      some ([[Text.ofString "moor", Text.ofString "r#type"]], [Text.ofString "r#type", Text.ofString "moor"]) := by
    decide +kernel
  obtain ⟨c, hc, heq⟩ := Option.map_eq_some_iff.mp hnames
  obtain ⟨hmethods, hprocedures⟩ := Prod.mk.inj heq
  obtain ⟨k, hclasses, hk⟩ := List.map_eq_singleton_iff.mp hmethods
  have hbuild := toOption_eq_some.mp hc
  obtain ⟨-, -, -, hnodup, hfree⟩ := functions_distinct "v1" hbuild
  exact ⟨c, k, hbuild, hclasses, hk, hprocedures, hnodup k (hclasses ▸ List.mem_cons_self), hfree⟩

end RpcBindings.Render
