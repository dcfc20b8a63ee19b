import RpcBindings.Proofs.Categories
import RpcBindings.Proofs.Dependencies

/-!
# Which services can be partitioned

A procedure is refused for one of three reasons: it is named like a class with nothing behind the underscore, an earlier
procedure of its scope generates the same function, or a type that its function shows has no expression. Since each
procedure that is placed takes one function of its scope, all of them are placed exactly if no procedure is refused for a
reason of its own and no two of them generate one function. The receiver of a method is not shown, so that its type is
never looked at.
-/

namespace RpcBindings

namespace Binding

/-! ## Signatures -/

theorem exists_resolve_iff (own : Text) {t : DataType} : (∃ r, resolve own t = .ok r) ↔ t.WellFormed := by
  constructor
  · rintro ⟨r, hr⟩
    exact (resolve_ok_iff.mp hr).1
  · intro hwf
    exact ⟨_, resolve_ok_iff.mpr ⟨hwf, rfl⟩⟩

theorem exists_buildParams_iff (own : Text) {ps : List Parameter} : ∀ position : Nat,
    (∃ qs, buildParams own position ps = .ok qs) ↔ ∀ p ∈ ps, p.type.WellFormed := by
  induction ps with
  | nil => simp [buildParams]
  | cons p ps ih =>
    intro position
    rw [List.forall_mem_cons, ← exists_resolve_iff own, ← ih (position + 1), buildParams]
    cases resolve own p.type with
    | error cause => simp
    | ok ref => simp [map_eq_ok]

theorem exists_buildReturn_iff (own : Text) {p : Procedure} :
    (∃ r, buildReturn own p = .ok r) ↔ ∀ t ∈ p.result.toList, t.WellFormed := by
  unfold buildReturn
  cases p.result with
  | none => simp
  | some t =>
    simp only [Option.toList_some, List.mem_singleton, forall_eq, ← exists_resolve_iff own]
    cases resolve own t <;> simp

theorem exists_buildSignature_iff (own name : Text) {p : Procedure} {place : Place} :
    (∃ sig, buildSignature own p place name = .ok sig) ↔ ∀ t ∈ shownTypes place p, t.WellFormed := by
  rw [shownTypes, List.forall_mem_append, List.forall_mem_map, ← exists_buildReturn_iff own]
  unfold buildSignature
  split
  next =>
    rw [← exists_buildParams_iff own 1]
    simp only [bind_eq_ok]
    constructor
    · rintro ⟨sig, params, hparams, result, hresult, -⟩
      exact ⟨⟨params, hparams⟩, result, hresult⟩
    · rintro ⟨⟨params, hparams⟩, result, hresult⟩
      exact ⟨_, params, hparams, result, hresult, rfl⟩
  next =>
    rw [← exists_buildParams_iff own 0]
    simp only [bind_eq_ok]
    constructor
    · rintro ⟨sig, params, hparams, result, hresult, -⟩
      exact ⟨⟨params, hparams⟩, result, hresult⟩
    · rintro ⟨⟨params, hparams⟩, result, hresult⟩
      exact ⟨_, params, hparams, result, hresult, rfl⟩

/-! ## One procedure -/

def slot (classes : Dict ClassDecl) (procedure : Text) : Text × Text :=
  ((place classes procedure).scope, Naming.functionName ((place classes procedure).declared procedure))

def Nameless (classes : Dict ClassDecl) (procedure : Text) : Prop :=
  ∃ cls ∈ classes.keys, 95 ∉ cls ∧ procedure = cls ++ "_"

theorem nameless_iff {classes : Dict ClassDecl} {procedure : Text} :
    Nameless classes procedure ↔
      (place classes procedure).isMethod = true ∧ ((place classes procedure).declared procedure).isEmpty = true := by
  have hplace : ∀ cls, place classes procedure = .method cls [] ↔
      cls ∈ classes.keys ∧ 95 ∉ cls ∧ procedure = cls ++ "_" := by
    intro cls
    rw [place_eq_method_iff, List.append_nil]
    tauto
  simp only [Nameless, ← hplace]
  cases place classes procedure with
  | free => simp [Place.isMethod]
  | method cls name => simp [Place.isMethod, Place.declared]

namespace Placed

variable {s : Service} {st : Placed} {procedure : Text} {p : Procedure}

theorem exists_step_iff : (∃ st', step s st procedure p = .ok st') ↔
    ¬ Nameless s.classes procedure ∧ st.taken.lookup (slot s.classes procedure) = none ∧
      ∀ t ∈ shownTypes (place s.classes procedure) p, t.WellFormed := by
  rw [nameless_iff, ← exists_buildSignature_iff s.name ((place s.classes procedure).declared procedure), slot]
  simp only [step]
  split
  next hempty => simp [hempty]
  next hnamed =>
    rw [eq_true hnamed, true_and]
    split
    next hlookup => simp [hlookup]
    next hlookup =>
      rw [eq_true hlookup, true_and]
      split
      next hsig => simp [hsig]
      next sig hsig =>
        rw [hsig]
        split <;> simp

theorem taken_step {st' : Placed} (h : step s st procedure p = .ok st') :
    st'.taken = (slot s.classes procedure, procedure) :: st.taken := by
  simp only [step] at h
  split at h
  next => cases h
  next =>
    split at h
    next => cases h
    next =>
      split at h
      next => cases h
      next =>
        split at h
        all_goals
          obtain rfl := Except.ok.inj h
          rfl

/-! ## All procedures -/

theorem lookup_taken_step {st' : Placed} (h : step s st procedure p = .ok st') (key : Text × Text) :
    st'.taken.lookup key = none ↔ key ≠ slot s.classes procedure ∧ st.taken.lookup key = none := by
  rw [taken_step h, lookup_cons_ite]
  by_cases hkey : key = slot s.classes procedure <;> simp [hkey]

theorem run_eq_none_iff {todo : List (Text × Procedure)} : ∀ {st : Placed}, (run s st todo).2 = none ↔
    (∀ e ∈ todo, ¬ Nameless s.classes e.1 ∧ ∀ t ∈ shownTypes (place s.classes e.1) e.2, t.WellFormed) ∧
      (todo.map fun e => slot s.classes e.1).Nodup ∧ ∀ e ∈ todo, st.taken.lookup (slot s.classes e.1) = none := by
  induction todo with
  | nil => simp [run]
  | cons e rest ih =>
    intro st
    obtain ⟨procedure, p⟩ := e
    have hstep : (∃ st', step s st procedure p = .ok st') ↔ _ := exists_step_iff
    simp only [run, List.forall_mem_cons, List.map_cons, List.nodup_cons]
    cases hresult : step s st procedure p with
    | error f =>
      have hnot : ¬ ∃ st', step s st procedure p = .ok st' := by simp [hresult]
      rw [hstep] at hnot
      simp only [reduceCtorEq, false_iff]
      tauto
    | ok st' =>
      obtain ⟨hnamed, hfree, htyped⟩ := hstep.mp ⟨st', hresult⟩
      -- a function is free for the rest if it was free before and is not the one that is taken here
      have htaken : (∀ e ∈ rest, st'.taken.lookup (slot s.classes e.1) = none) ↔
          slot s.classes procedure ∉ rest.map (fun e => slot s.classes e.1) ∧
            ∀ e ∈ rest, st.taken.lookup (slot s.classes e.1) = none := by
        simp only [lookup_taken_step hresult, List.mem_map, not_exists, not_and]
        exact forall₂_and
      simp only [ih, htaken]
      tauto

end Placed

/-- The scope of a procedure and its name there. A procedure named like a class, an underscore and a name is in the scope of
that class; any other one is in the scope without a name. -/
inductive Stands (classes : Dict ClassDecl) (procedure : Text) : Text → Text → Prop where
  | method {cls name : Text} (hcls : cls ∈ classes.keys) (hplain : 95 ∉ cls) (h : procedure = cls ++ "_" ++ name) :
      Stands classes procedure cls name
  | free (h : ∀ cls ∈ classes.keys, 95 ∉ cls → ∀ name, procedure ≠ cls ++ "_" ++ name) : Stands classes procedure [] procedure

theorem stands_iff {classes : Dict ClassDecl} {procedure scope name : Text} : Stands classes procedure scope name ↔
    scope = (place classes procedure).scope ∧ name = (place classes procedure).declared procedure := by
  cases hplace : place classes procedure with
  | method cls own =>
    obtain ⟨heq, hplain, hcls⟩ := place_eq_method_iff.mp hplace
    constructor
    · intro h
      cases h with
      | method hcls' hplain' heq' =>
        have hplace' := place_eq_method_iff.mpr ⟨heq', hplain', hcls'⟩
        rw [hplace] at hplace'
        cases hplace'
        exact ⟨rfl, rfl⟩
      | free h => exact absurd heq (h cls hcls hplain own)
    · rintro ⟨rfl, rfl⟩
      exact .method hcls hplain heq
  | free =>
    constructor
    · intro h
      cases h with
      | method hcls hplain heq =>
        rw [place_eq_method_iff.mpr ⟨heq, hplain, hcls⟩] at hplace
        cases hplace
      | free => exact ⟨rfl, rfl⟩
    · rintro ⟨rfl, rfl⟩
      refine .free fun cls hcls hplain name heq => ?_
      rw [place_eq_method_iff.mpr ⟨heq, hplain, hcls⟩] at hplace
      cases hplace

/-- What partitioning asks of a service: (a) no procedure is named like a class and an underscore, (b) procedures of one
scope generate distinct functions, (c) what is returned and what is passed, but for the receivers of methods, has a type
that can be resolved. -/
structure Accepted (s : Service) : Prop where
  named : ∀ procedure ∈ s.procedures.keys, ∀ cls ∈ s.classes.keys, 95 ∉ cls → procedure ≠ cls ++ "_"
  distinct : ∀ x ∈ s.procedures.keys, ∀ y ∈ s.procedures.keys, x ≠ y → ∀ scope name name',
    Stands s.classes x scope name → Stands s.classes y scope name' →
    Naming.identifier (Naming.snakeCase name) ≠ Naming.identifier (Naming.snakeCase name')
  returned : ∀ e ∈ s.procedures.entries, ∀ t, e.2.result = some t → ∃ r, resolve s.name t = .ok r
  passed : ∀ e ∈ s.procedures.entries,
    ∀ q ∈ if (place s.classes e.1).isMethod then e.2.parameters.tail else e.2.parameters, ∃ r, resolve s.name q.type = .ok r

theorem nodup_slots_iff {s : Service} : (s.procedures.entries.map fun e => slot s.classes e.1).Nodup ↔
    ∀ x ∈ s.procedures.keys, ∀ y ∈ s.procedures.keys, slot s.classes x = slot s.classes y → x = y := by
  have hkeys : (s.procedures.entries.map fun e => slot s.classes e.1) = s.procedures.keys.map (slot s.classes) := by
    rw [Dict.keys, List.map_map]
    rfl
  rw [hkeys, List.nodup_map_iff_inj_on s.procedures.nodup_keys]

theorem shownTypes_wellFormed_iff {s : Service} {place : Place} {p : Procedure} :
    (∀ t ∈ shownTypes place p, t.WellFormed) ↔ (∀ t, p.result = some t → ∃ r, resolve s.name t = .ok r) ∧
      ∀ q ∈ if place.isMethod then p.parameters.tail else p.parameters, ∃ r, resolve s.name q.type = .ok r := by
  simp only [shownTypes, List.forall_mem_append, List.forall_mem_map, exists_resolve_iff, Option.mem_toList]
  exact and_comm

theorem run_start_iff {s : Service} : (partitionRun s).2 = none ↔ Accepted s := by
  have hfresh : ∀ e ∈ s.procedures.entries, (Placed.start s).taken.lookup (slot s.classes e.1) = none := fun _ _ => rfl
  rw [partitionRun, Placed.run_eq_none_iff, nodup_slots_iff, eq_true hfresh, and_true]
  constructor
  · rintro ⟨hall, hdistinct⟩
    refine ⟨?_, ?_, ?_, ?_⟩
    · intro procedure hin cls hcls hplain heq
      obtain ⟨e, he, rfl⟩ := List.mem_map.mp hin
      exact (hall e he).1 ⟨cls, hcls, hplain, heq⟩
    · intro x hx y hy hne scope name name' hstands hstands' hfunction
      obtain ⟨rfl, rfl⟩ := stands_iff.mp hstands
      obtain ⟨hscope, rfl⟩ := stands_iff.mp hstands'
      exact hne (hdistinct x hx y hy (Prod.ext hscope hfunction))
    · intro e he
      exact (shownTypes_wellFormed_iff.mp (hall e he).2).1
    · intro e he
      exact (shownTypes_wellFormed_iff.mp (hall e he).2).2
  · intro h
    refine ⟨fun e he => ⟨?_, ?_⟩, ?_⟩
    · rintro ⟨cls, hcls, hplain, heq⟩
      exact h.named e.1 (List.mem_map_of_mem he) cls hcls hplain heq
    · exact shownTypes_wellFormed_iff.mpr ⟨h.returned e he, h.passed e he⟩
    · intro x hx y hy heq
      by_contra hne
      obtain ⟨hscope, hfunction⟩ := Prod.mk.inj heq
      exact h.distinct x hx y hy hne _ _ _ (stands_iff.mpr ⟨rfl, rfl⟩) (stands_iff.mpr ⟨hscope, rfl⟩) hfunction

theorem exists_partition_iff {s : Service} : (∃ p, partition s = .ok p) ↔ Accepted s := by
  rw [← run_start_iff, partition]
  split
  next st f hrun => simp [hrun]
  next st hrun => simp [hrun]

end Binding

/-! ## Receivers -/

def Procedure.withReceiver (type : DataType) (p : Procedure) : Procedure :=
  { p with parameters := p.parameters.modifyHead fun q => { q with type } }

def Service.withReceiver (procedure : Text) (type : DataType) (s : Service) : Service :=
  { s with procedures := s.procedures.map fun name p => if name = procedure then p.withReceiver type else p }

namespace Binding

theorem buildSignature_withReceiver {own name : Text} {p : Procedure} {place : Place} (type : DataType)
    (h : place.isMethod = true) : buildSignature own (p.withReceiver type) place name = buildSignature own p place name := by
  have htail : (p.withReceiver type).parameters.tail = p.parameters.tail := by
    cases hparameters : p.parameters <;> simp [Procedure.withReceiver, hparameters]
  unfold buildSignature
  rw [if_pos h, if_pos h, htail]
  rfl

theorem step_withReceiver {s : Service} {procedure : Text} (type : DataType)
    (h : (place s.classes procedure).isMethod = true) (st : Placed) (p : Procedure) :
    Placed.step s st procedure (p.withReceiver type) = Placed.step s st procedure p := by
  have hempty : (p.withReceiver type).parameters.isEmpty = p.parameters.isEmpty := by
    cases hparameters : p.parameters <;> simp [Procedure.withReceiver, hparameters]
  simp only [Placed.step, buildSignature_withReceiver type h, hempty]

theorem run_withReceiver {s : Service} {procedure : Text} (type : DataType)
    (h : (place s.classes procedure).isMethod = true) (todo : List (Text × Procedure)) : ∀ st : Placed,
    Placed.run (s.withReceiver procedure type) st
      (todo.map fun e => (e.1, if e.1 = procedure then e.2.withReceiver type else e.2)) = Placed.run s st todo := by
  induction todo with
  | nil => exact fun _ => rfl
  | cons e rest ih =>
    intro st
    obtain ⟨name, p⟩ := e
    have hstep : Placed.step (s.withReceiver procedure type) st name (if name = procedure then p.withReceiver type else p) =
        Placed.step s st name p := by
      split
      next heq =>
        subst heq
        exact step_withReceiver type h st p
      next => rfl
    rw [List.map_cons, Placed.run, Placed.run, hstep]
    split
    next => rfl
    next st' _ => exact ih st'

/-- A service can be partitioned exactly if it is accepted, and any failure is that of a malformed type. The type of the
first parameter of a method has no influence on the result, be it a partition or a failure. -/
theorem partition_exact (s : Service) :
    ((∃ p, partition s = .ok p) ↔ Accepted s) ∧
      (∀ f, partition s = .error f → f.fault.Only .malformedType) ∧
      ∀ procedure, (place s.classes procedure).isMethod = true →
        ∀ type, partition (s.withReceiver procedure type) = partition s := by
  refine ⟨exists_partition_iff, fun f _ => f.only_fault, fun procedure h type => ?_⟩
  have hrun : partitionRun (s.withReceiver procedure type) = partitionRun s :=
    run_withReceiver type h s.procedures.entries (Placed.start s)
  rw [partition, hrun]
  rfl

end Binding

end RpcBindings
