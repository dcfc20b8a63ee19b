import Mathlib.Data.List.Perm.Basic
import Mathlib.Logic.Relation
import RpcBindings.Proofs.Dependencies
import RpcBindings.Proofs.Interchange
import RpcBindings.Proofs.Resolution

/-!
# The work list of dependencies

A turn of the work list takes out one node that waits and puts its elements in its place. Every turn takes one node from
the number of nodes that wait, so the turns come to an end, and no turn changes what the list leads to, so it does not
matter in which order the nodes are taken. What it leads to is the set of references to other services at any place.
-/

namespace RpcBindings

theorem NameSet.eq_of_keys {a b : NameSet} (h : ∀ q, q ∈ a.keys ↔ q ∈ b.keys) : a = b := by
  have hkeys (d : NameSet) (key : Text) (u : Unit) : d.get? key = some u ↔ key ∈ d.keys := by
    rw [Dict.mem_keys_iff, Unique.exists_iff]
  exact Dict.ext_get? fun key => Option.ext fun u => by rw [hkeys, hkeys, h]

namespace DataType

theorem nodesAll_perm {ts us : List DataType} (h : ts.Perm us) : nodesAll ts = nodesAll us := by
  induction h with
  | nil => rfl
  | cons t _ ih => rw [nodesAll, nodesAll, ih]
  | swap t u rest => simp only [nodesAll, Nat.add_left_comm]
  | trans _ _ ih ih' => exact ih.trans ih'

theorem isComplete_iff_forall_at? (t : DataType) :
    t.isComplete = true ↔ ∀ place u, t.at? place = some u → u ≠ .missing := by
  induction t using DataType.inductionOn with
  | container shape elements ih =>
    have hroot : container shape elements ≠ missing := by simp
    rw [forall_at?_container, isComplete, allComplete_eq, List.all_eq_true, and_iff_right hroot]
    exact forall₂_congr ih
  | _ =>
    rw [forall_at?_leaf rfl]
    simp [isComplete]

theorem all_isComplete_iff {ts : List DataType} :
    ts.all isComplete = true ↔ ∀ t ∈ ts, ∀ place, t.at? place ≠ some .missing := by
  simp only [List.all_eq_true, isComplete_iff_forall_at?]
  refine forall₃_congr fun t _ place => ⟨fun h hmissing => h _ hmissing rfl, ?_⟩
  rintro h u hu rfl
  exact h hu

end DataType

namespace Binding

namespace Dependencies

/-! ## Turns -/

def visit (own : Text) (deps : Dependencies) : DataType → Dependencies
  | .reference _ service name => deps.collect own service name
  | _ => deps

/-- A turn of the work list takes out some node, wherever it waits, and puts its elements in. There is no turn for a
missing node. -/
inductive Turn (own : Text) : List DataType × Dependencies → List DataType × Dependencies → Prop
  | take {work rest next : List DataType} {t : DataType} (deps : Dependencies) (there : t ≠ .missing)
      (taken : work.Perm (t :: rest)) (put : next.Perm (t.elements?.getD [] ++ rest)) :
      Turn own (work, deps) (next, deps.visit own t)

theorem collectEach_perm {own : Text} {deps : Dependencies} {refs refs' : List (Text × Text)} (h : refs.Perm refs') :
    collectEach own deps refs = collectEach own deps refs' := by
  have hadd (d : NameSet) (f : Text × Text → Text) :
      addAll d ((refs.filter (DataType.isForeign own)).map f) =
        addAll d ((refs'.filter (DataType.isForeign own)).map f) :=
    NameSet.eq_of_keys fun q => by rw [mem_keys_addAll, mem_keys_addAll, ((h.filter _).map f).mem_iff]
  rw [collectEach_eq, collectEach_eq, hadd, hadd]

theorem collectAll_perm {own : Text} {deps : Dependencies} {work work' : List DataType} (h : work.Perm work') :
    collectAll own deps work = collectAll own deps work' := by
  rw [collectAll_eq, collectAll_eq, h.all_eq, collectEach_perm (h.flatMap_right _)]

theorem collectAll_cons {own : Text} {deps : Dependencies} {t : DataType} {rest : List DataType} (h : t ≠ .missing) :
    collectAll own deps (t :: rest) = collectAll own (deps.visit own t) (t.elements?.getD [] ++ rest) := by
  cases t with
  | missing => exact absurd rfl h
  | _ => simp [collectAll, visit, DataType.elements?]

variable {own : Text} {before after : List DataType × Dependencies}

theorem Turn.collectAll_eq (h : Turn own before after) :
    collectAll own before.2 before.1 = collectAll own after.2 after.1 := by
  cases h with
  | take deps there taken put => rw [collectAll_perm taken, collectAll_perm put, collectAll_cons there]

theorem Turn.nodesAll_lt (h : Turn own before after) : DataType.nodesAll after.1 < DataType.nodesAll before.1 := by
  cases h with
  | @take _ _ _ t _ _ taken put =>
    rw [DataType.nodesAll_perm taken, DataType.nodesAll_perm put, DataType.nodesAll_append, DataType.nodesAll]
    cases t <;> simp [DataType.elements?, DataType.nodes, DataType.nodesAll]

theorem wellFounded_turn (own : Text) : WellFounded (Function.swap (Turn own)) :=
  Subrelation.wf Turn.nodesAll_lt (measure fun st : List DataType × Dependencies => DataType.nodesAll st.1).wf

theorem collectAll_eq_of_turns (h : Relation.ReflTransGen (Turn own) before after) :
    collectAll own before.2 before.1 = collectAll own after.2 after.1 := by
  induction h with
  | refl => rfl
  | tail _ hturn ih => exact ih.trans hturn.collectAll_eq

theorem answer_of_turns {deps deps' : Dependencies} {work work' : List DataType}
    (h : Relation.ReflTransGen (Turn own) (work, deps) (work', deps')) :
    (work' = [] → collectAll own deps work = .ok deps') ∧
      (.missing ∈ work' → collectAll own deps work = .error .missing) := by
  have heq : collectAll own deps work = collectAll own deps' work' := collectAll_eq_of_turns h
  refine ⟨?_, fun hmem => ?_⟩
  · rintro rfl
    rw [heq, collectAll]
  · have hall : ¬ work'.all DataType.isComplete = true := fun hall =>
      DataType.all_isComplete_iff.mp hall _ hmem [] rfl
    rw [heq, collectAll_eq, if_neg hall]

end Dependencies

/-! ## All procedures -/

theorem exists_foreign_iff {s : Service} {f : Text → Text → Text} {q : Text} :
    (∃ r ∈ signatureReferences s.procedures.entries, DataType.isForeign s.name r = true ∧ f r.1 r.2 = q) ↔
      ∃ e ∈ s.procedures.entries, ∃ t, e.2.Mentions t ∧ ∃ place referent service name,
        t.at? place = some (.reference referent service name) ∧ service ≠ s.name ∧ service ≠ [] ∧ name ≠ [] ∧
          q = f service name := by
  constructor
  · rintro ⟨⟨service, name⟩, hr, hforeign, rfl⟩
    obtain ⟨e, he, t, ht, hin⟩ := mem_signatureReferences.mp hr
    obtain ⟨place, referent, hplace⟩ := DataType.mem_references_iff.mp hin
    obtain ⟨⟨hown, hservice⟩, hname⟩ : (service ≠ s.name ∧ service ≠ []) ∧ name ≠ [] := by
      simpa [DataType.isForeign] using hforeign
    exact ⟨e, he, t, mem_signatureTypes.mp ht, place, referent, service, name, hplace, hown, hservice, hname, rfl⟩
  · rintro ⟨e, he, t, ht, place, referent, service, name, hplace, hown, hservice, hname, rfl⟩
    have hin := DataType.mem_references_iff.mpr ⟨place, referent, hplace⟩
    refine ⟨(service, name), mem_signatureReferences.mpr ⟨e, he, t, mem_signatureTypes.mpr ht, hin⟩, ?_, rfl⟩
    simp [DataType.isForeign, hown, hservice, hname]

theorem DependencyFault.only_fault (f : DependencyFault) : f.fault.Only .malformedType :=
  Fault.only_within f.cause.only_fault

/-- The dependencies of a service. The turns of the work list come to an end in whatever order nodes are taken, and all
orders have the same answer. There is one exactly if no type has a missing node at any place, and else the fault is that
of a malformed type. The names and the modules are each listed once in byte order, and they are those of the references to
other services at any place of a parameter or a result. -/
theorem dependencies_exact (s : Service) :
    (WellFounded (Function.swap (Dependencies.Turn s.name)) ∧
      ∀ deps work deps' work', Relation.ReflTransGen (Dependencies.Turn s.name) (work, deps) (work', deps') →
        (work' = [] → Dependencies.collectAll s.name deps work = .ok deps') ∧
        (.missing ∈ work' → Dependencies.collectAll s.name deps work = .error .missing)) ∧
    ((∀ e ∈ s.procedures.entries, ∀ t, e.2.Mentions t → ∀ place, t.at? place ≠ some .missing) →
      ∃ deps, dependencies s = .ok deps ∧
        deps.names.keys.Pairwise (· < ·) ∧
        (∀ q, q ∈ deps.names.keys ↔
          ∃ e ∈ s.procedures.entries, ∃ t, e.2.Mentions t ∧ ∃ place referent service name,
            t.at? place = some (.reference referent service name) ∧ service ≠ s.name ∧ service ≠ [] ∧ name ≠ [] ∧
              q = Naming.snakeCase service ++ "::" ++ name) ∧
        deps.modules.keys.Pairwise (· < ·) ∧
        ∀ m, m ∈ deps.modules.keys ↔
          ∃ e ∈ s.procedures.entries, ∃ t, e.2.Mentions t ∧ ∃ place referent service name,
            t.at? place = some (.reference referent service name) ∧ service ≠ s.name ∧ service ≠ [] ∧ name ≠ [] ∧
              m = Naming.snakeCase service) ∧
    ((∃ f, dependencies s = .error f) ↔
      ∃ e ∈ s.procedures.entries, ∃ t, e.2.Mentions t ∧ ∃ place, t.at? place = some .missing) ∧
    ∀ f, dependencies s = .error f → f.fault.Only .malformedType := by
  refine ⟨⟨Dependencies.wellFounded_turn s.name, fun _ _ _ _ => Dependencies.answer_of_turns⟩, fun hthere => ?_, ?_,
    fun f _ => f.only_fault⟩
  · obtain ⟨deps, hdeps⟩ := exists_dependencies_iff.mpr fun e he =>
      DataType.all_isComplete_iff.mpr fun t ht => hthere e he t (mem_signatureTypes.mp ht)
    obtain ⟨hnames, hmodules⟩ := dependencies_ok hdeps
    exact ⟨deps, hdeps, deps.names.keys_ascending, fun q => (hnames q).trans exists_foreign_iff,
      deps.modules.keys_ascending, fun m => (hmodules m).trans (exists_foreign_iff (f := fun service _ => moduleName service))⟩
  · have hfault : (∃ f, dependencies s = .error f) ↔ ¬ ∃ deps, dependencies s = .ok deps := by
      cases dependencies s <;> simp
    simp only [hfault, exists_dependencies_iff, DataType.all_isComplete_iff, mem_signatureTypes]
    push Not
    rfl

end Binding

end RpcBindings
