import RpcBindings.Proofs.Categories
import RpcBindings.Proofs.Resolve
import RpcBindings.Proofs.Text

/-!
# Which types can be resolved

A place in a type is the row of element numbers that leads to it. A type can be resolved if the node at every place of it
is in order by itself. The expression then has a part at each of these places, and the names it needs from other services
are those that stand at the places of references to them.
-/

namespace RpcBindings

namespace DataType

/-! ## Nodes and their places -/

def at? (t : DataType) : List Nat → Option DataType
  | [] => some t
  | i :: place => (t.elements?.getD [])[i]?.bind fun u => u.at? place

/-- A node that is in order by itself, whatever its elements are. -/
def Proper : DataType → Prop
  | missing => False
  | primitive code => code ∈ Binding.primitiveTable.map (·.1)
  | message code => code ∈ Binding.messageTable.map (·.1)
  | container shape elements => shape.Admits elements.length
  | reference _ service name => name ≠ [] ∧ service ≠ []

theorem at?_container_cons {shape : Shape} {elements : List DataType} {i : Nat} {place : List Nat} {u : DataType} :
    (container shape elements).at? (i :: place) = some u ↔ ∃ t, elements[i]? = some t ∧ t.at? place = some u := by
  simp [at?, elements?, Option.bind_eq_some_iff]

theorem forall_at?_container {shape : Shape} {elements : List DataType} {P : DataType → Prop} :
    (∀ place u, (container shape elements).at? place = some u → P u) ↔
      P (container shape elements) ∧ ∀ t ∈ elements, ∀ place u, t.at? place = some u → P u := by
  constructor
  · intro h
    refine ⟨h [] _ rfl, fun t ht place u hu => ?_⟩
    obtain ⟨i, hi⟩ := List.getElem?_of_mem ht
    exact h (i :: place) u (at?_container_cons.mpr ⟨t, hi, hu⟩)
  · rintro ⟨hroot, helements⟩ place u hu
    cases place with
    | nil =>
      obtain rfl := Option.some.inj hu
      exact hroot
    | cons i place =>
      obtain ⟨t, ht, hu⟩ := at?_container_cons.mp hu
      exact helements t (List.mem_of_getElem? ht) place u hu

theorem at?_leaf {t : DataType} (h : t.elements? = none) {place : List Nat} {u : DataType} :
    t.at? place = some u ↔ place = [] ∧ u = t := by
  cases place with
  | nil => simp [at?, eq_comm]
  | cons i place => simp [at?, h]

theorem forall_at?_leaf {t : DataType} (h : t.elements? = none) {P : DataType → Prop} :
    (∀ place u, t.at? place = some u → P u) ↔ P t := by
  simp [at?_leaf h]

theorem referred_leaf {t : DataType} (h : t.elements? = none) {s n : Text} :
    (∃ place referent, t.at? place = some (reference referent s n)) ↔ ∃ referent, reference referent s n = t := by
  simp [at?_leaf h]

theorem isSome_lookup_iff {table : List (Text × Text)} {code : Text} :
    (table.lookup code).isSome = true ↔ code ∈ table.map (·.1) := by
  simp only [List.lookup_isSome_iff, List.mem_map, beq_iff_eq]
  exact exists_congr fun e => and_congr_right fun _ => eq_comm

theorem wellFormed_iff_forall_at? (t : DataType) : t.WellFormed ↔ ∀ place u, t.at? place = some u → u.Proper := by
  induction t using DataType.inductionOn with
  | missing => rw [forall_at?_leaf rfl, WellFormed, Proper]
  | primitive code =>
    rw [forall_at?_leaf rfl, WellFormed, Proper, Binding.primitiveExpr?]
    exact isSome_lookup_iff
  | message code =>
    rw [forall_at?_leaf rfl, WellFormed, Proper, Binding.messageExpr?]
    exact isSome_lookup_iff
  | reference referent service name => rw [forall_at?_leaf rfl, WellFormed, Proper]
  | container shape elements ih =>
    rw [forall_at?_container, WellFormed, Proper, allWellFormed_iff]
    exact and_congr_right fun _ => forall₂_congr ih

theorem mem_references_iff {t : DataType} {s n : Text} :
    (s, n) ∈ t.references ↔ ∃ place referent, t.at? place = some (reference referent s n) := by
  induction t using DataType.inductionOn with
  | container shape elements ih =>
    rw [references, referencesAll_eq, List.mem_flatMap]
    constructor
    · rintro ⟨t, ht, hin⟩
      obtain ⟨place, referent, hplace⟩ := (ih t ht).mp hin
      obtain ⟨i, hi⟩ := List.getElem?_of_mem ht
      exact ⟨i :: place, referent, at?_container_cons.mpr ⟨t, hi, hplace⟩⟩
    · rintro ⟨place, referent, hplace⟩
      cases place with
      | nil => cases hplace
      | cons i place =>
        obtain ⟨t, ht, hplace⟩ := at?_container_cons.mp hplace
        have hmem := List.mem_of_getElem? ht
        exact ⟨t, hmem, (ih t hmem).mpr ⟨place, referent, hplace⟩⟩
  | _ =>
    rw [referred_leaf rfl]
    simp [references]

end DataType

namespace TypeExpr

def parts : TypeExpr → List TypeExpr
  | path _ => []
  | generic _ arguments => arguments
  | tuple elements => elements

def at? (e : TypeExpr) : List Nat → Option TypeExpr
  | [] => some e
  | i :: place => e.parts[i]?.bind fun f => f.at? place

theorem isInfix_of_part {e f : TypeExpr} (h : f ∈ e.parts) : f.text <:+: e.text := by
  have hjoin {es : List TypeExpr} (h : f ∈ es) : f.text <:+: Text.join ", " (textAll es) := by
    rw [textAll_eq]
    exact Text.isInfix_join (List.mem_map_of_mem h)
  cases e with
  | path name => cases h
  | generic head arguments => exact (hjoin h).trans ⟨head ++ "<", ">", rfl⟩
  | tuple elements => exact (hjoin h).trans ⟨"(", _, rfl⟩

theorem isInfix_of_at? {place : List Nat} : ∀ {e f : TypeExpr}, e.at? place = some f → f.text <:+: e.text := by
  induction place with
  | nil =>
    intro e f h
    obtain rfl := Option.some.inj h
    exact List.infix_refl _
  | cons i place ih =>
    intro e f h
    obtain ⟨part, hpart, hf⟩ := Option.bind_eq_some_iff.mp h
    exact (ih hf).trans (isInfix_of_part (List.mem_of_getElem? hpart))

end TypeExpr

namespace DataType

theorem parts_expression_container (own : Text) (shape : Shape) (elements : List DataType) :
    ((container shape elements).expression own).parts = elements.map (expression own) := by
  cases shape <;> simp [expression, TypeExpr.parts, expressionAll_eq]

theorem at?_expression {own : Text} {place : List Nat} : ∀ {t u : DataType}, t.at? place = some u →
    (t.expression own).at? place = some (u.expression own) := by
  induction place with
  | nil =>
    intro t u h
    obtain rfl := Option.some.inj h
    rfl
  | cons i place ih =>
    intro t u h
    cases t with
    | container shape elements =>
      obtain ⟨w, hw, hu⟩ := at?_container_cons.mp h
      rw [TypeExpr.at?, parts_expression_container, List.getElem?_map, hw]
      exact ih hu
    | _ => simp [at?, elements?] at h

end DataType

namespace Binding

theorem mem_deps_iff_at? {own : Text} {t : DataType} {r : TypeRef} (h : resolve own t = .ok r) (q : Text) :
    q ∈ r.deps ↔ ∃ place referent s n, t.at? place = some (.reference referent s n) ∧ s ≠ own ∧
      q = moduleName s ++ "::" ++ n := by
  have hproper := (t.wellFormed_iff_forall_at?).mp (resolve_ok_iff.mp h).1
  rw [mem_deps_iff h, DataType.foreignNames, List.mem_map]
  constructor
  · rintro ⟨⟨s, n⟩, hin, rfl⟩
    obtain ⟨hmem, hforeign⟩ := List.mem_filter.mp hin
    obtain ⟨place, referent, hplace⟩ := DataType.mem_references_iff.mp hmem
    refine ⟨place, referent, s, n, hplace, ?_, rfl⟩
    rintro rfl
    simp [DataType.isForeign] at hforeign
  · rintro ⟨place, referent, s, n, hplace, hown, rfl⟩
    obtain ⟨hname, hservice⟩ : n ≠ [] ∧ s ≠ [] := hproper place _ hplace
    refine ⟨(s, n), List.mem_filter.mpr ⟨DataType.mem_references_iff.mpr ⟨place, referent, hplace⟩, ?_⟩, rfl⟩
    simp [DataType.isForeign, hown, hname, hservice]

/-- A type can be resolved exactly if the node at every place is in order, and no other fault than that of a malformed
type can arise. The names needed from other services are listed once each in byte order; they are those of the references
to other services. The expression has each at the place of its reference, and its text has it as a part. -/
theorem resolve_exact (own : Text) (t : DataType) :
    ((∃ r, resolve own t = .ok r) ↔ ∀ place u, t.at? place = some u → u.Proper) ∧
      (∀ cause, resolve own t = .error cause → cause.fault.Only .malformedType) ∧
      ∀ r, resolve own t = .ok r →
        r.deps.Pairwise (· < ·) ∧
        (∀ q, q ∈ r.deps ↔ ∃ place referent s n, t.at? place = some (.reference referent s n) ∧ s ≠ own ∧
          q = moduleName s ++ "::" ++ n) ∧
        r.expr = (t.expression own).text ∧
        ∀ place referent s n, t.at? place = some (.reference referent s n) →
          (t.expression own).at? place = some (.path (if s = own then n else moduleName s ++ "::" ++ n)) ∧
          (if s = own then n else moduleName s ++ "::" ++ n) <:+: r.expr := by
  refine ⟨?_, fun cause _ => cause.only_fault, fun r h => ?_⟩
  · rw [← DataType.wellFormed_iff_forall_at?]
    constructor
    · rintro ⟨r, h⟩
      exact (resolve_ok_iff.mp h).1
    · intro hwf
      exact ⟨_, resolve_ok_iff.mpr ⟨hwf, rfl⟩⟩
  · obtain ⟨-, hr⟩ := resolve_ok_iff.mp h
    refine ⟨?_, mem_deps_iff_at? h, by rw [hr], fun place referent s n hplace => ?_⟩
    · rw [hr]
      exact Dict.keys_ascending _
    · rw [hr]
      exact ⟨DataType.at?_expression hplace, TypeExpr.isInfix_of_at? (DataType.at?_expression hplace)⟩

end Binding

end RpcBindings
