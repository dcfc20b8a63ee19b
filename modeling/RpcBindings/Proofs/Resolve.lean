import Mathlib.Data.List.Basic
import RpcBindings.Binding.Resolve
import RpcBindings.Proofs.Basic
import RpcBindings.Proofs.Dict

/-!
# What resolving a type does

A type that can be resolved is one whose nodes are all present, with known codes, the right number of elements and full
references. Its expression is a tree of the generated language: names, generic types and tuples. Resolving prints that
tree and collects the references to other services in the order in which they stand.
-/

namespace RpcBindings

namespace DataType

@[elab_as_elim]
theorem inductionOn {motive : DataType → Prop} (t : DataType) (missing : motive .missing)
    (primitive : ∀ code, motive (.primitive code)) (message : ∀ code, motive (.message code))
    (container : ∀ shape elements, (∀ t ∈ elements, motive t) → motive (.container shape elements))
    (reference : ∀ referent service name, motive (.reference referent service name)) : motive t :=
  match t with
  | .missing => missing
  | .primitive code => primitive code
  | .message code => message code
  | .container shape elements => container shape elements fun t _ =>
    inductionOn t missing primitive message container reference
  | .reference referent service name => reference referent service name

/-! ## Well-formed types -/

end DataType

def Shape.Admits : Shape → Nat → Prop
  | list, n => n = 1
  | set, n => n = 1
  | tuple, _ => True
  | dictionary, n => n = 2

namespace DataType

mutual

def WellFormed : DataType → Prop
  | missing => False
  | primitive code => (Binding.primitiveExpr? code).isSome
  | message code => (Binding.messageExpr? code).isSome
  | container shape elements => shape.Admits elements.length ∧ AllWellFormed elements
  | reference _ service name => name ≠ [] ∧ service ≠ []

def AllWellFormed : List DataType → Prop
  | [] => True
  | t :: ts => WellFormed t ∧ AllWellFormed ts

end

mutual

/-- The references in a type, in the order in which they stand, as service and name. -/
def references : DataType → List (Text × Text)
  | missing => []
  | primitive _ => []
  | message _ => []
  | container _ elements => referencesAll elements
  | reference _ service name => [(service, name)]

def referencesAll : List DataType → List (Text × Text)
  | [] => []
  | t :: ts => references t ++ referencesAll ts

end

theorem allWellFormed_iff {ts : List DataType} : AllWellFormed ts ↔ ∀ t ∈ ts, t.WellFormed := by
  induction ts with
  | nil => simp [AllWellFormed]
  | cons t ts ih => simp [AllWellFormed, ih]

theorem referencesAll_eq (ts : List DataType) : referencesAll ts = ts.flatMap references := by
  induction ts with
  | nil => rfl
  | cons t ts ih => simp [referencesAll, ih]

def isForeign (own : Text) (r : Text × Text) : Bool := r.1 ≠ own && !r.1.isEmpty && !r.2.isEmpty

def foreignNames (own : Text) (t : DataType) : List Text :=
  (t.references.filter (isForeign own)).map fun r => Binding.qualify r.1 r.2

theorem foreignNames_container (own : Text) (shape : Shape) (ts : List DataType) :
    (container shape ts).foreignNames own = ts.flatMap (foreignNames own) := by
  simp only [foreignNames, references, referencesAll_eq, List.filter_flatMap, List.map_flatMap]
  rfl

end DataType

/-! ## Type expressions -/

inductive TypeExpr where
  | path (name : Text)
  | generic (head : Text) (arguments : List TypeExpr)
  | tuple (elements : List TypeExpr)

namespace TypeExpr

mutual

def text : TypeExpr → Text
  | path name => name
  | generic head arguments => head ++ "<" ++ Text.join ", " (textAll arguments) ++ ">"
  | tuple elements =>
    "(" ++ Text.join ", " (textAll elements) ++ (if elements.length = 1 then (",)" : Text) else ")")

def textAll : List TypeExpr → List Text
  | [] => []
  | e :: es => text e :: textAll es

end

theorem textAll_eq (es : List TypeExpr) : textAll es = es.map text := by
  induction es with
  | nil => rfl
  | cons e es ih => simp [textAll, ih]

theorem tupleExpr_textAll (es : List TypeExpr) : Binding.tupleExpr (textAll es) = (tuple es).text := by
  cases es with
  | nil => rfl
  | cons e es =>
    cases es with
    | nil => rfl
    | cons f es => simp [text, textAll, Binding.tupleExpr]

end TypeExpr

namespace DataType

mutual

def expression (own : Text) : DataType → TypeExpr
  | missing => .path []
  | primitive code =>
    if code = Code.bytes.text then .generic "Vec" [.path "u8"] else .path ((Binding.primitiveExpr? code).getD [])
  | message code => .path ((Binding.messageExpr? code).getD [])
  | container .list elements => .generic "Vec" (expressionAll own elements)
  | container .set elements => .generic "std::collections::HashSet" (expressionAll own elements)
  | container .tuple elements => .tuple (expressionAll own elements)
  | container .dictionary elements => .generic "std::collections::HashMap" (expressionAll own elements)
  | reference _ service name => .path (if service = own then name else Binding.qualify service name)

def expressionAll (own : Text) : List DataType → List TypeExpr
  | [] => []
  | t :: ts => expression own t :: expressionAll own ts

end

theorem expressionAll_eq (own : Text) (ts : List DataType) : expressionAll own ts = ts.map (expression own) := by
  induction ts with
  | nil => rfl
  | cons t ts ih => simp [expressionAll, ih]

end DataType

namespace Binding

/-! ## Resolving -/

def addAll (deps : NameSet) (names : List Text) : NameSet := names.foldl NameSet.add deps

theorem addAll_append (deps : NameSet) (xs ys : List Text) : addAll deps (xs ++ ys) = addAll (addAll deps xs) ys :=
  List.foldl_append

theorem mem_keys_addAll {names : List Text} : ∀ {deps : NameSet} {q : Text},
    q ∈ (addAll deps names).keys ↔ q ∈ deps.keys ∨ q ∈ names := by
  induction names with
  | nil => simp [addAll]
  | cons name names ih =>
    intro deps q
    change q ∈ (addAll (deps.add name) names).keys ↔ _
    rw [ih, NameSet.mem_keys_add, List.mem_cons]
    tauto

def ResolvesAs (own : Text) (t : DataType) : Prop :=
  ∀ (deps : NameSet) (e : Text) (deps' : NameSet), resolveOnto own deps t = .ok (e, deps') ↔
    t.WellFormed ∧ e = (t.expression own).text ∧ deps' = addAll deps (t.foreignNames own)

theorem ResolvesAs.not_wellFormed {own : Text} {t : DataType} (h : ResolvesAs own t) {deps : NameSet} {cause : TypeFault}
    (herror : resolveOnto own deps t = .error cause) : ¬ t.WellFormed := by
  intro hwf
  rw [(h deps _ _).mpr ⟨hwf, rfl, rfl⟩] at herror
  cases herror

theorem resolveEach_ok_iff {own : Text} {ts : List DataType} (h : ∀ t ∈ ts, ResolvesAs own t) :
    ∀ (deps : NameSet) (index : Nat) (es : List Text) (deps' : NameSet),
      resolveEach own deps index ts = .ok (es, deps') ↔
        (∀ t ∈ ts, t.WellFormed) ∧ es = ts.map (fun t => (t.expression own).text) ∧
          deps' = addAll deps (ts.flatMap (DataType.foreignNames own)) := by
  induction ts with
  | nil =>
    intro deps index es deps'
    simp [resolveEach, addAll, eq_comm]
  | cons t ts ih =>
    intro deps index es deps'
    have ht := h t List.mem_cons_self
    have hts := ih fun u hu => h u (List.mem_cons_of_mem t hu)
    simp only [resolveEach]
    split
    next cause hcause => simp [ht.not_wellFormed hcause]
    next e deps₁ he =>
      obtain ⟨hwf, rfl, rfl⟩ := (ht deps e deps₁).mp he
      rw [List.flatMap_cons, addAll_append]
      split
      next cause hcause =>
        have hnot : ¬ ∀ u ∈ ts, u.WellFormed := fun hall => by
          rw [(hts _ _ _ _).mpr ⟨hall, rfl, rfl⟩] at hcause
          cases hcause
        simp [hnot]
      next es₁ deps₂ hes =>
        obtain ⟨hall, rfl, rfl⟩ := (hts _ _ _ _).mp hes
        simp only [Except.ok.injEq, Prod.mk.injEq, List.forall_mem_cons, List.map_cons]
        exact ⟨fun ⟨h₁, h₂⟩ => ⟨⟨hwf, hall⟩, h₁.symm, h₂.symm⟩, fun ⟨_, h₁, h₂⟩ => ⟨h₁.symm, h₂.symm⟩⟩

theorem primitive_resolvesAs (own code : Text) : ResolvesAs own (.primitive code) := by
  intro deps e deps'
  have htext : ∀ e', primitiveExpr? code = some e' → ((DataType.primitive code).expression own).text = e' := by
    intro e' he
    by_cases hbytes : code = Code.bytes.text
    · subst hbytes
      obtain rfl : Text.ofString "Vec<u8>" = e' := Option.some.inj he
      rfl
    · simp [DataType.expression, hbytes, TypeExpr.text, he]
  cases hcode : primitiveExpr? code with
  | none => simp [resolveOnto, DataType.WellFormed, hcode]
  | some e' =>
    rw [htext e' hcode]
    simp [resolveOnto, DataType.WellFormed, DataType.foreignNames, DataType.references, addAll, hcode, eq_comm]

theorem message_resolvesAs (own code : Text) : ResolvesAs own (.message code) := by
  intro deps e deps'
  cases hcode : messageExpr? code with
  | none => simp [resolveOnto, DataType.WellFormed, hcode]
  | some e' =>
    simp [resolveOnto, DataType.WellFormed, DataType.expression, TypeExpr.text, DataType.foreignNames,
      DataType.references, addAll, hcode, eq_comm]

theorem reference_resolvesAs (own : Text) (referent : Referent) (service name : Text) :
    ResolvesAs own (.reference referent service name) := by
  intro deps e deps'
  simp only [resolveOnto, resolveReference, DataType.WellFormed, DataType.expression, TypeExpr.text,
    DataType.foreignNames, DataType.references, List.isEmpty_iff]
  by_cases hname : name = []
  · simp [hname]
  · by_cases hservice : service = []
    · simp [hname, hservice]
    · by_cases hown : service = own
      · subst hown
        simp [hname, hservice, DataType.isForeign, addAll, eq_comm]
      · have hforeign : [(service, name)].filter (DataType.isForeign own) = [(service, name)] := by
          simp [DataType.isForeign, hname, hservice, hown]
        simp only [hname, hservice, hown, if_false, hforeign]
        constructor
        · intro h
          cases h
          exact ⟨⟨hname, hservice⟩, rfl, rfl⟩
        · rintro ⟨-, rfl, rfl⟩
          rfl

theorem single_resolvesAs {own : Text} {shape : Shape} {head : Text} {t : DataType} (ht : ResolvesAs own t)
    (hshape : shape.Admits 1) (hexpr : ((DataType.container shape [t]).expression own) = .generic head [t.expression own])
    (hstep : ∀ deps, resolveOnto own deps (.container shape [t]) =
      match resolveOnto own deps t with
      | .error cause => .error (.inElement shape cause)
      | .ok (e, deps) => .ok (head ++ "<" ++ e ++ ">", deps)) :
    ResolvesAs own (.container shape [t]) := by
  intro deps e deps'
  rw [hstep, hexpr, DataType.foreignNames_container, List.flatMap_singleton]
  simp only [DataType.WellFormed, DataType.AllWellFormed, TypeExpr.text, TypeExpr.textAll, Text.join_singleton,
    List.length_singleton]
  split
  next cause hcause => simp [ht.not_wellFormed hcause]
  next e₁ deps₁ he =>
    obtain ⟨hwf, rfl, rfl⟩ := (ht deps e₁ deps₁).mp he
    simp [hwf, hshape, eq_comm]

theorem tuple_resolvesAs {own : Text} {ts : List DataType} (h : ∀ t ∈ ts, ResolvesAs own t) :
    ResolvesAs own (.container .tuple ts) := by
  intro deps e deps'
  simp only [resolveOnto, DataType.WellFormed, DataType.allWellFormed_iff, DataType.foreignNames_container,
    DataType.expression, DataType.expressionAll_eq, ← TypeExpr.tupleExpr_textAll, TypeExpr.textAll_eq, Shape.Admits,
    true_and]
  split
  next cause hcause =>
    have hnot : ¬ ∀ t ∈ ts, t.WellFormed := fun hall => by
      rw [(resolveEach_ok_iff h deps 0 _ _).mpr ⟨hall, rfl, rfl⟩] at hcause
      cases hcause
    simp [hnot]
  next es deps₁ hes =>
    obtain ⟨hall, rfl, rfl⟩ := (resolveEach_ok_iff h deps 0 es deps₁).mp hes
    simp only [Except.ok.injEq, Prod.mk.injEq, List.map_map]
    exact ⟨fun ⟨h₁, h₂⟩ => ⟨hall, h₁.symm, h₂.symm⟩, fun ⟨_, h₁, h₂⟩ => ⟨h₁.symm, h₂.symm⟩⟩

theorem dictionary_resolvesAs {own : Text} {k v : DataType} (hk : ResolvesAs own k) (hv : ResolvesAs own v) :
    ResolvesAs own (.container .dictionary [k, v]) := by
  intro deps e deps'
  simp only [resolveOnto, DataType.WellFormed, DataType.AllWellFormed, DataType.foreignNames_container,
    DataType.expression, DataType.expressionAll, TypeExpr.text, TypeExpr.textAll, Shape.Admits]
  split
  next cause hcause => simp [hk.not_wellFormed hcause]
  next key deps₁ hkey =>
    obtain ⟨hwfk, rfl, rfl⟩ := (hk deps key deps₁).mp hkey
    split
    next cause hcause => simp [hv.not_wellFormed hcause]
    next value deps₂ hvalue =>
      obtain ⟨hwfv, rfl, rfl⟩ := (hv _ value deps₂).mp hvalue
      have hhead : Text.ofString "std::collections::HashMap<" = Text.ofString "std::collections::HashMap" ++ "<" := rfl
      simp [hwfk, hwfv, Text.join, addAll_append, hhead, eq_comm]

theorem resolvesAs (own : Text) (t : DataType) : ResolvesAs own t := by
  induction t using DataType.inductionOn with
  | missing => intro deps e deps'; simp [resolveOnto, DataType.WellFormed]
  | primitive code => exact primitive_resolvesAs own code
  | message code => exact message_resolvesAs own code
  | reference referent service name => exact reference_resolvesAs own referent service name
  | container shape ts ih =>
    cases shape with
    | tuple => exact tuple_resolvesAs ih
    | list =>
      match ts with
      | [] => intro deps e deps'; simp [resolveOnto, DataType.WellFormed, Shape.Admits]
      | [t] => exact single_resolvesAs (ih t (by simp)) rfl rfl fun deps => by rw [resolveOnto]; rfl
      | t :: u :: rest => intro deps e deps'; simp [resolveOnto, DataType.WellFormed, Shape.Admits]
    | set =>
      match ts with
      | [] => intro deps e deps'; simp [resolveOnto, DataType.WellFormed, Shape.Admits]
      | [t] => exact single_resolvesAs (ih t (by simp)) rfl rfl fun deps => by rw [resolveOnto]; rfl
      | t :: u :: rest => intro deps e deps'; simp [resolveOnto, DataType.WellFormed, Shape.Admits]
    | dictionary =>
      match ts with
      | [] => intro deps e deps'; simp [resolveOnto, DataType.WellFormed, Shape.Admits]
      | [t] => intro deps e deps'; simp [resolveOnto, DataType.WellFormed, Shape.Admits]
      | [k, v] => exact dictionary_resolvesAs (ih k (by simp)) (ih v (by simp))
      | t :: u :: w :: rest => intro deps e deps'; simp [resolveOnto, DataType.WellFormed, Shape.Admits]

/-- A type can be resolved if it is well formed; the result is its printed expression, and the names it mentions from
other services. -/
theorem resolve_ok_iff {own : Text} {t : DataType} {r : TypeRef} :
    resolve own t = .ok r ↔ t.WellFormed ∧
      r = ⟨(t.expression own).text, kindOf t, (addAll Dict.empty (t.foreignNames own)).keys⟩ := by
  simp only [resolve]
  split
  next cause hcause => simp [(resolvesAs own t).not_wellFormed hcause]
  next e deps he =>
    obtain ⟨hwf, rfl, rfl⟩ := (resolvesAs own t _ e deps).mp he
    simp [hwf, eq_comm]

theorem mem_deps_iff {own : Text} {t : DataType} {r : TypeRef} (h : resolve own t = .ok r) (q : Text) :
    q ∈ r.deps ↔ q ∈ t.foreignNames own := by
  obtain ⟨-, rfl⟩ := resolve_ok_iff.mp h
  simp [mem_keys_addAll]

end Binding

end RpcBindings
