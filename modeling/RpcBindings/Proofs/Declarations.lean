import Mathlib.Algebra.Ring.Nat
import RpcBindings.Proofs.Composition
import RpcBindings.Proofs.Documents
import RpcBindings.Proofs.Identifiers
import RpcBindings.Proofs.Partition
import RpcBindings.Proofs.Resolve

/-!
# What a module declares and how it is referred to

A module declares each class and each enumeration of its service under the identifier of its name. A reference is written
with the name itself, so it meets the declaration exactly if the name is no keyword.
-/

namespace RpcBindings

namespace DataType

open Naming

mutual

def escaped : DataType → DataType
  | missing => missing
  | primitive code => primitive code
  | message code => message code
  | container shape elements => container shape (escapedAll elements)
  | reference referent service name => reference referent service (identifier name)

def escapedAll : List DataType → List DataType
  | [] => []
  | t :: ts => escaped t :: escapedAll ts

end

theorem escapedAll_eq (ts : List DataType) : escapedAll ts = ts.map escaped := by
  induction ts with
  | nil => rfl
  | cons t ts ih => simp [escapedAll, ih]

theorem escaped_eq_self {t : DataType} (h : ∀ r ∈ t.references, isKeyword r.2 = false) : t.escaped = t := by
  induction t using inductionOn with
  | missing => rfl
  | primitive code => rfl
  | message code => rfl
  | reference referent service name =>
    have hname : isKeyword name = false := h (service, name) List.mem_cons_self
    rw [escaped, identifier_of_not_isKeyword hname]
  | container shape ts ih =>
    rw [references, referencesAll_eq] at h
    have heach : ts.map escaped = ts.map id := List.map_congr_left fun t ht =>
      ih t ht fun r hr => h r (List.mem_flatMap.mpr ⟨t, ht, hr⟩)
    rw [escaped, escapedAll_eq, heach, List.map_id]

def surplus (t : DataType) : Nat := (t.references.map fun r => (identifier r.2).length - r.2.length).sum

theorem surplus_container (shape : Shape) (ts : List DataType) :
    (container shape ts).surplus = (ts.map surplus).sum := by
  rw [surplus, references, referencesAll_eq]
  induction ts with
  | nil => rfl
  | cons t ts ih =>
    rw [List.flatMap_cons, List.map_append, List.sum_append_nat, ih]
    rfl

end DataType

namespace Text

theorem length_join (sep : Text) (ts : List Text) :
    (join sep ts).length = (ts.map List.length).sum + (ts.length - 1) * sep.length := by
  cases ts with
  | nil => simp
  | cons t ts =>
    have htail : (ts.flatMap fun u => sep ++ u).length = (ts.map List.length).sum + ts.length * sep.length := by
      induction ts with
      | nil => simp
      | cons u us ih =>
        simp only [List.flatMap_cons, List.length_append, ih, List.map_cons, List.sum_cons, List.length_cons,
          Nat.add_mul, Nat.one_mul]
        omega
    rw [join_cons, List.length_append, htail]
    simp [Nat.add_assoc]

end Text

namespace Binding

theorem length_join_add (sep : Text) {ts us : List Text} {n : Nat} (hlength : us.length = ts.length)
    (hsum : (us.map List.length).sum = (ts.map List.length).sum + n) :
    (Text.join sep us).length = (Text.join sep ts).length + n := by
  rw [Text.length_join, Text.length_join, hlength, hsum]
  omega

end Binding

namespace DataType

open Naming

theorem length_expression_escaped (own : Text) (t : DataType) :
    (t.escaped.expression own).text.length = (t.expression own).text.length + t.surplus := by
  induction t using inductionOn with
  | missing => rfl
  | primitive code => rfl
  | message code => rfl
  | reference referent service name =>
    have hsurplus : (reference referent service name).surplus = (identifier name).length - name.length := by
      simp [surplus, references]
    have hle := length_le_identifier name
    rw [hsurplus]
    by_cases hown : service = own
    · simp only [escaped, expression, hown, if_true, TypeExpr.text]
      omega
    · simp only [escaped, expression, hown, if_false, TypeExpr.text, Binding.qualify, List.length_append]
      omega
  | container shape ts ih =>
    have hsum : ((ts.map (TypeExpr.text ∘ expression own ∘ escaped)).map List.length).sum =
        ((ts.map (TypeExpr.text ∘ expression own)).map List.length).sum + (container shape ts).surplus := by
      rw [surplus_container]
      induction ts with
      | nil => rfl
      | cons t ts ihs =>
        have hhead := ih t List.mem_cons_self
        have hrest := ihs fun u hu => ih u (List.mem_cons_of_mem t hu)
        simp only [List.map_cons, List.sum_cons, Function.comp_apply]
        omega
    have hjoin := Binding.length_join_add ", " (by simp) hsum
    have hgeneric : ∀ head : Text, (TypeExpr.generic head (ts.map (expression own ∘ escaped))).text.length =
        (TypeExpr.generic head (ts.map (expression own))).text.length + (container shape ts).surplus := by
      intro head
      simp only [TypeExpr.text, TypeExpr.textAll_eq, List.map_map, List.length_append, hjoin]
      omega
    cases shape with
    | tuple =>
      simp only [escaped, escapedAll_eq, expression, expressionAll_eq, TypeExpr.text, TypeExpr.textAll_eq, List.map_map,
        List.length_append, List.length_map, hjoin]
      omega
    | list => simpa [escaped, escapedAll_eq, expression, expressionAll_eq] using hgeneric "Vec"
    | set => simpa [escaped, escapedAll_eq, expression, expressionAll_eq] using hgeneric "std::collections::HashSet"
    | dictionary => simpa [escaped, escapedAll_eq, expression, expressionAll_eq] using hgeneric "std::collections::HashMap"

theorem expression_escaped_iff (own : Text) (t : DataType) :
    (t.expression own).text = (t.escaped.expression own).text ↔ ∀ r ∈ t.references, isKeyword r.2 = false := by
  constructor
  · intro h r hr
    have hlength := length_expression_escaped own t
    rw [← h] at hlength
    have hnone : t.surplus = 0 := by omega
    have hsame := List.sum_eq_zero_iff_forall_eq_nat.mp hnone _ (List.mem_map.mpr ⟨r, hr, rfl⟩)
    by_contra hkeyword
    have hlt := length_lt_of_isKeyword (Bool.not_eq_false _ ▸ hkeyword)
    omega
  · intro h
    rw [escaped_eq_self h]

end DataType

/-! ## Declarations -/

def Service.declared (s : Service) : Referent → List Text
  | .object => s.classes.keys
  | .enumeration => s.enumerations.keys

def Referent.keyword : Referent → Text
  | object => "struct"
  | enumeration => "enum"

namespace Binding

section

variable {s : Service} {c : Context}

theorem buildContext_ok (h : buildContext s = .ok c) :
    partition s = .ok ⟨c.classes, c.procedures⟩ ∧ buildEnums s = .ok c.enums := by
  obtain ⟨deps, -, h⟩ := bind_eq_ok.mp h
  obtain ⟨parts, hparts, h⟩ := bind_eq_ok.mp h
  obtain ⟨enums, henums, h⟩ := bind_eq_ok.mp h
  cases h
  exact ⟨mapError_eq_ok.mp hparts, mapError_eq_ok.mp henums⟩

theorem map_name_classes (h : buildContext s = .ok c) : c.classes.map (·.name) = s.classes.keys := by
  obtain ⟨st, hst, hholds⟩ := partition_ok (buildContext_ok h).1
  have hclasses : c.classes = (st.partition s).classes := congrArg Partition.classes hst
  rw [hclasses, hholds.classes_map_name]

theorem map_name_buildMembers {enumeration : Text} {members : List Member} {values : List EnumMember}
    (h : buildMembers enumeration members = .ok values) : values.map (·.name) = members.map (·.name) := by
  induction members generalizing values with
  | nil =>
    cases h
    rfl
  | cons m rest ih =>
    rw [buildMembers] at h
    split at h
    next =>
      cases hrest : buildMembers enumeration rest with
      | error f => rw [hrest] at h; cases h
      | ok tail =>
        rw [hrest] at h
        cases h
        simp [ih hrest]
    next => cases h

theorem map_members_enums (h : buildContext s = .ok c) : c.enums.map (fun e => (e.name, e.values.map (·.name))) =
    s.enumerations.entries.map fun d => (d.1, d.2.members.map (·.name)) := by
  refine map_of_mapM (fun d e he => ?_) (buildContext_ok h).2
  cases hmembers : buildMembers d.1 d.2.members with
  | error f =>
    simp only [hmembers] at he
    cases he
  | ok values =>
    simp only [hmembers] at he
    cases he
    exact Prod.ext rfl (map_name_buildMembers hmembers)

theorem map_name_enums (h : buildContext s = .ok c) : c.enums.map (·.name) = s.enumerations.keys := by
  simpa [Dict.keys, Function.comp_def] using congrArg (List.map Prod.fst) (map_members_enums h)

end

end Binding

namespace Render

open Binding Template

def declaration (keyword identifier : Text) : Text := "\npub " ++ keyword ++ " " ++ identifier ++ " \x7b"

theorem declaration_infix_text {i : Item} {rest : Text} (h : i.body.flatten = " \x7b" ++ rest) :
    declaration i.keyword i.identifier <:+: i.text := by
  have hline : (")]\npub " : Text) = ")]" ++ "\npub " := by decide
  refine ⟨commented "\n/// " i.doc ++ "\n#[derive(" ++ i.traits ++ ")]", rest, ?_⟩
  simp [Item.text, typeRow, declaration, h, hline]

theorem declaration_infix_enum (e : EnumDef) : declaration "enum" (Naming.identifier e.name) <:+: enumBlock e := by
  have hopen : passage [" ⦃"] = " \x7b" := by decide
  have hitem := declaration_infix_text (i := Item.ofEnum e) (by simp [Item.ofEnum, enumRow, hopen]; rfl)
  exact hitem.trans List.infix_append_right

theorem declaration_infix_class (k : ClassMethods) :
    declaration "struct" (Naming.identifier k.name) <:+: classBlock k := by
  have hopen : ∀ line lines, passage (" ⦃" :: line :: lines) = " \x7b" ++ 10 :: passage (line :: lines) := by
    intro line lines
    simp only [passage, List.map_cons, Text.join, List.append_assoc]
    rfl
  have hitem := declaration_infix_text (i := Item.ofClass k) (by simp [Item.ofClass, classRow, hopen]; rfl)
  exact hitem.trans List.infix_append_right

theorem infix_flatMap {α : Type} {f : α → Text} {items : List α} {a : α} (h : a ∈ items) : f a <:+: items.flatMap f := by
  obtain ⟨before, after, rfl⟩ := List.append_of_mem h
  exact ⟨before.flatMap f, after.flatMap f, by simp⟩

theorem declaration_infix_module {s : Service} {c : Context} (version : Text) {referent : Referent} {name : Text}
    (hbuild : buildContext s = .ok c) (hname : name ∈ s.declared referent) :
    declaration referent.keyword (Naming.identifier name) <:+: moduleText version c := by
  cases referent with
  | object =>
    obtain ⟨k, hk, rfl⟩ := List.mem_map.mp ((map_name_classes hbuild).symm ▸ hname : name ∈ c.classes.map (·.name))
    have hblocks := (declaration_infix_class k).trans (infix_flatMap hk)
    exact hblocks.trans ⟨header c.source version c.name c.doc c.imports ++ c.enums.flatMap enumBlock,
      c.procedures.flatMap procedureBlock ++ "\n", by simp [moduleText]⟩
  | enumeration =>
    obtain ⟨e, he, rfl⟩ := List.mem_map.mp ((map_name_enums hbuild).symm ▸ hname : name ∈ c.enums.map (·.name))
    have hblocks := (declaration_infix_enum e).trans (infix_flatMap he)
    exact hblocks.trans ⟨header c.source version c.name c.doc c.imports,
      c.classes.flatMap classBlock ++ c.procedures.flatMap procedureBlock ++ "\n", by simp [moduleText]⟩

/-! ## References -/

theorem exists_resolve_reference_iff {own service name : Text} {referent : Referent} :
    (∃ r, resolve own (.reference referent service name) = .ok r) ↔ name ≠ [] ∧ service ≠ [] := by
  simp only [resolve_ok_iff, DataType.WellFormed]
  constructor
  · rintro ⟨_, h, -⟩
    exact h
  · exact fun h => ⟨_, h, rfl⟩

theorem text_reference (own service name : Text) (referent : Referent) :
    ((DataType.reference referent service name).expression own).text =
      if own = service then name else moduleName service ++ "::" ++ name := by
  by_cases h : own = service
  · simp [DataType.expression, TypeExpr.text, h]
  · simp [DataType.expression, TypeExpr.text, qualify, h, Ne.symm h]

/-- A module declares every class and enumeration of its service under the identifier of its name. A reference to it is
written with that identifier, in its own module or behind the name of that module, exactly if the name is no keyword; and
so are all references in a type, however deep they stand. -/
theorem reference_meets_declaration_iff {s : Service} {c : Context} {referent : Referent} {name : Text} (version own : Text)
    (hbuild : buildContext s = .ok c) (hname : name ∈ s.declared referent) :
    (∃ text, (Renderer.embedded version).bind (fun r => r.service c) = .ok text ∧
      declaration referent.keyword (Naming.identifier name) <:+: text) ∧
    ((∃ r, resolve own (.reference referent s.name name) = .ok r) ↔ name ≠ [] ∧ s.name ≠ []) ∧
    (∀ r, resolve own (.reference referent s.name name) = .ok r →
      r.expr = (if own = s.name then name else moduleName s.name ++ "::" ++ name) ∧
      (r.expr = (if own = s.name then Naming.identifier name else moduleName s.name ++ "::" ++ Naming.identifier name) ↔
        Naming.isKeyword name = false)) ∧
    ∀ t r, resolve own t = .ok r →
      (r.expr = (t.escaped.expression own).text ↔ ∀ ref ∈ t.references, Naming.isKeyword ref.2 = false) := by
  have hdeep : ∀ t r, resolve own t = .ok r →
      (r.expr = (t.escaped.expression own).text ↔ ∀ ref ∈ t.references, Naming.isKeyword ref.2 = false) := by
    intro t r hr
    obtain ⟨-, rfl⟩ := resolve_ok_iff.mp hr
    exact DataType.expression_escaped_iff own t
  refine ⟨⟨_, service_embedded version c, declaration_infix_module version hbuild hname⟩, exists_resolve_reference_iff,
    fun r hr => ⟨?_, ?_⟩, hdeep⟩
  · obtain ⟨-, rfl⟩ := resolve_ok_iff.mp hr
    exact text_reference own s.name name referent
  · have hone := hdeep _ r hr
    rw [DataType.escaped, text_reference] at hone
    simpa [DataType.references] using hone

def quayService : Service where
  name := "Quay"
  id := 1
  documentation := []
  procedures := .empty
  classes := .ofList [("Berth", ⟨"Berth", []⟩), ("type", ⟨"type", []⟩)]
  enumerations := .empty

theorem reference_meets_declaration_quay :
    ∃ c, buildContext quayService = .ok c ∧
      (∃ text, (Renderer.embedded "v1").bind (fun r => r.service c) = .ok text ∧
        declaration "struct" "Berth" <:+: text) ∧
      ∃ r, resolve "Dock" (.reference .object "Quay" "Berth") = .ok r ∧ r.expr = "quay::Berth" := by
  obtain ⟨c, hbuild⟩ : ∃ c, buildContext quayService = .ok c := ⟨_, rfl⟩
  have hberth : Text.ofString "Berth" ∈ quayService.declared .object := by decide
  obtain ⟨hdeclared, hresolves, hwritten, -⟩ := reference_meets_declaration_iff "v1" "Dock" hbuild hberth
  obtain ⟨r, hr⟩ := hresolves.mpr ⟨by decide, by decide⟩
  exact ⟨c, hbuild, hdeclared, r, hr, (hwritten r hr).2.mpr (by decide)⟩

/-- A class named `type` is declared as `r#type`, and references to it are written `type`. -/
theorem reference_misses_declaration_quay :
    ∃ c, buildContext quayService = .ok c ∧
      (∃ text, (Renderer.embedded "v1").bind (fun r => r.service c) = .ok text ∧
        declaration "struct" "r#type" <:+: text) ∧
      (∃ r, resolve "Quay" (.reference .object "Quay" "type") = .ok r ∧ r.expr = "type") ∧
      ∃ r, resolve "Dock" (.reference .object "Quay" "type") = .ok r ∧ r.expr = "quay::type" := by
  obtain ⟨c, hbuild⟩ : ∃ c, buildContext quayService = .ok c := ⟨_, rfl⟩
  have htype : Text.ofString "type" ∈ quayService.declared .object := by decide
  have hdeclared := declaration_infix_module "v1" hbuild htype
  exact ⟨c, hbuild, ⟨_, service_embedded "v1" c, hdeclared⟩, ⟨_, rfl, rfl⟩, _, rfl, by decide⟩

end Render

/-! ## Decoded services -/

namespace Wire

theorem ProcedureNode.name_decode {name : Text} {node : Option ProcedureNode} {p : Procedure}
    (h : decode name node = .ok p) : p.name = name := by
  cases node with
  | none => cases h
  | some node =>
    obtain ⟨id, -, h⟩ := bind_eq_ok.mp h
    obtain ⟨nodes, -, h⟩ := bind_eq_ok.mp h
    obtain ⟨parameters, -, h⟩ := bind_eq_ok.mp h
    dsimp only at h
    split at h <;>
      · obtain ⟨result, -, h⟩ := bind_eq_ok.mp h
        obtain rfl := Except.ok.inj h
        rfl

theorem EnumNode.members_ok {nodes : List (Option MemberNode)} : ∀ {seen : List Text} {index : Nat} {ms : List Member},
    members seen index nodes = .ok ms → (ms.map (·.name)).Nodup ∧ ∀ m ∈ ms, m.name ∉ seen := by
  induction nodes with
  | nil =>
    intro seen index ms h
    obtain rfl := Except.ok.inj h
    simp
  | cons node rest ih =>
    intro seen index ms h
    obtain ⟨m, -, h⟩ := bind_eq_ok.mp h
    split at h
    next => cases h
    next hfresh =>
      obtain ⟨ms', hrest, h⟩ := bind_eq_ok.mp h
      obtain rfl := Except.ok.inj h
      obtain ⟨hnodup, hapart⟩ := ih hrest
      have hnew : m.name ∉ seen := by simpa using hfresh
      refine ⟨List.nodup_cons.mpr ⟨fun hin => ?_, hnodup⟩, fun m' hm' => ?_⟩
      · obtain ⟨m', hm', heq⟩ := List.mem_map.mp hin
        exact hapart m' hm' (heq ▸ List.mem_cons_self)
      · rcases List.mem_cons.mp hm' with rfl | hm'
        · exact hnew
        · exact fun hin => hapart m' hm' (List.mem_cons_of_mem _ hin)

theorem EnumNode.nodup_decode {name : Text} {node : Option EnumNode} {e : Enumeration} (h : decode name node = .ok e) :
    (e.members.map (·.name)).Nodup := by
  cases node with
  | none => cases h
  | some node =>
    obtain ⟨nodes, -, h⟩ := bind_eq_ok.mp h
    obtain ⟨ms, hms, h⟩ := bind_eq_ok.mp h
    obtain rfl := Except.ok.inj h
    exact (EnumNode.members_ok hms).1

theorem ServiceNode.of_decode {name : Text} {node : Option ServiceNode} {s : Service} (h : decode name node = .ok s) :
    (∀ e ∈ s.procedures.entries, e.2.name = e.1) ∧ ∀ e ∈ s.enumerations.entries, (e.2.members.map (·.name)).Nodup := by
  obtain ⟨-, n, -, hprocedures, -, henumerations⟩ := decode_ok h
  refine ⟨fun e he => ?_, fun e he => ?_⟩
  · obtain ⟨table, p, -, -, hp⟩ := hprocedures e he
    exact ProcedureNode.name_decode hp
  · obtain ⟨table, m, -, -, hm⟩ := henumerations e he
    exact EnumNode.nodup_decode hm

end Wire

theorem Document.exists_node {t : Text} {services : Dict Service} (h : decode t = .ok services) :
    ∀ e ∈ services.entries, ∃ node, Wire.ServiceNode.decode e.1 node = .ok e.2 := by
  intro e he
  obtain ⟨v, table, -, -, hnodes⟩ := decode_ok h
  obtain ⟨node, -, hnode⟩ := hnodes e he
  exact ⟨node, hnode⟩

/-! ## Distinct definitions -/

namespace Render

open Binding Template

def items (c : Context) : List Item := c.enums.map Item.ofEnum ++ c.classes.map Item.ofClass

section

variable {s : Service} {c : Context}

theorem map_identifier_items (h : buildContext s = .ok c) :
    (items c).map (·.identifier) = (s.declared .enumeration ++ s.declared .object).map Naming.identifier := by
  rw [items, List.map_append, List.map_append, Service.declared, Service.declared, ← map_name_enums h, ← map_name_classes h]
  simp [Item.ofEnum, Item.ofClass, Function.comp_def]

theorem nodup_items_iff (h : buildContext s = .ok c) :
    ((items c).map (·.identifier)).Nodup ↔ (s.declared .enumeration).Disjoint (s.declared .object) ∧
      ∀ a b k, k ∈ s.declared a → Naming.isKeyword k = true → Naming.identifier k ∉ s.declared b := by
  have hmem : ∀ k, k ∈ s.declared .enumeration ++ s.declared .object ↔ ∃ a, k ∈ s.declared a := by
    intro k
    rw [List.mem_append]
    exact ⟨fun hk => hk.elim (fun hk => ⟨_, hk⟩) (fun hk => ⟨_, hk⟩), fun ⟨a, hk⟩ => by cases a <;> simp [hk]⟩
  rw [map_identifier_items h, Naming.nodup_map_identifier_iff]
  simp only [hmem]
  constructor
  · rintro ⟨hnodup, hapart⟩
    exact ⟨List.disjoint_of_nodup_append hnodup, fun a b k hk hkeyword hin => hapart k ⟨a, hk⟩ hkeyword ⟨b, hin⟩⟩
  · rintro ⟨hdisjoint, hapart⟩
    exact ⟨s.enumerations.nodup_keys.append s.classes.nodup_keys hdisjoint,
      fun k ⟨a, hk⟩ hkeyword ⟨b, hin⟩ => hapart a b k hk hkeyword hin⟩

theorem nodup_members_iff {e : EnumDef} (h : (e.values.map (·.name)).Nodup) :
    ((Item.members e).map (·.1)).Nodup ↔
      ∀ m ∈ e.values, Naming.isKeyword m.name = true → Naming.identifier m.name ∉ e.values.map (·.name) := by
  have hmap : (Item.members e).map (·.1) = (e.values.map (·.name)).map Naming.identifier := by
    simp [Item.members, Function.comp_def]
  rw [hmap, Naming.nodup_map_identifier_iff]
  simp [h]

theorem map_name_params {own : Text} {qs : List Param} {ps : List (Parameter × Nat)}
    (h : List.Forall₂ (Param.Describes own) qs ps) : qs.map (·.name) = ps.map fun p => Naming.functionName p.1.name := by
  induction h with
  | nil => rfl
  | cons hp _ ih => rw [List.map_cons, List.map_cons, ih, hp.2.2.1]

theorem nodup_inputs_iff {own : Text} {isMethod : Bool} {f : Signature} {ps : List (Parameter × Nat)}
    (h : List.Forall₂ (Param.Describes own) f.params ps) :
    ((Function.ofSignature isMethod f).inputs.map (·.1)).Nodup ↔ (ps.map fun p => Naming.snakeCase p.1.name).Nodup := by
  have hmap : (Function.ofSignature isMethod f).inputs.map (·.1) = ps.map fun p => Naming.functionName p.1.name := by
    rw [← map_name_params h]
    simp [Function.ofSignature, Function.input, Function.comp_def]
  rw [hmap]
  simp only [List.Nodup, List.pairwise_map, ne_eq, Naming.functionName_eq_iff]

theorem map_fst_zipIdx {α β : Type} (g : α → β) (l : List α) (n : Nat) :
    ((l.zipIdx n).map fun p => g p.1) = l.map g := by
  rw [← List.zipIdx_map_fst n l, List.map_map]
  simp [Function.comp_def]

theorem moduleText_eq (version : Text) (c : Context) : moduleText version c =
    header c.source version c.name c.doc c.imports ++ ((items c).flatMap fun i => ("\n" : Text) ++ i.text) ++
      c.procedures.flatMap procedureBlock ++ "\n" := by
  simp only [moduleText, items, List.flatMap_append, List.flatMap_map, List.append_assoc]
  rfl

end

/-- In the module of a decoded service the types have distinct identifiers exactly if no name is both a class and an
enumeration and no keyword is declared beside its escaped form; likewise the members of an enumeration, whose names are
distinct. The parameters of a function have distinct identifiers exactly if their names are distinct in snake case. -/
theorem definitions_distinct_iff {t name : Text} {services : Dict Service} {s : Service} {c : Context} (version : Text)
    (hdecode : Document.decode t = .ok services) (hs : services.get? name = some s) (hbuild : buildContext s = .ok c) :
    (Renderer.embedded version).bind (fun r => r.service c) =
      .ok (header c.source version c.name c.doc c.imports ++ ((items c).flatMap fun i => ("\n" : Text) ++ i.text) ++
        c.procedures.flatMap procedureBlock ++ "\n") ∧
    (((items c).map (·.identifier)).Nodup ↔ (s.declared .enumeration).Disjoint (s.declared .object) ∧
      ∀ a b k, k ∈ s.declared a → Naming.isKeyword k = true → Naming.identifier k ∉ s.declared b) ∧
    (∀ e ∈ c.enums, ((Item.members e).map (·.1)).Nodup ↔
      ∀ m ∈ e.values, Naming.isKeyword m.name = true → Naming.identifier m.name ∉ e.values.map (·.name)) ∧
    (∀ k ∈ c.classes, ∀ f ∈ k.methods, ∃ d, s.procedures.get? f.rpcName = some d ∧
      (((Function.ofSignature true f).inputs.map (·.1)).Nodup ↔
        (d.parameters.tail.map fun p => Naming.snakeCase p.name).Nodup)) ∧
    ∀ f ∈ c.procedures, ∃ d, s.procedures.get? f.rpcName = some d ∧
      (((Function.ofSignature false f).inputs.map (·.1)).Nodup ↔
        (d.parameters.map fun p => Naming.snakeCase p.name).Nodup) := by
  obtain ⟨node, hnode⟩ := Document.exists_node hdecode _ (Dict.get?_eq_some_iff.mp hs)
  obtain ⟨hnames, hmembers⟩ := Wire.ServiceNode.of_decode hnode
  obtain ⟨st, hst, hholds⟩ := partition_ok (buildContext_ok hbuild).1
  refine ⟨moduleText_eq version c ▸ service_embedded version c, nodup_items_iff hbuild, fun e he => ?_,
    fun k hk f hf => ?_, fun f hf => ?_⟩
  · refine nodup_members_iff ?_
    have hlisted : (e.name, e.values.map (·.name)) ∈ c.enums.map fun e => (e.name, e.values.map (·.name)) :=
      List.mem_map.mpr ⟨e, he, rfl⟩
    rw [map_members_enums hbuild] at hlisted
    obtain ⟨d, hd, heq⟩ := List.mem_map.mp hlisted
    rw [← (Prod.mk.inj heq).2]
    exact hmembers d hd
  · have hclasses : c.classes = (st.partition s).classes := congrArg Partition.classes hst
    obtain ⟨procedure, d, hd, -, hsignature⟩ := hholds.method_of_mem (hclasses ▸ hk) hf
    refine ⟨d, ?_, ?_⟩
    · rw [rpcName_of_build hnames hd hsignature]
      exact Dict.get?_eq_some_iff.mpr hd
    · have hparams : List.Forall₂ (Param.Describes s.name) f.params d.parameters.zipIdx.tail :=
        (buildSignature_ok hsignature).2.2.1
      rw [nodup_inputs_iff hparams, List.tail_zipIdx, map_fst_zipIdx fun p : Parameter => Naming.snakeCase p.name]
  · have hprocedures : c.procedures = (st.partition s).procedures := congrArg Partition.procedures hst
    obtain ⟨d, hd, -, hsignature⟩ := hholds.free_of_mem (hprocedures ▸ hf)
    refine ⟨d, ?_, ?_⟩
    · rw [rpcName_of_build hnames hd hsignature]
      exact Dict.get?_eq_some_iff.mpr hd
    · have hparams : List.Forall₂ (Param.Describes s.name) f.params d.parameters.zipIdx :=
        (buildSignature_ok hsignature).2.2.1
      rw [nodup_inputs_iff hparams, map_fst_zipIdx fun p : Parameter => Naming.snakeCase p.name]

def soloDocument : Text := passage
  ["⦃\"Solo\": ⦃\"id\": 1, \"procedures\": ⦃⦄, \"classes\": ⦃\"type\": ⦃⦄⦄, \"enumerations\": ⦃\"Mode\": ⦃\"values\": []⦄⦄⦄⦄"]

def twinDocument : Text := passage
  ["⦃\"Twin\": ⦃\"id\": 2, \"procedures\": ⦃\"Go\": ⦃\"id\": 1, \"parameters\": [",
   "  ⦃\"name\": \"toX\", \"type\": ⦃\"code\": \"BOOL\"⦄⦄, ⦃\"name\": \"to_x\", \"type\": ⦃\"code\": \"BOOL\"⦄⦄]⦄⦄,",
   "  \"classes\": ⦃\"A\": ⦃⦄⦄, \"enumerations\": ⦃\"A\": ⦃\"values\": [",
   "  ⦃\"name\": \"self\", \"value\": 0⦄, ⦃\"name\": \"self_\", \"value\": 1⦄]⦄⦄⦄⦄"]

theorem exists_decoded {t t' name : Text} {test : Service → Context → Bool} (ht : t = t')
    (h : ((Document.decode t').toOption.bind fun services => (services.get? name).bind fun s =>
      (buildContext s).toOption.map (test s)) = some true) :
    ∃ services s c, Document.decode t = .ok services ∧ services.get? name = some s ∧ buildContext s = .ok c ∧
      test s c = true := by
  subst ht
  obtain ⟨services, hdecode, h⟩ := Option.bind_eq_some_iff.mp h
  obtain ⟨s, hs, h⟩ := Option.bind_eq_some_iff.mp h
  obtain ⟨c, hbuild, htest⟩ := Option.map_eq_some_iff.mp h
  exact ⟨services, s, c, toOption_eq_some.mp hdecode, hs, toOption_eq_some.mp hbuild, htest⟩

set_option maxRecDepth 10000 in
theorem definitions_distinct_solo :
    ∃ services s c, Document.decode soloDocument = .ok services ∧ services.get? "Solo" = some s ∧ buildContext s = .ok c ∧
      ((items c).map (·.identifier)).Nodup := by
  obtain ⟨services, s, c, hdecode, hs, hbuild, htest⟩ : ∃ services s c, Document.decode soloDocument = .ok services ∧
      services.get? "Solo" = some s ∧ buildContext s = .ok c ∧
        (s.declared .enumeration == [Text.ofString "Mode"] && s.declared .object == [Text.ofString "type"]) = true :=
    exists_decoded (passage_singleton _) (by decide +kernel)
  rw [Bool.and_eq_true, beq_iff_eq, beq_iff_eq] at htest
  refine ⟨services, s, c, hdecode, hs, hbuild, ?_⟩
  refine (definitions_distinct_iff "v1" hdecode hs hbuild).2.1.mpr ⟨?_, fun a b k hk hkeyword => ?_⟩
  · rw [htest.1, htest.2]
    exact List.singleton_disjoint.mpr (by decide)
  · have hmem : ∀ a k, k ∈ s.declared a → k = Text.ofString "Mode" ∨ k = Text.ofString "type" := by
      intro a k hk
      cases a with
      | object => exact .inr (by simpa [htest.2] using hk)
      | enumeration => exact .inl (by simpa [htest.1] using hk)
    intro hin
    rcases hmem a k hk with rfl | rfl
    · exact absurd hkeyword (by decide)
    · rcases hmem b _ hin with heq | heq
      · exact absurd heq (by decide)
      · exact absurd heq (by decide)

set_option maxRecDepth 10000 in
/-- A class and an enumeration of one name, a member named like an escaped keyword beside it, and parameters that differ
in their spelling only: none of them is refused. -/
theorem definitions_meet_twin :
    ∃ services s c, Document.decode twinDocument = .ok services ∧ services.get? "Twin" = some s ∧ buildContext s = .ok c ∧
      ¬ ((items c).map (·.identifier)).Nodup ∧ (∃ e ∈ c.enums, ¬ ((Item.members e).map (·.1)).Nodup) ∧
      ∃ f ∈ c.procedures, (f.params.map (·.rawName)).Nodup ∧
        ¬ ((Function.ofSignature false f).inputs.map (·.1)).Nodup := by
  obtain ⟨services, s, c, hdecode, hs, hbuild, htest⟩ : ∃ services s c, Document.decode twinDocument = .ok services ∧
      services.get? "Twin" = some s ∧ buildContext s = .ok c ∧
        decide (¬ ((items c).map (·.identifier)).Nodup ∧ (∃ e ∈ c.enums, ¬ ((Item.members e).map (·.1)).Nodup) ∧
          ∃ f ∈ c.procedures, (f.params.map (·.rawName)).Nodup ∧
            ¬ ((Function.ofSignature false f).inputs.map (·.1)).Nodup) = true :=
    exists_decoded (passage_line <| passage_line <| passage_line <| passage_singleton _) (by decide +kernel)
  exact ⟨services, s, c, hdecode, hs, hbuild, of_decide_eq_true htest⟩

end Render

end RpcBindings
