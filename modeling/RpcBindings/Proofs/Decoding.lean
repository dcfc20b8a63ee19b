import RpcBindings.Proofs.Declarations
import RpcBindings.Proofs.Dependencies
import RpcBindings.Proofs.Provenance

/-!
# What decoding establishes

A document that is accepted gives services on which later stages rely: every declaration carries the name it stands
under, every node of a type is there with a code of its table, members have distinct names, and members and parameters
stand where the document has them. The dependencies of such a service are always found. Its types can still lack an
element, a name or a service, and nothing else keeps them from having an expression.
-/

namespace RpcBindings

namespace DataType

/-! ## Nodes of a type -/

inductive Holds : DataType → DataType → Prop
  | self (t : DataType) : Holds t t
  | inside {shape : Shape} {elements : List DataType} {t u : DataType} :
    t ∈ elements → Holds t u → Holds (container shape elements) u

def Known : DataType → Prop
  | missing => False
  | primitive code => code ∈ Binding.primitiveTable.map (·.1)
  | message code => code ∈ Binding.messageTable.map (·.1)
  | container _ _ => True
  | reference _ _ _ => True

def Complete (t : DataType) : Prop := ∀ u, t.Holds u → u.Known

theorem Complete.of_holds {t u : DataType} (ht : t.Complete) (hu : t.Holds u) : u.Complete := by
  induction hu with
  | self => exact ht
  | inside hmem hu ih => exact ih fun w hw => ht w (.inside hmem hw)

theorem complete_iff {t : DataType} :
    t.Complete ↔ t.Known ∧ ∀ shape elements, t = container shape elements → ∀ u ∈ elements, u.Complete := by
  constructor
  · intro h
    refine ⟨h t (.self t), ?_⟩
    rintro shape elements rfl u hu
    exact h.of_holds (.inside hu (.self u))
  · rintro ⟨hknown, helements⟩ u hu
    cases hu with
    | self => exact hknown
    | inside hmem hu => exact helements _ _ rfl _ hmem u hu

theorem Complete.isComplete {t : DataType} (h : t.Complete) : t.isComplete = true := by
  induction t using DataType.inductionOn with
  | missing => exact (complete_iff.mp h).1.elim
  | container shape elements ih =>
    rw [DataType.isComplete, allComplete_eq, List.all_eq_true]
    exact fun u hu => ih u hu ((complete_iff.mp h).2 shape elements rfl u hu)
  | _ => rfl

/-! ## Types of wire nodes -/

theorem code_of_shape? {code : Code} {shape : Shape} (h : shape? code = some shape) : shape.code = code := by
  cases code <;> cases h <;> rfl

theorem code_of_referent? {code : Code} {referent : Referent} (h : referent? code = some referent) :
    referent.code = code := by
  cases code <;> cases h <;> rfl

theorem known_plain {code : Code} (hshape : shape? code = none) (hreferent : referent? code = none) :
    (if isMessageCode code then message code.text else primitive code.text).Known := by
  split
  next hmessage =>
    change code.text ∈ Binding.messageTable.map (·.1)
    revert hmessage
    cases code <;> decide
  next hmessage =>
    -- whatever is no container, reference or message is listed among the primitives
    change code.text ∈ Binding.primitiveTable.map (·.1)
    revert hshape hreferent hmessage
    cases code <;> decide

theorem ofNode_ok {n : Wire.TypeNode} {t : DataType} (h : ofNode n = .ok t) :
    ∃ spelling code, n.code = some spelling ∧ Code.parse? spelling = some code ∧ t.code? = some code.text ∧ t.Known ∧
      ∀ shape elements, t = container shape elements → ∃ service name nodes,
        n = .node (some spelling) service name (some nodes) ∧ ofNodes code 0 nodes = .ok elements := by
  obtain ⟨spelling, service, name, types⟩ := n
  unfold ofNode at h
  split at h
  next => cases h
  next spelling =>
    split at h
    next => cases h
    next code hcode =>
      refine ⟨spelling, code, rfl, hcode, ?_⟩
      split at h
      next shape _ hshape =>
        split at h
        next => cases h
        next nodes =>
          obtain ⟨elements, hnodes, rfl⟩ := map_eq_ok.mp h
          refine ⟨by rw [code?, code_of_shape? hshape], trivial, ?_⟩
          rintro _ _ ⟨⟩
          exact ⟨service, name, nodes, rfl, hnodes⟩
      next referent _ hreferent =>
        split at h
        next => cases h
        next => cases h
        next service name =>
          obtain rfl := Except.ok.inj h
          exact ⟨by rw [code?, code_of_referent? hreferent], trivial, nofun⟩
      next hshape hreferent =>
        obtain rfl := Except.ok.inj h
        refine ⟨?_, known_plain hshape hreferent, ?_⟩
        · split <;> rfl
        · split <;> exact nofun

-- by recursion on the nodes; without `types` a node is no container, so only the second case goes further down
mutual

theorem complete_ofNode : ∀ {n : Wire.TypeNode} {t : DataType}, ofNode n = .ok t → t.Complete
  | .node spelling service name none, t, h => by
    obtain ⟨_, _, -, -, -, hknown, helements⟩ := ofNode_ok h
    refine complete_iff.mpr ⟨hknown, fun shape elements heq => ?_⟩
    obtain ⟨_, _, _, heq, -⟩ := helements shape elements heq
    cases heq
  | .node spelling service name (some nodes), t, h => by
    obtain ⟨_, _, -, -, -, hknown, helements⟩ := ofNode_ok h
    refine complete_iff.mpr ⟨hknown, fun shape elements heq => ?_⟩
    obtain ⟨_, _, _, heq, hnodes⟩ := helements shape elements heq
    cases heq
    exact complete_ofNodes hnodes

theorem complete_ofNodes : ∀ {nodes : List (Option Wire.TypeNode)} {code : Code} {index : Nat} {ts : List DataType},
    ofNodes code index nodes = .ok ts → ∀ t ∈ ts, t.Complete
  | [], code, index, ts, h => by
    rw [ofNodes] at h
    obtain rfl := Except.ok.inj h
    exact nofun
  | none :: rest, code, index, ts, h => by
    rw [ofNodes] at h
    cases h
  | some node :: rest, code, index, ts, h => by
    rw [ofNodes] at h
    split at h
    next => cases h
    next t ht =>
      obtain ⟨ts', hrest, rfl⟩ := map_eq_ok.mp h
      rintro u (_ | ⟨_, hu⟩)
      · exact complete_ofNode ht
      · exact complete_ofNodes hrest u hu

end

end DataType

/-! ## Faults of complete types -/

def TypeFault.root : TypeFault → TypeFault
  | inElement _ cause => cause.root
  | inPlace _ cause => cause.root
  | inKey cause => cause.root
  | inValue cause => cause.root
  | cause => cause

/-- What a node with a known code can lack: elements, a name or a service. -/
inductive DataType.Lacks : DataType → TypeFault → Prop
  | single {shape : Shape} {elements : List DataType} : shape = .list ∨ shape = .set → elements.length ≠ 1 →
    Lacks (container shape elements) (.notSingle shape elements.length)
  | pair {elements : List DataType} : elements.length ≠ 2 →
    Lacks (container .dictionary elements) (.notPair elements.length)
  | name {referent : Referent} {service : Text} : Lacks (reference referent service []) (.noName referent)
  | service {referent : Referent} {name : Text} : name ≠ [] →
    Lacks (reference referent [] name) (.noService referent name)

namespace Binding

theorem exists_lookup {α : Type} {table : List (Text × α)} {key : Text} (h : key ∈ table.map (·.1)) :
    ∃ value, table.lookup key = some value := by
  obtain ⟨e, he, rfl⟩ := List.mem_map.mp h
  exact Option.isSome_iff_exists.mp (List.lookup_isSome_iff.mpr ⟨e, he, beq_self_eq_true e.1⟩)

def FailsBy (own : Text) (t : DataType) (root : TypeFault) : Prop :=
  ∃ deps cause, resolveOnto own deps t = .error cause ∧ cause.root = root

theorem exists_failsBy_of_resolveEach {own : Text} {ts : List DataType} : ∀ {deps : NameSet} {index : Nat}
    {cause : TypeFault}, resolveEach own deps index ts = .error cause → ∃ t ∈ ts, FailsBy own t cause.root := by
  induction ts with
  | nil =>
    intro deps index cause h
    cases h
  | cons t ts ih =>
    intro deps index cause h
    rw [resolveEach] at h
    split at h
    next inner hinner =>
      obtain rfl := Except.error.inj h
      exact ⟨t, List.mem_cons_self, deps, inner, hinner, rfl⟩
    next e deps' he =>
      split at h
      next inner hrest =>
        obtain rfl := Except.error.inj h
        obtain ⟨u, hu, hfails⟩ := ih hrest
        exact ⟨u, List.mem_cons_of_mem t hu, hfails⟩
      next => cases h

section

variable {own : Text} {deps : NameSet} {shape : Shape} {elements : List DataType} {cause : TypeFault}

theorem single_error (hshape : shape = .list ∨ shape = .set)
    (h : resolveOnto own deps (.container shape elements) = .error cause) :
    (DataType.container shape elements).Lacks cause.root ∨ ∃ t ∈ elements, FailsBy own t cause.root := by
  by_cases hone : elements.length = 1
  · obtain ⟨t, rfl⟩ := List.length_eq_one_iff.mp hone
    refine .inr ⟨t, List.mem_singleton_self t, deps, ?_⟩
    cases hinner : resolveOnto own deps t with
    | error inner =>
      obtain rfl : .inElement shape inner = cause := by
        rcases hshape with rfl | rfl <;> simpa [resolveOnto, hinner] using h
      exact ⟨inner, rfl, rfl⟩
    | ok r => rcases hshape with rfl | rfl <;> simp [resolveOnto, hinner] at h
  · have hcount : resolveOnto own deps (.container shape elements) = .error (.notSingle shape elements.length) := by
      rcases hshape with rfl | rfl <;>
        · rw [resolveOnto]
          rintro t rfl
          exact hone rfl
    obtain rfl := Except.error.inj (hcount.symm.trans h)
    exact .inl (.single hshape hone)

theorem dictionary_error (h : resolveOnto own deps (.container .dictionary elements) = .error cause) :
    (DataType.container .dictionary elements).Lacks cause.root ∨ ∃ t ∈ elements, FailsBy own t cause.root := by
  by_cases hpair : elements.length = 2
  · obtain ⟨k, v, rfl⟩ := List.length_eq_two.mp hpair
    rw [resolveOnto] at h
    split at h
    next inner hinner =>
      obtain rfl := Except.error.inj h
      exact .inr ⟨k, by simp, deps, inner, hinner, rfl⟩
    next key deps' _ =>
      split at h
      next inner hinner =>
        obtain rfl := Except.error.inj h
        exact .inr ⟨v, by simp, deps', inner, hinner, rfl⟩
      next => cases h
  · rw [resolveOnto] at h
    · obtain rfl := Except.error.inj h
      exact .inl (.pair hpair)
    · rintro k v rfl
      exact hpair rfl

theorem container_error (h : resolveOnto own deps (.container shape elements) = .error cause) :
    (DataType.container shape elements).Lacks cause.root ∨ ∃ t ∈ elements, FailsBy own t cause.root := by
  cases shape with
  | list => exact single_error (.inl rfl) h
  | set => exact single_error (.inr rfl) h
  | dictionary => exact dictionary_error h
  | tuple =>
    rw [resolveOnto] at h
    split at h
    next inner hinner =>
      obtain rfl := Except.error.inj h
      exact .inr (exists_failsBy_of_resolveEach hinner)
    next => cases h

end

theorem exists_lacks {own : Text} {t : DataType} {root : TypeFault} (ht : t.Complete) (h : FailsBy own t root) :
    ∃ u, t.Holds u ∧ u.Lacks root := by
  obtain ⟨deps, cause, h, rfl⟩ := h
  induction t using DataType.inductionOn generalizing deps cause with
  | missing => exact (DataType.complete_iff.mp ht).1.elim
  | primitive code =>
    obtain ⟨e, he⟩ := exists_lookup (DataType.complete_iff.mp ht).1
    rw [resolveOnto, primitiveExpr?, he] at h
    cases h
  | message code =>
    obtain ⟨e, he⟩ := exists_lookup (DataType.complete_iff.mp ht).1
    rw [resolveOnto, messageExpr?, he] at h
    cases h
  | reference referent service name =>
    refine ⟨_, .self _, ?_⟩
    rw [resolveOnto, resolveReference] at h
    split_ifs at h with hname hservice hown
    · obtain rfl := Except.error.inj h
      rw [List.isEmpty_iff.mp hname]
      exact .name
    · obtain rfl := Except.error.inj h
      rw [List.isEmpty_iff.mp hservice]
      exact .service fun heq => hname (List.isEmpty_iff.mpr heq)
  | container shape elements ih =>
    -- an element may have failed with names of the elements before it, so the induction is over all names
    rcases container_error h with hlacks | ⟨t, hmem, deps', inner, hinner, hroot⟩
    · exact ⟨_, .self _, hlacks⟩
    · obtain ⟨u, hu, hlacks⟩ := ih t hmem ((DataType.complete_iff.mp ht).2 _ _ rfl t hmem) deps' inner hinner
      exact ⟨u, .inside hmem hu, hroot ▸ hlacks⟩

theorem failsBy_of_resolve {own : Text} {t : DataType} {cause : TypeFault} (h : resolve own t = .error cause) :
    FailsBy own t cause.root := by
  unfold resolve at h
  split at h
  next inner hinner =>
    obtain rfl := Except.error.inj h
    exact ⟨Dict.empty, inner, hinner, rfl⟩
  next => cases h

theorem exists_dependencies {s : Service}
    (h : ∀ e ∈ s.procedures.entries, ∀ t, e.2.Mentions t → t.Complete) : ∃ deps, dependencies s = .ok deps :=
  exists_dependencies_iff.mpr fun e he => List.all_eq_true.mpr fun t ht =>
    (h e he t (mem_signatureTypes.mp ht)).isComplete

end Binding

/-! ## Declarations in the order of the document -/

def Procedure.Follows (v : Json) (p : Procedure) : Prop :=
  ∃ items, Json.array items ∈ v.select [.field "parameters"] ∧ items.length = p.parameters.length ∧
    ∀ i q, p.parameters[i]? = some q →
      Json.string q.name ∈ v.select [.field "parameters", .place i, .field "name"] ∧
      ∃ spelling code, Json.string spelling ∈ v.select [.field "parameters", .place i, .field "type", .field "code"] ∧
        Code.parse? spelling = some code ∧ q.type.code? = some code.text

def Enumeration.Follows (v : Json) (e : Enumeration) : Prop :=
  ∃ items, Json.array items ∈ v.select [.field "values"] ∧ items.length = e.members.length ∧
    ∀ i m, e.members[i]? = some m →
      Json.string m.name ∈ v.select [.field "values", .place i, .field "name"] ∧
      ∃ digits, Json.number digits ∈ v.select [.field "values", .place i, .field "value"] ∧
        Wire.word32? digits = some m.value

namespace Wire

theorem decodeItems_places {α β : Type} {decode : Nat → α → Except DecodeFault β} {xs : List α} :
    ∀ {index : Nat} {ys : List β}, decodeItems decode index xs = .ok ys →
      xs.length = ys.length ∧ ∀ i y, ys[i]? = some y → ∃ x, xs[i]? = some x ∧ decode (index + i) x = .ok y := by
  induction xs with
  | nil =>
    intro index ys h
    obtain rfl := Except.ok.inj h
    exact ⟨rfl, nofun⟩
  | cons x rest ih =>
    intro index ys h
    obtain ⟨y, hy, h⟩ := bind_eq_ok.mp h
    obtain ⟨ys', hys, h⟩ := bind_eq_ok.mp h
    obtain rfl := Except.ok.inj h
    obtain ⟨hlength, hplaces⟩ := ih hys
    refine ⟨congrArg (· + 1) hlength, fun i y' hy' => ?_⟩
    cases i with
    | zero => exact ⟨x, rfl, Option.some.inj hy' ▸ hy⟩
    | succ i =>
      obtain ⟨x', hx', hdecode⟩ := hplaces i y' hy'
      exact ⟨x', hx', by rwa [Nat.add_comm i 1, ← Nat.add_assoc]⟩

theorem EnumNode.decodeItems_of_members {nodes : List (Option MemberNode)} : ∀ {seen : List Text} {index : Nat}
    {ms : List Member}, members seen index nodes = .ok ms → decodeItems MemberNode.decode index nodes = .ok ms := by
  induction nodes with
  | nil => exact fun h => h
  | cons node rest ih =>
    intro seen index ms h
    obtain ⟨m, hm, h⟩ := bind_eq_ok.mp h
    split at h
    next => cases h
    next =>
      obtain ⟨ms', hrest, h⟩ := bind_eq_ok.mp h
      exact bind_eq_ok.mpr ⟨m, hm, bind_eq_ok.mpr ⟨ms', ih hrest, h⟩⟩

theorem ParameterNode.decode_ok {index : Nat} {node : Option ParameterNode} {q : Parameter}
    (h : decode index node = .ok q) :
    ∃ p n, node = some p ∧ p.name = some q.name ∧ p.type = some n ∧ DataType.ofNode n = .ok q.type := by
  cases node with
  | none => cases h
  | some p =>
    obtain ⟨name, hname, h⟩ := bind_eq_ok.mp h
    obtain ⟨n, hn, h⟩ := bind_eq_ok.mp (mapError_eq_ok.mp h)
    obtain ⟨t, ht, h⟩ := bind_eq_ok.mp h
    obtain rfl := Except.ok.inj h
    exact ⟨p, n, rfl, require_eq_ok.mp (mapError_eq_ok.mp hname), require_eq_ok.mp hn, mapError_eq_ok.mp ht⟩

theorem MemberNode.decode_ok {index : Nat} {node : Option MemberNode} {m : Member} (h : decode index node = .ok m) :
    ∃ n, node = some n ∧ n.name = some m.name ∧ n.value = some m.value := by
  cases node with
  | none => cases h
  | some n =>
    obtain ⟨name, hname, h⟩ := bind_eq_ok.mp h
    obtain ⟨value, hvalue, h⟩ := bind_eq_ok.mp h
    obtain rfl := Except.ok.inj h
    exact ⟨n, rfl, require_eq_ok.mp (mapError_eq_ok.mp hname), require_eq_ok.mp (mapError_eq_ok.mp hvalue)⟩

theorem ProcedureNode.decode_ok {name : Text} {node : Option ProcedureNode} {q : Procedure}
    (h : decode name node = .ok q) :
    ∃ p nodes, node = some p ∧ p.parameters = some nodes ∧
      decodeItems ParameterNode.decode 0 nodes = .ok q.parameters ∧
      ∀ t, q.result = some t → ∃ n, DataType.ofNode n = .ok t := by
  cases node with
  | none => cases h
  | some p =>
    obtain ⟨id, -, h⟩ := bind_eq_ok.mp h
    obtain ⟨nodes, hnodes, h⟩ := bind_eq_ok.mp h
    obtain ⟨parameters, hparameters, h⟩ := bind_eq_ok.mp h
    refine ⟨p, nodes, rfl, require_eq_ok.mp hnodes, ?_⟩
    dsimp only at h
    split at h
    next =>
      obtain ⟨result, hresult, h⟩ := bind_eq_ok.mp h
      obtain rfl := Except.ok.inj hresult
      obtain rfl := Except.ok.inj h
      exact ⟨hparameters, nofun⟩
    next n _ =>
      obtain ⟨result, hresult, h⟩ := bind_eq_ok.mp h
      obtain rfl := Except.ok.inj h
      refine ⟨hparameters, fun t ht => ⟨n, ?_⟩⟩
      obtain ⟨u, hu, rfl⟩ := map_eq_ok.mp (mapError_eq_ok.mp hresult)
      obtain rfl := Option.some.inj ht
      exact mapError_eq_ok.mp hu

theorem EnumNode.decode_ok {name : Text} {node : Option EnumNode} {q : Enumeration} (h : decode name node = .ok q) :
    q.name = name ∧ ∃ e nodes, node = some e ∧ e.values = some nodes ∧
      decodeItems MemberNode.decode 0 nodes = .ok q.members := by
  cases node with
  | none => cases h
  | some e =>
    obtain ⟨nodes, hnodes, h⟩ := bind_eq_ok.mp h
    obtain ⟨ms, hms, h⟩ := bind_eq_ok.mp h
    obtain rfl := Except.ok.inj h
    exact ⟨rfl, e, nodes, rfl, require_eq_ok.mp hnodes, decodeItems_of_members hms⟩

theorem ClassNode.name_decode {name : Text} {node : Option ClassNode} {c : ClassDecl} (h : decode name node = .ok c) :
    c.name = name := by
  cases node with
  | none => cases h
  | some node =>
    obtain rfl := Except.ok.inj h
    rfl

theorem ProcedureNode.Source.follows {v : Json} {p : ProcedureNode} {name : Text} {q : Procedure}
    (hp : p.Source v []) (h : decode name (some p) = .ok q) : q.Follows v := by
  obtain ⟨_, nodes, ⟨⟩, hnodes, hitems, -⟩ := decode_ok h
  obtain ⟨⟨items, harray, hlength⟩, hplaces⟩ := hp nodes hnodes
  obtain ⟨hsame, hdecoded⟩ := decodeItems_places hitems
  refine ⟨items, harray, hlength.trans hsame, fun i q hq => ?_⟩
  obtain ⟨x, hx, hdecode⟩ := hdecoded i q hq
  obtain ⟨p', n, rfl, hname, htype, hn⟩ := ParameterNode.decode_ok hdecode
  obtain ⟨hnamed, htyped⟩ := hplaces i p' hx
  obtain ⟨spelling, code, hspelling, hcode, htext, -⟩ := DataType.ofNode_ok hn
  exact ⟨hnamed q.name hname, spelling, code, htyped n htype spelling hspelling, hcode, htext⟩

theorem EnumNode.Source.follows {v : Json} {e : EnumNode} {name : Text} {q : Enumeration} (he : e.Source v [])
    (h : decode name (some e) = .ok q) : q.Follows v := by
  obtain ⟨-, _, nodes, ⟨⟩, hnodes, hitems⟩ := decode_ok h
  obtain ⟨⟨items, harray, hlength⟩, hplaces⟩ := he nodes hnodes
  obtain ⟨hsame, hdecoded⟩ := decodeItems_places hitems
  refine ⟨items, harray, hlength.trans hsame, fun i m hm => ?_⟩
  obtain ⟨x, hx, hdecode⟩ := hdecoded i m hm
  obtain ⟨n, rfl, hname, hvalue⟩ := MemberNode.decode_ok hdecode
  obtain ⟨hnamed, hvalued⟩ := hplaces i n hx
  exact ⟨hnamed m.name hname, hvalued m.value hvalue⟩

theorem ProcedureNode.complete_decode {name : Text} {node : Option ProcedureNode} {q : Procedure}
    (h : decode name node = .ok q) : ∀ t, q.Mentions t → t.Complete := by
  obtain ⟨p, nodes, -, -, hitems, hresult⟩ := decode_ok h
  rintro t (⟨q', hq', rfl⟩ | ht)
  · obtain ⟨i, hi⟩ := List.getElem?_of_mem hq'
    obtain ⟨x, -, hdecode⟩ := (decodeItems_places hitems).2 i q' hi
    obtain ⟨_, n, -, -, -, hn⟩ := ParameterNode.decode_ok hdecode
    exact DataType.complete_ofNode hn
  · obtain ⟨n, hn⟩ := hresult t ht
    exact DataType.complete_ofNode hn

end Wire

/-! ## Accepted documents -/

/-- What later stages rely on in a service that is declared by a value. -/
structure Service.Sound (v : Json) (s : Service) : Prop where
  procedures : ∀ e ∈ s.procedures.entries, e.2.name = e.1 ∧
    (∃ w ∈ v.select [.field "procedures", .entry e.1], e.2.Follows w) ∧ ∀ t, e.2.Mentions t → t.Complete
  classes : ∀ e ∈ s.classes.entries, e.2.name = e.1
  enumerations : ∀ e ∈ s.enumerations.entries, e.2.name = e.1 ∧ (e.2.members.map (·.name)).Nodup ∧
    ∃ w ∈ v.select [.field "enumerations", .entry e.1], e.2.Follows w

theorem Wire.ServiceNode.Source.sound {v : Json} {n : ServiceNode} {name : Text} {s : Service} (hn : n.Source v)
    (h : decode name (some n) = .ok s) : s.Sound v := by
  obtain ⟨-, _, ⟨⟩, hprocedures, hclasses, henumerations⟩ := decode_ok h
  refine ⟨fun e he => ?_, fun e he => ?_, fun e he => ?_⟩
  · obtain ⟨table, p, htable, hp, hdecode⟩ := hprocedures e he
    obtain ⟨p', _, rfl, -⟩ := ProcedureNode.decode_ok hdecode
    obtain ⟨w, hw, hsource⟩ := hn.1 table htable e.1 p' hp
    exact ⟨ProcedureNode.name_decode hdecode, ⟨w, hw, hsource.follows hdecode⟩, ProcedureNode.complete_decode hdecode⟩
  · obtain ⟨c, hdecode⟩ := hclasses e he
    exact ClassNode.name_decode hdecode
  · obtain ⟨table, m, htable, hm, hdecode⟩ := henumerations e he
    obtain ⟨hname, m', _, rfl, -⟩ := EnumNode.decode_ok hdecode
    obtain ⟨w, hw, hsource⟩ := hn.2 table htable e.1 m' hm
    exact ⟨hname, EnumNode.nodup_decode hdecode, w, hw, hsource.follows hdecode⟩

/-- Every service of an accepted document is named like its key and sound with regard to what stands under that name.
Its dependencies are found, and a type at any depth of a signature has no expression only if a node of it lacks
elements, a name or a service, which is what the fault says. -/
theorem Document.decode_establishes {t : Text} {services : Dict Service} (h : decode t = .ok services) :
    ∃ v, Json.parse? Wire.grammar (.table .service) t = some v ∧ ∀ e ∈ services.entries,
      e.2.name = e.1 ∧ (∃ w ∈ v.select [.entry e.1], e.2.Sound w) ∧
      (∃ deps, Binding.dependencies e.2 = .ok deps) ∧
      ∀ p ∈ e.2.procedures.entries, ∀ t, p.2.Mentions t → ∀ u, t.Holds u → ∀ own cause,
        Binding.resolve own u = .error cause → ∃ x, u.Holds x ∧ x.Lacks cause.root := by
  obtain ⟨v, table, hv, htable, hnodes⟩ := decode_ok h
  refine ⟨v, hv, fun e he => ?_⟩
  obtain ⟨node, hnode, hdecode⟩ := hnodes e he
  obtain ⟨hname, n, rfl, -⟩ := Wire.ServiceNode.decode_ok hdecode
  obtain ⟨w, hw, hsource⟩ := Wire.exists_source htable hnode
  have hsound := hsource.sound hdecode
  have hcomplete : ∀ p ∈ e.2.procedures.entries, ∀ t, p.2.Mentions t → t.Complete :=
    fun p hp => (hsound.procedures p hp).2.2
  refine ⟨hname, ⟨w, hw, hsound⟩, Binding.exists_dependencies hcomplete, ?_⟩
  intro p hp t ht u hu own cause hcause
  exact Binding.exists_lacks ((hcomplete p hp t ht).of_holds hu) (Binding.failsBy_of_resolve hcause)

open Render (passage passage_line passage_singleton)

def crewDocument : Text := passage
  ["⦃\"Crew\": ⦃\"id\": 1, \"procedures\": ⦃\"Hire\": ⦃\"id\": 1, \"parameters\": [",
   "  ⦃\"name\": \"rank\", \"type\": ⦃\"code\": \"ENUMERATION\", \"service\": \"Crew\", \"name\": \"Rank\"⦄⦄,",
   "  ⦃\"name\": \"hands\", \"type\": ⦃\"code\": \"LIST\", \"types\": [⦃\"code\": \"SET\", \"types\": []⦄]⦄⦄]⦄⦄,",
   "  \"classes\": ⦃⦄, \"enumerations\": ⦃\"Rank\": ⦃\"values\": [",
   "  ⦃\"name\": \"Mate\", \"value\": 1⦄, ⦃\"name\": \"Boy\", \"value\": 0⦄]⦄⦄⦄⦄"]

def Binding.cause? (own : Text) (t : DataType) : Option TypeFault :=
  match resolve own t with
  | .error cause => some cause
  | .ok _ => none

def Service.summary (s : Service) (procedure enumeration : Text) : Option (List (Option TypeFault) × List Text) :=
  (s.procedures.get? procedure).bind fun p => (s.enumerations.get? enumeration).map fun e =>
    ((Binding.signatureTypes p).map (Binding.cause? s.name), e.members.map (·.name))

set_option maxRecDepth 10000 in
theorem Document.decode_establishes_crew :
    ∃ services s p e t u w, decode crewDocument = .ok services ∧ services.get? "Crew" = some s ∧
      s.procedures.get? "Hire" = some p ∧ p.Mentions t ∧
      Binding.resolve s.name t = .error (.inElement .list (.notSingle .set 0)) ∧
      t.Holds u ∧ u.Lacks (.notSingle .set 0) ∧ s.enumerations.get? "Rank" = some e ∧
      e.members.map (·.name) = ["Mate", "Boy"] ∧ e.Follows w ∧ ∃ deps, Binding.dependencies s = .ok deps := by
  have hsummary : ((decode crewDocument).toOption.bind fun services => (services.get? "Crew").bind fun s =>
      s.summary "Hire" "Rank") =
      some ([none, some (.inElement .list (.notSingle .set 0))], [Text.ofString "Mate", Text.ofString "Boy"]) := by
    rw [crewDocument, passage_line <| passage_line <| passage_line <| passage_line <| passage_singleton _]
    decide +kernel
  obtain ⟨services, hservices, hsummary⟩ := Option.bind_eq_some_iff.mp hsummary
  obtain ⟨s, hs, hsummary⟩ := Option.bind_eq_some_iff.mp hsummary
  obtain ⟨p, hp, hsummary⟩ := Option.bind_eq_some_iff.mp hsummary
  obtain ⟨e, he, hsummary⟩ := Option.map_eq_some_iff.mp hsummary
  obtain ⟨hcauses, hnames⟩ := Prod.mk.inj hsummary
  have hmem : some (.inElement .list (.notSingle .set 0)) ∈ (Binding.signatureTypes p).map (Binding.cause? s.name) := by
    simp [hcauses]
  obtain ⟨t, hin, hcause⟩ := List.mem_map.mp hmem
  have ht := Binding.mem_signatureTypes.mp hin
  have hresolve : Binding.resolve s.name t = .error (.inElement .list (.notSingle .set 0)) := by
    unfold Binding.cause? at hcause
    split at hcause
    next cause heq => rw [heq, Option.some.inj hcause]
    next => cases hcause
  obtain ⟨v, -, hall⟩ := decode_establishes (toOption_eq_some.mp hservices)
  obtain ⟨-, ⟨_, -, hsound⟩, hdeps, hfails⟩ := hall _ (Dict.get?_eq_some_iff.mp hs)
  obtain ⟨u, hu, hlacks⟩ := hfails _ (Dict.get?_eq_some_iff.mp hp) t ht t (.self t) _ _ hresolve
  obtain ⟨-, -, w, -, hw⟩ := hsound.enumerations _ (Dict.get?_eq_some_iff.mp he)
  exact ⟨services, s, p, e, t, u, w, toOption_eq_some.mp hservices, hs, hp, ht, hresolve, hu, hlacks, he, hnames, hw, hdeps⟩

end RpcBindings
