import Mathlib.Data.List.Forall2
import RpcBindings.Proofs.Categories
import RpcBindings.Proofs.Dependencies

/-!
# The grammar of type nodes

The code of a node decides what else is asked of it: nothing of primitives and messages, a service and a name of
references, a list of nodes of containers. A node is converted exactly if this is there at every node that is visited on
the way down through containers; what is not asked for may be there or not. The type has the form of the visited nodes.
-/

namespace RpcBindings

namespace Code

def primitives : List Code := [bool, sint32, uint32, sint64, uint64, double, float, string, bytes]

def messages : List Code := [event, procedureCall, stream, services, status]

theorem groups (code : Code) : code ∈ primitives ∨ code ∈ messages ∨ (∃ referent : Referent, code = referent.code) ∨
    ∃ shape : Shape, code = shape.code := by
  cases code with
  | object => exact .inr (.inr (.inl ⟨.object, rfl⟩))
  | enumeration => exact .inr (.inr (.inl ⟨.enumeration, rfl⟩))
  | list => exact .inr (.inr (.inr ⟨.list, rfl⟩))
  | set => exact .inr (.inr (.inr ⟨.set, rfl⟩))
  | tuple => exact .inr (.inr (.inr ⟨.tuple, rfl⟩))
  | dictionary => exact .inr (.inr (.inr ⟨.dictionary, rfl⟩))
  | _ => simp [primitives, messages]

theorem referent_not_plain (referent : Referent) : referent.code ∉ primitives ∧ referent.code ∉ messages := by
  cases referent <;> decide

theorem shape_not_plain (shape : Shape) : shape.code ∉ primitives ∧ shape.code ∉ messages := by
  cases shape <;> decide

theorem shape_ne_referent (shape : Shape) (referent : Referent) : shape.code ≠ referent.code := by
  cases shape <;> cases referent <;> decide

end Code

namespace Wire.TypeNode

@[elab_as_elim]
theorem inductionOn {motive : TypeNode → Prop} (n : TypeNode)
    (node : ∀ spelling service name types, (∀ nodes, types = some nodes → ∀ m, some m ∈ nodes → motive m) →
      motive (.node spelling service name types)) : motive n :=
  match n with
  | .node spelling service name none => node spelling service name none nofun
  | .node spelling service name (some nodes) => node spelling service name (some nodes) fun _ heq m hm =>
    have _hin : some m ∈ nodes := Option.some.inj heq ▸ hm
    inductionOn m node
termination_by n
decreasing_by
  have hsmaller := List.sizeOf_lt_of_mem _hin
  simp only [Option.some.sizeOf_spec, TypeNode.node.sizeOf_spec] at hsmaller ⊢
  omega

def Proper : TypeNode → Prop
  | .node spelling service name types => ∃ s code, spelling = some s ∧ Code.parse? s = some code ∧
    (∀ referent : Referent, code = referent.code → service ≠ none ∧ name ≠ none) ∧
    ∀ shape : Shape, code = shape.code → ∃ nodes, types = some nodes ∧ none ∉ nodes

/-- The nodes that are looked at on the way down through containers. -/
inductive Visits : TypeNode → TypeNode → Prop
  | self (n : TypeNode) : Visits n n
  | inside {s : Text} {shape : Shape} {service name : Option Text} {nodes : List (Option TypeNode)} {n m : TypeNode} :
    Code.parse? s = some shape.code → some n ∈ nodes → Visits n m → Visits (.node (some s) service name (some nodes)) m

/-- A type in the form of a node. -/
inductive Mirrors : TypeNode → DataType → Prop
  | primitive {s : Text} {code : Code} {service name : Option Text} {types : Option (List (Option TypeNode))} :
    Code.parse? s = some code → code ∈ Code.primitives →
    Mirrors (.node (some s) service name types) (.primitive code.text)
  | message {s : Text} {code : Code} {service name : Option Text} {types : Option (List (Option TypeNode))} :
    Code.parse? s = some code → code ∈ Code.messages →
    Mirrors (.node (some s) service name types) (.message code.text)
  | reference {s : Text} {referent : Referent} {service name : Text} {types : Option (List (Option TypeNode))} :
    Code.parse? s = some referent.code →
    Mirrors (.node (some s) (some service) (some name) types) (.reference referent service name)
  | container {s : Text} {shape : Shape} {service name : Option Text} {nodes : List TypeNode} {ts : List DataType} :
    Code.parse? s = some shape.code → List.Forall₂ Mirrors nodes ts →
    Mirrors (.node (some s) service name (some (nodes.map some))) (.container shape ts)

end Wire.TypeNode

namespace DataType

open Wire (TypeNode)

section

variable {s : Text} {code : Code} {service name : Option Text} {types : Option (List (Option TypeNode))}

theorem ofNode_primitive (hs : Code.parse? s = some code) (hcode : code ∈ Code.primitives) :
    ofNode (.node (some s) service name types) = .ok (.primitive code.text) := by
  rw [ofNode, hs]
  revert hcode
  cases code <;> simp [Code.primitives, shape?, referent?, isMessageCode]

theorem ofNode_message (hs : Code.parse? s = some code) (hcode : code ∈ Code.messages) :
    ofNode (.node (some s) service name types) = .ok (.message code.text) := by
  rw [ofNode, hs]
  revert hcode
  cases code <;> simp [Code.messages, shape?, referent?, isMessageCode]

theorem ofNode_reference {referent : Referent} (hs : Code.parse? s = some referent.code) :
    ofNode (.node (some s) service name types) =
      match service, name with
      | none, _ => .error (.noService referent.code)
      | some _, none => .error (.noName referent.code)
      | some service, some name => .ok (.reference referent service name) := by
  rw [ofNode, hs]
  cases referent <;> rfl

theorem ofNode_container {shape : Shape} (hs : Code.parse? s = some shape.code) :
    ofNode (.node (some s) service name types) =
      match types with
      | none => .error (.noTypes shape.code)
      | some nodes => (ofNodes shape.code 0 nodes).map (.container shape) := by
  rw [ofNode, hs]
  cases shape <;> rfl

end

theorem ofNodes_ok_iff {nodes : List (Option TypeNode)}
    (h : ∀ m, some m ∈ nodes → ∀ t, ofNode m = .ok t ↔ m.Mirrors t) (code : Code) :
    ∀ index ts, ofNodes code index nodes = .ok ts ↔
      ∃ ms, nodes = ms.map some ∧ List.Forall₂ TypeNode.Mirrors ms ts := by
  induction nodes with
  | nil =>
    intro index ts
    rw [ofNodes]
    constructor
    · intro hts
      obtain rfl := Except.ok.inj hts
      exact ⟨[], rfl, .nil⟩
    · rintro ⟨ms, hms, hmirrors⟩
      obtain rfl := List.map_eq_nil_iff.mp hms.symm
      cases hmirrors
      rfl
  | cons node rest ih =>
    intro index ts
    have hrest := ih (fun m hm => h m (List.mem_cons_of_mem _ hm)) (index + 1)
    cases node with
    | none =>
      rw [ofNodes]
      refine ⟨nofun, ?_⟩
      rintro ⟨ms, hms, -⟩
      have hnull : none ∈ ms.map some := hms ▸ List.mem_cons_self
      simp at hnull
    | some n =>
      have hn := h n List.mem_cons_self
      simp only [ofNodes]
      constructor
      · intro hok
        split at hok
        next => cases hok
        next t ht =>
          obtain ⟨us, hus, rfl⟩ := map_eq_ok.mp hok
          obtain ⟨ms, rfl, hmirrors⟩ := (hrest us).mp hus
          exact ⟨n :: ms, rfl, .cons ((hn t).mp ht) hmirrors⟩
      · rintro ⟨ms, hms, hmirrors⟩
        obtain ⟨m, ms, rfl, heq, rfl⟩ := List.map_eq_cons_iff.mp hms.symm
        obtain rfl := Option.some.inj heq
        cases hmirrors with
        | cons ht hts =>
          rw [(hn _).mpr ht, (hrest _).mpr ⟨ms, rfl, hts⟩]
          rfl

theorem ofNode_ok_iff (n : TypeNode) (t : DataType) : ofNode n = .ok t ↔ n.Mirrors t := by
  induction n using TypeNode.inductionOn generalizing t with
  | node spelling service name types ih =>
    constructor
    · intro h
      cases spelling with
      | none =>
        rw [ofNode] at h
        cases h
      | some s =>
        cases hs : Code.parse? s with
        | none =>
          rw [ofNode, hs] at h
          cases h
        | some code =>
          rcases code.groups with hcode | hcode | ⟨referent, rfl⟩ | ⟨shape, rfl⟩
          · rw [ofNode_primitive hs hcode] at h
            obtain rfl := Except.ok.inj h
            exact .primitive hs hcode
          · rw [ofNode_message hs hcode] at h
            obtain rfl := Except.ok.inj h
            exact .message hs hcode
          · rw [ofNode_reference hs] at h
            split at h
            next => cases h
            next => cases h
            next service name =>
              obtain rfl := Except.ok.inj h
              exact .reference hs
          · rw [ofNode_container hs] at h
            split at h
            next => cases h
            next nodes =>
              obtain ⟨ts, hts, rfl⟩ := map_eq_ok.mp h
              obtain ⟨ms, rfl, hmirrors⟩ := (ofNodes_ok_iff (fun m hm => ih nodes rfl m hm) _ 0 ts).mp hts
              exact .container hs hmirrors
    · intro h
      cases h with
      | primitive hs hcode => exact ofNode_primitive hs hcode
      | message hs hcode => exact ofNode_message hs hcode
      | reference hs => exact ofNode_reference hs
      | @container s shape _ _ nodes ts hs hmirrors =>
        have hts := (ofNodes_ok_iff (fun m hm => ih _ rfl m hm) shape.code 0 ts).mpr ⟨nodes, rfl, hmirrors⟩
        rw [ofNode_container hs]
        exact map_eq_ok.mpr ⟨ts, hts, rfl⟩

end DataType

namespace Wire.TypeNode

/-! ## Visited nodes -/

theorem exists_map_some {α : Type} {xs : List (Option α)} (h : none ∉ xs) : ∃ ys : List α, ys.map some = xs := by
  induction xs with
  | nil => exact ⟨[], rfl⟩
  | cons x xs ih =>
    rw [List.mem_cons, not_or] at h
    obtain ⟨y, rfl⟩ := Option.ne_none_iff_exists'.mp (Ne.symm h.1)
    obtain ⟨ys, rfl⟩ := ih h.2
    exact ⟨y :: ys, rfl⟩

theorem exists_forall₂ {α β : Type} {R : α → β → Prop} {xs : List α} (h : ∀ x ∈ xs, ∃ y, R x y) :
    ∃ ys, List.Forall₂ R xs ys := by
  induction xs with
  | nil => exact ⟨[], .nil⟩
  | cons x xs ih =>
    obtain ⟨y, hy⟩ := h x List.mem_cons_self
    obtain ⟨ys, hys⟩ := ih fun x' hx' => h x' (List.mem_cons_of_mem x hx')
    exact ⟨y :: ys, .cons hy hys⟩

section

variable {s : Text} {code : Code} {service name : Option Text} {types : Option (List (Option TypeNode))}

theorem proper_of_plain (hs : Code.parse? s = some code) (hcode : code ∈ Code.primitives ∨ code ∈ Code.messages) :
    Proper (.node (some s) service name types) := by
  refine ⟨s, code, rfl, hs, ?_, ?_⟩
  · rintro referent rfl
    have hnot := Code.referent_not_plain referent
    tauto
  · rintro shape rfl
    have hnot := Code.shape_not_plain shape
    tauto

theorem proper_of_reference {referent : Referent} (hs : Code.parse? s = some referent.code) (hservice : service ≠ none)
    (hname : name ≠ none) : Proper (.node (some s) service name types) :=
  ⟨s, referent.code, rfl, hs, fun _ _ => ⟨hservice, hname⟩,
    fun shape heq => absurd heq.symm (Code.shape_ne_referent shape referent)⟩

theorem proper_of_container {shape : Shape} {nodes : List (Option TypeNode)} (hs : Code.parse? s = some shape.code)
    (hnodes : none ∉ nodes) : Proper (.node (some s) service name (some nodes)) :=
  ⟨s, shape.code, rfl, hs, fun referent heq => absurd heq (Code.shape_ne_referent shape referent),
    fun _ _ => ⟨nodes, rfl, hnodes⟩⟩

end

theorem Mirrors.proper {n : TypeNode} {t : DataType} (h : n.Mirrors t) : n.Proper := by
  cases h with
  | primitive hs hcode => exact proper_of_plain hs (.inl hcode)
  | message hs hcode => exact proper_of_plain hs (.inr hcode)
  | reference hs => exact proper_of_reference hs nofun nofun
  | container hs _ => exact proper_of_container hs (by simp)

theorem Mirrors.of_mem {s : Text} {shape : Shape} {service name : Option Text} {nodes : List (Option TypeNode)}
    {t : DataType} {n : TypeNode} (h : Mirrors (.node (some s) service name (some nodes)) t)
    (hs : Code.parse? s = some shape.code) (hn : some n ∈ nodes) : ∃ u, n.Mirrors u := by
  cases h with
  | primitive hs' hcode =>
    obtain rfl := Option.some.inj (hs'.symm.trans hs)
    exact absurd hcode (Code.shape_not_plain shape).1
  | message hs' hcode =>
    obtain rfl := Option.some.inj (hs'.symm.trans hs)
    exact absurd hcode (Code.shape_not_plain shape).2
  | reference hs' => exact absurd (Option.some.inj (hs.symm.trans hs')) (Code.shape_ne_referent shape _)
  | container _ hmirrors =>
    obtain ⟨m, hm, heq⟩ := List.mem_map.mp hn
    obtain rfl := Option.some.inj heq
    obtain ⟨u, -, hu⟩ := Binding.exists_of_mem_left hmirrors hm
    exact ⟨u, hu⟩

theorem Mirrors.visits {n m : TypeNode} (hvisits : n.Visits m) : ∀ {t : DataType}, n.Mirrors t → ∃ u, m.Mirrors u := by
  induction hvisits with
  | self n => exact fun h => ⟨_, h⟩
  | inside hs hn _ ih =>
    intro t h
    obtain ⟨u, hu⟩ := h.of_mem hs hn
    exact ih hu

theorem exists_mirrors {n : TypeNode} (h : ∀ m, n.Visits m → m.Proper) : ∃ t, n.Mirrors t := by
  induction n using TypeNode.inductionOn with
  | node spelling service name types ih =>
    obtain ⟨s, code, rfl, hs, hreference, hcontainer⟩ := h _ (.self _)
    rcases code.groups with hcode | hcode | ⟨referent, rfl⟩ | ⟨shape, rfl⟩
    · exact ⟨_, .primitive hs hcode⟩
    · exact ⟨_, .message hs hcode⟩
    · obtain ⟨hservice, hname⟩ := hreference referent rfl
      obtain ⟨service, rfl⟩ := Option.ne_none_iff_exists'.mp hservice
      obtain ⟨name, rfl⟩ := Option.ne_none_iff_exists'.mp hname
      exact ⟨_, .reference hs⟩
    · obtain ⟨nodes, rfl, hnull⟩ := hcontainer shape rfl
      obtain ⟨ms, rfl⟩ := exists_map_some hnull
      have heach : ∀ m ∈ ms, ∃ t, m.Mirrors t := by
        intro m hm
        have hin := List.mem_map_of_mem (f := some) hm
        exact ih _ rfl m hin fun k hk => h k (.inside hs hin hk)
      obtain ⟨ts, hts⟩ := exists_forall₂ heach
      exact ⟨_, .container hs hts⟩

/-- A node is converted exactly if it and the nodes visited below it have what their codes ask for. The type then has the
form of the nodes with their codes, services and names, and it is the only one in that form; any failure is that of a
malformed type. -/
theorem ofNode_exact (n : TypeNode) :
    ((∃ t, DataType.ofNode n = .ok t) ↔ ∀ m, n.Visits m → m.Proper) ∧
      (∀ t, DataType.ofNode n = .ok t ↔ n.Mirrors t) ∧
      ∀ cause, DataType.ofNode n = .error cause → cause.fault.Only .malformedType := by
  refine ⟨?_, DataType.ofNode_ok_iff n, fun cause _ => cause.only_fault⟩
  constructor
  · rintro ⟨t, ht⟩ m hm
    obtain ⟨u, hu⟩ := Mirrors.visits hm ((DataType.ofNode_ok_iff n t).mp ht)
    exact hu.proper
  · intro h
    obtain ⟨t, ht⟩ := exists_mirrors h
    exact ⟨t, (DataType.ofNode_ok_iff n t).mpr ht⟩

end Wire.TypeNode

end RpcBindings
