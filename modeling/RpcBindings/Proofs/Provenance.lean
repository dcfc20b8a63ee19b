import RpcBindings.Proofs.Dict
import RpcBindings.Schema.Wire

/-!
# Where the fields of a document come from

A path leads from a JSON value to values inside it: to the entries of a name, to the fields of a name whatever the case
of its letters, or to the element at a place. What a reader finds stands at the path that its field, name and place give.
A repeated field is read into what an earlier one left, so that a path can lead to several values; places are never mixed.
-/

namespace RpcBindings

namespace Json

inductive Step where
  | entry (name : Text)
  | field (name : Text)
  | place (index : Nat)

def children : Step → Json → List Json
  | .entry name, .object members => (members.filter fun m => m.1 == name).map (·.2)
  | .field name, .object members => (members.filter fun m => Text.lowerAscii m.1 == name).map (·.2)
  | .place i, .array items => items[i]?.toList
  | _, _ => []

def select (v : Json) (path : List Step) : List Json := path.foldl (fun vs step => vs.flatMap (children step)) [v]

theorem mem_select_concat {v u w : Json} {path : List Step} {step : Step} (hu : u ∈ v.select path)
    (hw : w ∈ u.children step) : w ∈ v.select (path ++ [step]) := by
  rw [select, List.foldl_concat]
  exact List.mem_flatMap.mpr ⟨u, hu, hw⟩

theorem mem_children_entry {members : List (Text × Json)} {m : Text × Json} (h : m ∈ members) :
    m.2 ∈ children (.entry m.1) (.object members) :=
  List.mem_map.mpr ⟨m, List.mem_filter.mpr ⟨h, beq_self_eq_true m.1⟩, rfl⟩

theorem mem_children_field {members : List (Text × Json)} {m : Text × Json} (h : m ∈ members) :
    m.2 ∈ children (.field (Text.lowerAscii m.1)) (.object members) :=
  List.mem_map.mpr ⟨m, List.mem_filter.mpr ⟨h, beq_self_eq_true _⟩, rfl⟩

end Json

namespace Wire

open Json (Step)

/-! ## Readers -/

section

variable {α : Type} {v : Json}

theorem foldlM_some_invariant {β γ : Type} {step : β → γ → Option β} {P : β → Prop} {l : List γ}
    (hstep : ∀ b c b', c ∈ l → P b → step b c = some b' → P b') {b b' : β} (hb : P b) (h : l.foldlM step b = some b') :
    P b' := by
  induction l generalizing b with
  | nil => exact Option.some.inj h ▸ hb
  | cons c rest ih =>
    rw [List.foldlM_cons] at h
    obtain ⟨next, hnext, h⟩ := Option.bind_eq_some_iff.mp h
    exact ih (fun b c' b' hc' => hstep b c' b' (List.mem_cons_of_mem c hc')) (hstep b c next List.mem_cons_self hb hnext) h

theorem record?_invariant {blank r : α} {member : α → Text → Json → Option α} {old : Option α} {P : α → Prop}
    (hblank : P blank) (hold : ∀ x, old = some x → P x)
    (hmember : ∀ x key w x', w ∈ v.children (.field key) → P x → member x key w = some x' → P x')
    (h : record? blank member old v = some (some r)) : P r := by
  cases v with
  | object members =>
    obtain ⟨x, hx, heq⟩ := Option.map_eq_some_iff.mp h
    obtain rfl := Option.some.inj heq
    have hstart : P (old.getD blank) := by
      cases old with
      | none => exact hblank
      | some x => exact hold x rfl
    refine foldlM_some_invariant (fun x m x' hm hx hstep => ?_) hstart hx
    exact hmember x _ m.2 x' (Json.mem_children_field hm) hx hstep
  | _ => cases h

theorem items?_places {read : Option α → Json → Option (Option α)} {items : List Json} :
    ∀ {P : Nat → α → Prop} {olds xs : List (Option α)}, (∀ i y, olds[i]? = some (some y) → P i y) →
      (∀ i old w y, items[i]? = some w → (∀ x, old = some x → P i x) → read old w = some (some y) → P i y) →
      items? read olds items = some xs → items.length = xs.length ∧ ∀ i y, xs[i]? = some (some y) → P i y := by
  induction items with
  | nil =>
    intro P olds xs _ _ h
    obtain rfl := Option.some.inj h
    exact ⟨rfl, nofun⟩
  | cons w rest ih =>
    intro P olds xs holds hread h
    obtain ⟨x, hx, h⟩ := Option.bind_eq_some_iff.mp h
    obtain ⟨xs', hxs, h⟩ := Option.bind_eq_some_iff.mp h
    obtain rfl := Option.some.inj h
    have hhead : ∀ y, olds.head?.join = some y → P 0 y := by
      intro y hy
      refine holds 0 y ?_
      rw [← List.head?_eq_getElem?]
      exact Option.join_eq_some_iff.mp hy
    have htail : ∀ i y, olds.tail[i]? = some (some y) → P (i + 1) y := by
      intro i y hy
      rw [List.getElem?_tail] at hy
      exact holds (i + 1) y hy
    -- places in the rest are one further on in the whole, so the rest is read with `P` moved by one
    obtain ⟨hlength, hplaces⟩ := ih htail (fun i => hread (i + 1)) hxs
    refine ⟨congrArg (· + 1) hlength, fun i y hy => ?_⟩
    cases i with
    | zero => exact hread 0 _ w y rfl hhead (hx.trans hy)
    | succ i => exact hplaces i y hy

theorem table?_entries {read : Option α → Json → Option (Option α)} {old : Option (Dict (Option α))}
    {d : Dict (Option α)} {P : Text → α → Prop}
    (hold : ∀ d, old = some d → ∀ name a, d.get? name = some (some a) → P name a)
    (hread : ∀ name w a, w ∈ v.children (.entry name) → read none w = some (some a) → P name a)
    (h : table? read old v = some (some d)) : ∀ name a, d.get? name = some (some a) → P name a := by
  cases v with
  | object members =>
    obtain ⟨d', hd, heq⟩ := Option.map_eq_some_iff.mp h
    obtain rfl := Option.some.inj heq
    refine foldlM_some_invariant (P := fun d : Dict (Option α) => ∀ name a, d.get? name = some (some a) → P name a)
      (fun d m d' hm hd hstep => ?_) ?_ hd
    · obtain ⟨x, hx, rfl⟩ := Option.map_eq_some_iff.mp hstep
      intro name a ha
      rw [Dict.get?_insert] at ha
      split at ha
      next heq =>
        obtain rfl := Option.some.inj ha
        exact hread name m.2 a (heq ▸ Json.mem_children_entry hm) hx
      next => exact hd name a ha
    · cases old with
      | none => exact fun name a ha => by cases ha
      | some d => exact hold d rfl
  | _ => cases h

end

/-! ## Sources of wire shapes -/

section

variable {α : Type} {v w : Json} {path : List Step}

/-- A list that stands under a field: as long as an array that stands there, each element read at its own place. -/
def Listed (v : Json) (path : List Step) (field : Text) (Source : List Step → α → Prop)
    (nodes : Option (List (Option α))) : Prop :=
  ∀ xs, nodes = some xs → (∃ items, Json.array items ∈ v.select (path ++ [Step.field field]) ∧ items.length = xs.length) ∧
    ∀ i x, xs[i]? = some (some x) → Source (path ++ [Step.field field] ++ [Step.place i]) x

theorem Listed.list? {field : Text} {Source : List Step → α → Prop} {read : Option α → Json → Option (Option α)}
    {old nodes : Option (List (Option α))} (hold : Listed v path field Source old)
    (hw : w ∈ v.select (path ++ [Step.field field]))
    (hread : ∀ path u old x, u ∈ v.select path → (∀ y, old = some y → Source path y) → read old u = some (some x) →
      Source path x)
    (h : Wire.list? read old w = some nodes) : Listed v path field Source nodes := by
  intro xs hxs
  subst hxs
  cases w with
  | array items =>
    obtain ⟨xs', hitems, heq⟩ := Option.map_eq_some_iff.mp h
    obtain rfl := Option.some.inj heq
    have holds : ∀ i y, (old.getD [])[i]? = some (some y) → Source (path ++ [Step.field field] ++ [Step.place i]) y := by
      cases old with
      | none => exact nofun
      | some ys => exact (hold ys rfl).2
    have hstands : ∀ i u, items[i]? = some u → u ∈ v.select (path ++ [Step.field field] ++ [Step.place i]) :=
      fun i u hu => Json.mem_select_concat hw (by simp [Json.children, hu])
    obtain ⟨hlength, hplaces⟩ := items?_places holds (fun i old u y hu => hread _ u old y (hstands i u hu)) hitems
    exact ⟨⟨items, hw, hlength⟩, hplaces⟩
  | _ => cases h

/-! ## Types, parameters and members -/

def TypeNode.code : TypeNode → Option Text
  | .node code _ _ _ => code

def TypeNode.Source (v : Json) (path : List Step) (n : TypeNode) : Prop :=
  ∀ t, n.code = some t → Json.string t ∈ v.select (path ++ [Step.field "code"])

def ParameterNode.Source (v : Json) (path : List Step) (p : ParameterNode) : Prop :=
  (∀ t, p.name = some t → Json.string t ∈ v.select (path ++ [Step.field "name"])) ∧
    ∀ n, p.type = some n → n.Source v (path ++ [Step.field "type"])

def MemberNode.Source (v : Json) (path : List Step) (m : MemberNode) : Prop :=
  (∀ t, m.name = some t → Json.string t ∈ v.select (path ++ [Step.field "name"])) ∧
    ∀ x, m.value = some x → ∃ digits, Json.number digits ∈ v.select (path ++ [Step.field "value"]) ∧ word32? digits = some x

theorem text?_eq_some {t : Text} (h : text? w = some (some t)) : w = .string t := by
  cases w with
  | string u => rw [Option.some.inj (Option.some.inj h)]
  | _ => cases h

theorem number?_eq_some {x : UInt32} (h : number? w = some (some x)) : ∃ digits, w = .number digits ∧ word32? digits = some x := by
  cases w with
  | number digits =>
    obtain ⟨y, hy, heq⟩ := Option.map_eq_some_iff.mp h
    exact ⟨digits, rfl, Option.some.inj heq ▸ hy⟩
  | _ => cases h

theorem TypeNode.code_readMembers? {members : List (Text × Json)} : ∀ {n n' : TypeNode},
    readMembers? n members = some n' →
      n'.code = n.code ∨ ∃ m ∈ members, Text.lowerAscii m.1 = "code" ∧ text? m.2 = some n'.code := by
  induction members with
  | nil =>
    intro n n' h
    exact .inl (Option.some.inj h ▸ rfl)
  | cons m rest ih =>
    rintro ⟨code, service, name, types⟩ n' h
    have hlater : (∃ m' ∈ rest, Text.lowerAscii m'.1 = "code" ∧ text? m'.2 = some n'.code) →
        ∃ m' ∈ m :: rest, Text.lowerAscii m'.1 = "code" ∧ text? m'.2 = some n'.code :=
      fun ⟨m', hm', hcode⟩ => ⟨m', List.mem_cons_of_mem m hm', hcode⟩
    rw [readMembers?] at h
    -- the last member that is a code counts: one here only if none in the rest is
    split_ifs at h with hcode hservice hname htypes
    · obtain ⟨x, hx, h⟩ := Option.bind_eq_some_iff.mp h
      rcases ih h with heq | hin
      · exact .inr ⟨m, List.mem_cons_self, hcode, heq ▸ hx⟩
      · exact .inr (hlater hin)
    · obtain ⟨x, -, h⟩ := Option.bind_eq_some_iff.mp h
      exact (ih h).imp_right hlater
    · obtain ⟨x, -, h⟩ := Option.bind_eq_some_iff.mp h
      exact (ih h).imp_right hlater
    · obtain ⟨x, -, h⟩ := Option.bind_eq_some_iff.mp h
      exact (ih h).imp_right hlater
    · exact (ih h).imp_right hlater

theorem TypeNode.Source.read? {old : Option TypeNode} {n : TypeNode} (hold : ∀ m, old = some m → m.Source v path)
    (hw : w ∈ v.select path) (h : TypeNode.read? old w = some (some n)) : n.Source v path := by
  cases w with
  | object members =>
    rw [TypeNode.read?] at h
    obtain ⟨n', hn, heq⟩ := Option.map_eq_some_iff.mp h
    obtain rfl := Option.some.inj heq
    intro t ht
    rcases code_readMembers? hn with heq | ⟨m, hm, hkey, htext⟩
    · cases old with
      | none =>
        rw [heq] at ht
        cases ht
      | some m => exact hold m rfl t (heq ▸ ht)
    · rw [ht] at htext
      have hchild := Json.mem_children_field hm
      rw [hkey, text?_eq_some htext] at hchild
      exact Json.mem_select_concat hw hchild
  | _ => cases h

theorem ParameterNode.source_blank : ({} : ParameterNode).Source v path := ⟨nofun, nofun⟩

theorem MemberNode.source_blank : ({} : MemberNode).Source v path := ⟨nofun, nofun⟩

theorem ParameterNode.Source.member {p p' : ParameterNode} {u : Json} {key : Text} (hp : p.Source v path)
    (hu : u ∈ v.select path) (hw : w ∈ u.children (.field key)) (h : p.member key w = some p') : p'.Source v path := by
  have hplace := Json.mem_select_concat hu hw
  unfold ParameterNode.member at h
  split_ifs at h with hname htype
  · obtain ⟨x, hx, rfl⟩ := Option.map_eq_some_iff.mp h
    refine ⟨fun t ht => ?_, hp.2⟩
    obtain rfl : x = some t := ht
    rw [← text?_eq_some hx, ← hname]
    exact hplace
  · obtain ⟨x, hx, rfl⟩ := Option.map_eq_some_iff.mp h
    refine ⟨hp.1, fun n hn => ?_⟩
    obtain rfl : x = some n := hn
    rw [htype] at hplace
    exact TypeNode.Source.read? hp.2 hplace hx
  · exact Option.some.inj h ▸ hp

theorem MemberNode.Source.member {m m' : MemberNode} {u : Json} {key : Text} (hm : m.Source v path)
    (hu : u ∈ v.select path) (hw : w ∈ u.children (.field key)) (h : m.member key w = some m') : m'.Source v path := by
  have hplace := Json.mem_select_concat hu hw
  unfold MemberNode.member at h
  split_ifs at h with hname hvalue
  · obtain ⟨x, hx, rfl⟩ := Option.map_eq_some_iff.mp h
    refine ⟨fun t ht => ?_, hm.2⟩
    obtain rfl : x = some t := ht
    rw [← text?_eq_some hx, ← hname]
    exact hplace
  · obtain ⟨x, hx, rfl⟩ := Option.map_eq_some_iff.mp h
    refine ⟨hm.1, fun n hn => ?_⟩
    obtain rfl : x = some n := hn
    obtain ⟨digits, rfl, hdigits⟩ := number?_eq_some hx
    exact ⟨digits, hvalue ▸ hplace, hdigits⟩
  · exact Option.some.inj h ▸ hm

/-! ## Declarations -/

def ProcedureNode.Source (v : Json) (path : List Step) (p : ProcedureNode) : Prop :=
  Listed v path "parameters" (ParameterNode.Source v) p.parameters

def EnumNode.Source (v : Json) (path : List Step) (e : EnumNode) : Prop :=
  Listed v path "values" (MemberNode.Source v) e.values

theorem ProcedureNode.source_blank : ({} : ProcedureNode).Source v path := nofun

theorem EnumNode.source_blank : ({} : EnumNode).Source v path := nofun

theorem ProcedureNode.Source.member {p p' : ProcedureNode} {u : Json} {key : Text} (hp : p.Source v path)
    (hu : u ∈ v.select path) (hw : w ∈ u.children (.field key)) (h : p.member key w = some p') : p'.Source v path := by
  have hplace := Json.mem_select_concat hu hw
  by_cases hkey : key = "parameters"
  · subst hkey
    obtain ⟨x, hx, rfl⟩ := Option.map_eq_some_iff.mp h
    refine Listed.list? hp hplace (fun path u old x hu hold hx => ?_) hx
    exact record?_invariant ParameterNode.source_blank hold (fun y key w y' hw hy hy' => hy.member hu hw hy') hx
  · have hsame : p'.parameters = p.parameters := by
      unfold ProcedureNode.member at h
      split_ifs at h <;> grind [Option.map_eq_some_iff]
    unfold ProcedureNode.Source at hp ⊢
    rwa [hsame]

theorem EnumNode.Source.member {e e' : EnumNode} {u : Json} {key : Text} (he : e.Source v path)
    (hu : u ∈ v.select path) (hw : w ∈ u.children (.field key)) (h : e.member key w = some e') : e'.Source v path := by
  have hplace := Json.mem_select_concat hu hw
  by_cases hkey : key = "values"
  · subst hkey
    obtain ⟨x, hx, rfl⟩ := Option.map_eq_some_iff.mp h
    refine Listed.list? he hplace (fun path u old x hu hold hx => ?_) hx
    exact record?_invariant MemberNode.source_blank hold (fun y key w y' hw hy hy' => hy.member hu hw hy') hx
  · have hsame : e'.values = e.values := by
      unfold EnumNode.member at h
      split_ifs at h <;> grind [Option.map_eq_some_iff]
    unfold EnumNode.Source at he ⊢
    rwa [hsame]

/-! ## Services -/

def Tabled (v : Json) (field : Text) (Source : Json → α → Prop) (table : Option (Dict (Option α))) : Prop :=
  ∀ d, table = some d → ∀ name a, d.get? name = some (some a) → ∃ w ∈ v.select [.field field, .entry name], Source w a

theorem Tabled.table? {field : Text} {Source : Json → α → Prop} {read : Option α → Json → Option (Option α)}
    {old table : Option (Dict (Option α))} (hold : Tabled v field Source old) (hw : w ∈ v.children (.field field))
    (hread : ∀ u a, read none u = some (some a) → Source u a) (h : Wire.table? read old w = some table) :
    Tabled v field Source table := by
  intro d hd
  subst hd
  have hroot : v ∈ v.select [] := List.mem_singleton_self v
  refine table?_entries hold (fun name u a hu ha => ⟨u, ?_, hread u a ha⟩) h
  exact Json.mem_select_concat (Json.mem_select_concat hroot hw) hu

def ServiceNode.Source (v : Json) (s : ServiceNode) : Prop :=
  Tabled v "procedures" (fun w p => p.Source w []) s.procedures ∧
    Tabled v "enumerations" (fun w e => e.Source w []) s.enumerations

theorem ServiceNode.source_blank : ({} : ServiceNode).Source v := ⟨nofun, nofun⟩

theorem ServiceNode.Source.member {s s' : ServiceNode} {key : Text} (hs : s.Source v)
    (hw : w ∈ v.children (.field key)) (h : s.member key w = some s') : s'.Source v := by
  unfold ServiceNode.member at h
  split_ifs at h with _ _ hprocedures _ henumerations
  · obtain ⟨x, -, rfl⟩ := Option.map_eq_some_iff.mp h
    exact hs
  · obtain ⟨x, -, rfl⟩ := Option.map_eq_some_iff.mp h
    exact hs
  · obtain ⟨x, hx, rfl⟩ := Option.map_eq_some_iff.mp h
    refine ⟨Tabled.table? hs.1 (hprocedures ▸ hw) (fun u a ha => ?_) hx, hs.2⟩
    exact record?_invariant ProcedureNode.source_blank (by nofun)
      (fun y key w y' hw hy hy' => hy.member (List.mem_singleton_self u) hw hy') ha
  · obtain ⟨x, -, rfl⟩ := Option.map_eq_some_iff.mp h
    exact hs
  · obtain ⟨x, hx, rfl⟩ := Option.map_eq_some_iff.mp h
    refine ⟨hs.1, Tabled.table? hs.2 (henumerations ▸ hw) (fun u a ha => ?_) hx⟩
    exact record?_invariant EnumNode.source_blank (by nofun)
      (fun y key w y' hw hy hy' => hy.member (List.mem_singleton_self u) hw hy') ha
  · exact Option.some.inj h ▸ hs

theorem exists_source {table : Dict (Option ServiceNode)} (h : read? v = some (some table)) {name : Text}
    {s : ServiceNode} (hs : table.get? name = some (some s)) : ∃ w ∈ v.select [.entry name], s.Source w := by
  have hroot : v ∈ v.select [] := List.mem_singleton_self v
  refine table?_entries (P := fun name s => ∃ w ∈ v.select [.entry name], s.Source w)
    (by nofun) (fun name w a hw ha => ?_) h name s hs
  refine ⟨w, Json.mem_select_concat hroot hw, ?_⟩
  exact record?_invariant ServiceNode.source_blank (by nofun)
    (fun y key u y' hu hy hy' => hy.member hu hy') ha

end

end Wire

end RpcBindings
