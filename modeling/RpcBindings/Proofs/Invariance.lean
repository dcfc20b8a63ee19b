import RpcBindings.Proofs.Documents
import RpcBindings.Proofs.Interchange
import RpcBindings.Proofs.Reading

/-!
# Decoding and the order of members

A document decodes to the same services, or to the same fault, in whatever order its objects list their members, as long
as no two members of an object are kept under one name. The order in which classes are looked at shows in one case only:
where a service has several classes that are null, any of them may be named by the fault.
-/

namespace RpcBindings

/-! ## Classes in any order -/

namespace Wire

variable {entries entries' : List (Text × Option ClassNode)}

def decodeClasses (entries : List (Text × Option ClassNode)) : Except DecodeFault (Dict ClassDecl) :=
  decodeEntries (fun _ r => r) ClassNode.decode entries

theorem decodeClasses_null (h : ∃ e ∈ entries, e.2 = none) :
    ∃ x, (x, none) ∈ entries ∧ decodeClasses entries = .error (.nullClass x) := by
  unfold decodeClasses decodeEntries
  generalize (Dict.empty : Dict ClassDecl) = d
  induction entries generalizing d with
  | nil => simp at h
  | cons e entries ih =>
    obtain ⟨name, node⟩ := e
    cases node with
    | none => exact ⟨name, List.mem_cons_self, rfl⟩
    | some node =>
      have hrest : ∃ e ∈ entries, e.2 = none := by simpa using h
      obtain ⟨x, hx, hfold⟩ := ih hrest (d.insert name ⟨name, node.documentation⟩)
      exact ⟨x, List.mem_cons_of_mem _ hx, hfold⟩

theorem decodeClasses_solid (h : ∀ e ∈ entries, e.2 ≠ none) :
    decodeClasses entries =
      .ok (entries.foldl (fun d e => d.insert e.1 ⟨e.1, (e.2.getD {}).documentation⟩) Dict.empty) := by
  unfold decodeClasses decodeEntries
  generalize (Dict.empty : Dict ClassDecl) = d
  induction entries generalizing d with
  | nil => rfl
  | cons e entries ih =>
    rw [List.forall_mem_cons] at h
    obtain ⟨name, node⟩ := e
    cases node with
    | none => exact absurd rfl h.1
    | some node => exact ih h.2 _

theorem decodeClasses_perm (h : entries.Perm entries') (hkeys : (entries.map Prod.fst).Nodup) :
    decodeClasses entries = decodeClasses entries' ∨
      ∃ x y, x ≠ y ∧ (x, none) ∈ entries ∧ (y, none) ∈ entries ∧ decodeClasses entries = .error (.nullClass x) ∧
        decodeClasses entries' = .error (.nullClass y) := by
  by_cases hnull : ∃ e ∈ entries, e.2 = none
  · have hnull' : ∃ e ∈ entries', e.2 = none := by
      obtain ⟨e, he, hnone⟩ := hnull
      exact ⟨e, h.mem_iff.mp he, hnone⟩
    obtain ⟨x, hx, hfault⟩ := decodeClasses_null hnull
    obtain ⟨y, hy, hfault'⟩ := decodeClasses_null hnull'
    by_cases hxy : x = y
    · exact .inl (by rw [hfault, hfault', hxy])
    · exact .inr ⟨x, y, hxy, hx, h.mem_iff.mpr hy, hfault, hfault'⟩
  · have hsolid : ∀ e ∈ entries, e.2 ≠ none := fun e he hnone => hnull ⟨e, he, hnone⟩
    have hsolid' : ∀ e ∈ entries', e.2 ≠ none := fun e he => hsolid e (h.mem_iff.mpr he)
    rw [decodeClasses_solid hsolid, decodeClasses_solid hsolid']
    refine .inl (congrArg Except.ok (h.foldl_eq' (fun e he e' he' d => ?_) _))
    by_cases hname : e.1 = e'.1
    · rw [List.inj_on_of_nodup_map hkeys he he' hname]
    · exact Dict.insert_comm d hname _ _

def Arrangement.Permutes (arrange : Arrangement) : Prop := ∀ name classes, (arrange name classes).Perm classes

variable {arrange arrange' : Arrangement}

def NullClass (node : Option ServiceNode) (x : Text) : Prop :=
  ∃ n classes, node = some n ∧ n.classes = some classes ∧ classes.get? x = some none

theorem ServiceNode.decodeIn_arranged (h : arrange.Permutes) (h' : arrange'.Permutes) (name : Text)
    (node : Option ServiceNode) :
    decodeIn arrange name node = decodeIn arrange' name node ∨
      ∃ x y, x ≠ y ∧ NullClass node x ∧ NullClass node y ∧ decodeIn arrange name node = .error (.nullClass x) ∧
        decodeIn arrange' name node = .error (.nullClass y) := by
  cases node with
  | none => exact .inl rfl
  | some n =>
    obtain ⟨id, documentation, procedures, classes, enumerations⟩ := n
    cases id with
    | none => exact .inl rfl
    | some id =>
    cases procedures with
    | none => exact .inl rfl
    | some procedures =>
    cases classes with
    | none => exact .inl rfl
    | some classes =>
    cases enumerations with
    | none => exact .inl rfl
    | some enumerations =>
    have hclasses (arrange : Arrangement) : decodeIn arrange name
        (some ⟨some id, documentation, some procedures, some classes, some enumerations⟩) =
        (decodeTable (fun n => inContext ("procedure " ++ Text.guarded n)) ProcedureNode.decode procedures).bind fun ps =>
          (decodeClasses (arrange name classes.entries)).bind fun cs =>
            (decodeTable (fun n => inContext ("enumeration " ++ Text.guarded n)) EnumNode.decode enumerations).bind fun es =>
              .ok ⟨name, id, documentation, ps, cs, es⟩ := rfl
    rw [hclasses, hclasses]
    cases decodeTable (fun n => inContext ("procedure " ++ Text.guarded n)) ProcedureNode.decode procedures with
    | error fault => exact .inl rfl
    | ok ps =>
      have hperm : (arrange name classes.entries).Perm (arrange' name classes.entries) := (h _ _).trans (h' _ _).symm
      have hkeys : ((arrange name classes.entries).map Prod.fst).Nodup :=
        ((h name classes.entries).map _).nodup_iff.mpr classes.nodup_keys
      have hnull {x : Text} (hx : (x, none) ∈ arrange name classes.entries) :
          NullClass (some ⟨some id, documentation, some procedures, some classes, some enumerations⟩) x :=
        ⟨_, classes, rfl, rfl, Dict.get?_eq_some_iff.mpr ((h name classes.entries).mem_iff.mp hx)⟩
      rcases decodeClasses_perm hperm hkeys with heq | ⟨x, y, hne, hx, hy, hfault, hfault'⟩
      · exact .inl (by rw [heq])
      · exact .inr ⟨x, y, hne, hnull hx, hnull hy, by rw [hfault]; rfl, by rw [hfault']; rfl⟩

theorem decodeEntries_alike {α β : Type} (context : Text → Except DecodeFault β → Except DecodeFault β)
    (decode decode' : Text → α → Except DecodeFault β) (Differ : Text → α → DecodeFault → DecodeFault → Prop)
    (entries : List (Text × α))
    (h : ∀ e ∈ entries, context e.1 (decode e.1 e.2) = context e.1 (decode' e.1 e.2) ∨
      ∃ f f', Differ e.1 e.2 f f' ∧ context e.1 (decode e.1 e.2) = .error f ∧ context e.1 (decode' e.1 e.2) = .error f') :
    decodeEntries context decode entries = decodeEntries context decode' entries ∨
      ∃ e ∈ entries, ∃ f f', Differ e.1 e.2 f f' ∧ decodeEntries context decode entries = .error f ∧
        decodeEntries context decode' entries = .error f' := by
  unfold decodeEntries
  generalize (Dict.empty : Dict β) = d
  induction entries generalizing d with
  | nil => exact .inl rfl
  | cons e entries ih =>
    rw [List.forall_mem_cons] at h
    rw [List.foldlM_cons, List.foldlM_cons]
    rcases h.1 with heq | ⟨f, f', hdiffer, hfault, hfault'⟩
    · rw [← heq]
      cases context e.1 (decode e.1 e.2) with
      | error fault => exact .inl rfl
      | ok b =>
        rcases ih h.2 (d.insert e.1 b) with heq | ⟨e', he', f, f', hdiffer, hfault, hfault'⟩
        · exact .inl heq
        · exact .inr ⟨e', List.mem_cons_of_mem _ he', f, f', hdiffer, hfault, hfault'⟩
    · refine .inr ⟨e, List.mem_cons_self, f, f', hdiffer, ?_, ?_⟩
      · rw [hfault]
        rfl
      · rw [hfault']
        rfl

end Wire

namespace Document

open Wire

variable {arrange arrange' : Arrangement}

def NullClass (t service x : Text) : Prop :=
  ∃ v table node, Json.parse? grammar (.table .service) t = some v ∧ read? v = some (some table) ∧
    table.get? service = some node ∧ Wire.NullClass node x

def nullClassFault (service x : Text) : DecodeFault := .within ("service " ++ Text.guarded service) (.nullClass x)

/-- Faults that name different null classes of a service. -/
def Clash (service : Text) (node : Option ServiceNode) (f f' : DecodeFault) : Prop :=
  ∃ x y, x ≠ y ∧ Wire.NullClass node x ∧ Wire.NullClass node y ∧ f = nullClassFault service x ∧
    f' = nullClassFault service y

theorem service_arranged (h : arrange.Permutes) (h' : arrange'.Permutes) (name : Text) (node : Option ServiceNode) :
    inContext ("service " ++ Text.guarded name) (ServiceNode.decodeIn arrange name node) =
        inContext ("service " ++ Text.guarded name) (ServiceNode.decodeIn arrange' name node) ∨
      ∃ f f', Clash name node f f' ∧
        inContext ("service " ++ Text.guarded name) (ServiceNode.decodeIn arrange name node) = .error f ∧
        inContext ("service " ++ Text.guarded name) (ServiceNode.decodeIn arrange' name node) = .error f' := by
  rcases ServiceNode.decodeIn_arranged h h' name node with heq | ⟨x, y, hne, hx, hy, hfault, hfault'⟩
  · exact .inl (by rw [heq])
  · refine .inr ⟨_, _, ⟨x, y, hne, hx, hy, rfl, rfl⟩, ?_, ?_⟩
    · rw [hfault]
      rfl
    · rw [hfault']
      rfl

theorem decodeIn_arranged (h : arrange.Permutes) (h' : arrange'.Permutes) (t : Text) :
    decodeIn arrange t = decodeIn arrange' t ∨
      ∃ service x y, x ≠ y ∧ NullClass t service x ∧ NullClass t service y ∧
        decodeIn arrange t = .error (nullClassFault service x) ∧
        decodeIn arrange' t = .error (nullClassFault service y) := by
  unfold decodeIn
  cases hparse : Json.parse? grammar (.table .service) t with
  | none => exact .inl rfl
  | some v =>
    simp only [ofJsonIn?]
    cases hread : read? v with
    | none => exact .inl rfl
    | some table? =>
      cases table? with
      | none => exact .inl rfl
      | some table =>
        have hservices := decodeEntries_alike (fun n => inContext ("service " ++ Text.guarded n))
          (ServiceNode.decodeIn arrange) (ServiceNode.decodeIn arrange') Clash table.entries
          fun e _ => service_arranged h h' e.1 e.2
        rcases hservices with heq | ⟨e, he, f, f', hclash, hfault, hfault'⟩
        · exact .inl heq
        · obtain ⟨x, y, hne, hx, hy, rfl, rfl⟩ := hclash
          have hnull {x : Text} (hx : Wire.NullClass e.2 x) : NullClass t e.1 x :=
            ⟨v, table, e.2, hparse, hread, Dict.get?_eq_some_iff.mpr he, hx⟩
          exact .inr ⟨e.1, x, y, hne, hnull hx, hnull hy, hfault, hfault'⟩

theorem decodeIn_reordered {a b : Json.Script} {t u : Text} (hapart : a.Apart grammar (.table .service))
    (h : a.Reordered b) (ht : a.Spells t) (hu : b.Spells u) (arrange : Arrangement) :
    decodeIn arrange t = decodeIn arrange u := by
  unfold decodeIn
  rw [Json.parse?_eq grammar Record.service ht, Json.parse?_eq grammar Record.service hu]
  rcases Json.rel_cases (h.alike (.table Record.service) 0 hapart) with ⟨hv, hw⟩ | ⟨v, w, hv, hw, halike⟩
  · rw [hv, hw]
  · rw [hv, hw]
    simp only [ofJsonIn?, read?_of_alike halike]

/-- If the keys of objects are distinct and no key of a record has a character that is written by its number, then no two
members of an object are kept under one name. Where this is so the order of members does not matter, and the order in
which classes are looked at shows only in which one of several null classes of a service is named. -/
theorem decode_order_free {a b : Json.Script} {t u : Text} (h : a.Reordered b) (ht : a.Spells t) (hu : b.Spells u)
    {arrange arrange' : Arrangement} (harrange : arrange.Permutes) (harrange' : arrange'.Permutes) :
    (a.Distinct grammar (.table .service) → a.Direct grammar (.table .service) → a.Apart grammar (.table .service)) ∧
      (a.Apart grammar (.table .service) →
        decode t = decode u ∧
          (decodeIn arrange t = decodeIn arrange' u ∨
            ∃ service x y, x ≠ y ∧ NullClass u service x ∧ NullClass u service y ∧
              decodeIn arrange t = .error (nullClassFault service x) ∧
              decodeIn arrange' u = .error (nullClassFault service y))) := by
  refine ⟨fun hdistinct hdirect => hdistinct.apart hdirect, fun hapart => ?_⟩
  have hsame := decodeIn_reordered hapart h ht hu
  refine ⟨hsame .byName, ?_⟩
  rw [hsame arrange]
  exact decodeIn_arranged harrange harrange' u

/-! ### Documents in two orders -/

def fault? {α : Type} : Except DecodeFault α → Option DecodeFault
  | .error f => some f
  | .ok _ => none

theorem fault?_eq_some {α : Type} {r : Except DecodeFault α} {f : DecodeFault} (h : fault? r = some f) : r = .error f := by
  cases r with
  | error f' => rw [Option.some.inj h]
  | ok a => cases h

def plainly (t : Text) : List Json.Sign :=
  t.filterMap fun b => if h : b ≠ 0 ∧ b ≠ 34 ∧ b ≠ 92 then some (.plain b h) else none

def one : Json.Script := .number ⟨49, [], .inl rfl, by simp⟩

def dockMembers (parameter : Json.Script) : List (List Json.Sign × Json.Script) :=
  [(plainly "id", one),
   (plainly "procedures",
     .object [(plainly "Moor", .object [(plainly "id", one), (plainly "parameters", .array [parameter])])]),
   (plainly "classes", .object [(plainly "Crane", .object []), (plainly "Berth", .object [])]),
   (plainly "enumerations", .object [])]

def dockParameter : List (List Json.Sign × Json.Script) :=
  [(plainly "name", .string (plainly "x")), (plainly "type", .object [(plainly "code", .string (plainly "BOOL"))])]

def dock : Json.Script := .object [(plainly "Dock", .object (dockMembers (.object dockParameter)))]

def dockTurned : Json.Script := .object [(plainly "Dock", .object (dockMembers (.object dockParameter.reverse)).reverse)]

theorem reordered_dock : dock.Reordered dockTurned := by
  have hparameter : (Json.Script.object dockParameter).Reordered (.object dockParameter.reverse) :=
    .members (List.reverse_perm _).symm
  have hmoor := @Json.Script.Reordered.member [(plainly "id", one)] [] (plainly "parameters") _ _
    (@Json.Script.Reordered.item [] [] _ _ hparameter)
  have hservice := @Json.Script.Reordered.member [(plainly "id", one)] ((dockMembers one).drop 2) (plainly "procedures") _ _
    (@Json.Script.Reordered.member [] [] (plainly "Moor") _ _ hmoor)
  exact @Json.Script.Reordered.member [] [] (plainly "Dock") _ _ (hservice.trans (.members (List.reverse_perm _).symm))

def backwards : Arrangement := fun _ classes => classes.reverse

theorem byName_permutes : Arrangement.byName.Permutes := fun _ _ => .refl _

theorem backwards_permutes : backwards.Permutes := fun _ _ => List.reverse_perm _

theorem decode_order_free_dock :
    dock.Distinct grammar (.table .service) ∧ dock.Direct grammar (.table .service) ∧
      (decode dock.text).toOption.isSome = true ∧ decode dock.text = decode dockTurned.text ∧
      (decodeIn .byName dock.text = decodeIn backwards dockTurned.text ∨
        ∃ service x y, x ≠ y ∧ NullClass dockTurned.text service x ∧ NullClass dockTurned.text service y ∧
          decodeIn .byName dock.text = .error (nullClassFault service x) ∧
          decodeIn backwards dockTurned.text = .error (nullClassFault service y)) := by
  have hdistinct : dock.Distinct grammar (.table .service) := by decide +kernel
  have hdirect : dock.Direct grammar (.table .service) := by decide +kernel
  have hfree := decode_order_free reordered_dock dock.spells_text dockTurned.spells_text byName_permutes backwards_permutes
  exact ⟨hdistinct, hdirect, by decide +kernel, hfree.2 (hfree.1 hdistinct hdirect)⟩

def buoyMembers : List (List Json.Sign × Json.Script) :=
  [(plainly "id", one), ([.unit 48 48 54 57 (List.all_eq_true.mp rfl)], .null), (plainly "procedures", .object []),
   (plainly "classes", .object []), (plainly "enumerations", .object [])]

def buoy : Json.Script := .object [(plainly "Buoy", .object buoyMembers)]

def buoyTurned : Json.Script := .object [(plainly "Buoy", .object buoyMembers.reverse)]

def wreck : Json.Script :=
  .object [(plainly "Wreck", .object [(plainly "id", one), (plainly "procedures", .object []),
    (plainly "classes", .object [(plainly "Bow", .null), (plainly "Stern", .null)]), (plainly "enumerations", .object [])])]

/-- Keys may be distinct and still be kept under one name: the key `i` stands for the field `id` when its letter is written
as the number of a character. Then the last of the two counts. And where two classes are null, the one that is looked at
first is named. -/
theorem decode_order_matters :
    (buoy.Distinct grammar (.table .service) ∧ buoy.Reordered buoyTurned ∧
      decode buoy.text = .error (.within "service Buoy" (.noField "id")) ∧
      (decode buoyTurned.text).toOption.isSome = true) ∧
    wreck.Distinct grammar (.table .service) ∧ wreck.Direct grammar (.table .service) ∧
      decodeIn .byName wreck.text = .error (nullClassFault "Wreck" "Bow") ∧
      decodeIn backwards wreck.text = .error (nullClassFault "Wreck" "Stern") := by
  refine ⟨⟨by decide +kernel, ?_, fault?_eq_some (by decide +kernel), by decide +kernel⟩, by decide +kernel,
    by decide +kernel, fault?_eq_some (by decide +kernel), fault?_eq_some (by decide +kernel)⟩
  exact @Json.Script.Reordered.member [] [] _ _ _ (.members (List.reverse_perm _).symm)

end Document

end RpcBindings
