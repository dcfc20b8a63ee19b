import RpcBindings.Proofs.Arms
import RpcBindings.Proofs.Categories
import RpcBindings.Proofs.Declarations

/-!
# The wire values of enumerations

A service is refused exactly if one of its enumerations has a value of more than 31 bits. Else every value is kept as it
was declared, and the arms that are generated for an enumeration lead from a value to a member and back, as far as members
that share an identifier share their value.
-/

namespace RpcBindings

namespace Binding

theorem toInt_toInt32 {v : UInt32} (h : v.toNat ≤ 2147483647) : v.toInt32.toInt = v.toNat := by
  have hlt : 2 * v.toBitVec.toNat < 2 ^ 32 := by
    have hbits : v.toBitVec.toNat = v.toNat := rfl
    omega
  exact BitVec.toInt_eq_toNat_of_lt hlt

theorem buildMembers_of_le {enumeration : Text} {members : List Member}
    (h : ∀ m ∈ members, m.value.toNat ≤ 2147483647) :
    buildMembers enumeration members = .ok (members.map fun m => ⟨m.name, m.value.toInt32⟩) := by
  induction members with
  | nil => rfl
  | cons m rest ih =>
    rw [buildMembers, if_pos (h m List.mem_cons_self), ih fun m' hm' => h m' (List.mem_cons_of_mem m hm')]
    rfl

theorem buildMembers_error {enumeration : Text} {members : List Member} {f : EnumFault}
    (h : buildMembers enumeration members = .error f) :
    ∃ m ∈ members, 2147483647 < m.value.toNat ∧ f = ⟨enumeration, m.name⟩ := by
  induction members with
  | nil => cases h
  | cons m rest ih =>
    rw [buildMembers] at h
    split at h
    next =>
      cases hrest : buildMembers enumeration rest with
      | error f' =>
        rw [hrest] at h
        obtain rfl := Except.error.inj h
        obtain ⟨m', hm', hvalue⟩ := ih hrest
        exact ⟨m', List.mem_cons_of_mem m hm', hvalue⟩
      | ok values =>
        rw [hrest] at h
        cases h
    next hlarge => exact ⟨m, List.mem_cons_self, Nat.lt_of_not_le hlarge, (Except.error.inj h).symm⟩

theorem buildMembers_ok_iff {enumeration : Text} {members : List Member} {values : List EnumMember} :
    buildMembers enumeration members = .ok values ↔
      (∀ m ∈ members, m.value.toNat ≤ 2147483647) ∧ values = members.map fun m => ⟨m.name, m.value.toInt32⟩ := by
  constructor
  · intro h
    have hall : ∀ m ∈ members, m.value.toNat ≤ 2147483647 := by
      induction members generalizing values with
      | nil => simp
      | cons m rest ih =>
        rw [buildMembers] at h
        split at h
        next hm =>
          obtain ⟨tail, htail, -⟩ := map_eq_ok.mp h
          exact List.forall_mem_cons.mpr ⟨hm, ih htail⟩
        next => cases h
    rw [buildMembers_of_le hall] at h
    exact ⟨hall, (Except.ok.inj h).symm⟩
  · rintro ⟨hall, rfl⟩
    exact buildMembers_of_le hall

section

variable {s : Service} {enums : List EnumDef}

theorem buildEnums_error {f : EnumFault} (h : buildEnums s = .error f) :
    ∃ e ∈ s.enumerations.entries, ∃ m ∈ e.2.members, 2147483647 < m.value.toNat ∧ f = ⟨e.1, m.name⟩ := by
  obtain ⟨e, he, hfails⟩ := error_of_mapM h
  cases hmembers : buildMembers e.1 e.2.members with
  | error f' =>
    simp only [hmembers] at hfails
    obtain rfl := Except.error.inj hfails
    exact ⟨e, he, buildMembers_error hmembers⟩
  | ok values =>
    simp only [hmembers] at hfails
    cases hfails

theorem members_of_buildEnums (h : buildEnums s = .ok enums) :
    ∀ e ∈ s.enumerations.entries, ∀ m ∈ e.2.members, m.value.toNat ≤ 2147483647 := by
  intro e he
  obtain ⟨d, -, hd⟩ := (mem_of_mapM h).1 e he
  obtain ⟨values, hvalues, -⟩ := map_eq_ok.mp hd
  exact (buildMembers_ok_iff.mp hvalues).1

theorem exists_buildEnums_error_iff :
    (∃ f, buildEnums s = .error f) ↔
      ∃ e ∈ s.enumerations.entries, ∃ m ∈ e.2.members, 2147483647 < m.value.toNat := by
  constructor
  · rintro ⟨f, hf⟩
    obtain ⟨e, he, m, hm, hlarge, -⟩ := buildEnums_error hf
    exact ⟨e, he, m, hm, hlarge⟩
  · rintro ⟨e, he, m, hm, hlarge⟩
    cases hbuild : buildEnums s with
    | error f => exact ⟨f, rfl⟩
    | ok enums =>
      have hsmall := members_of_buildEnums hbuild e he m hm
      omega

theorem map_values_buildEnums (h : buildEnums s = .ok enums) :
    enums.map (fun e => (e.name, e.values.map fun m => (m.name, m.value.toInt))) =
      s.enumerations.entries.map fun d => (d.1, d.2.members.map fun m => (m.name, (m.value.toNat : Int))) := by
  refine map_of_mapM (fun d e he => ?_) h
  obtain ⟨values, hvalues, rfl⟩ := map_eq_ok.mp he
  obtain ⟨hall, rfl⟩ := buildMembers_ok_iff.mp hvalues
  rw [List.map_map]
  refine Prod.ext rfl (List.map_congr_left fun m hm => ?_)
  exact Prod.ext rfl (toInt_toInt32 (hall m hm))

theorem ascending_buildEnums (h : buildEnums s = .ok enums) : enums.Pairwise fun a b => a.name < b.name := by
  have hnames : enums.map (·.name) = s.enumerations.keys := by
    simpa [Dict.keys, Function.comp_def] using congrArg (List.map Prod.fst) (map_values_buildEnums h)
  have hkeys := s.enumerations.keys_ascending
  rw [← hnames] at hkeys
  exact List.pairwise_map.mp hkeys

theorem nonneg_of_buildEnums (h : buildEnums s = .ok enums) : ∀ e ∈ enums, ∀ m ∈ e.values, 0 ≤ m.value.toInt := by
  intro e he m hm
  have hlisted : (e.name, e.values.map fun m => (m.name, m.value.toInt)) ∈
      enums.map fun e => (e.name, e.values.map fun m => (m.name, m.value.toInt)) := List.mem_map.mpr ⟨e, he, rfl⟩
  rw [map_values_buildEnums h] at hlisted
  obtain ⟨d, -, hd⟩ := List.mem_map.mp hlisted
  have hmember : (m.name, m.value.toInt) ∈ e.values.map fun m => (m.name, m.value.toInt) := List.mem_map.mpr ⟨m, hm, rfl⟩
  rw [← (Prod.mk.inj hd).2] at hmember
  obtain ⟨m', -, hm'⟩ := List.mem_map.mp hmember
  rw [← (Prod.mk.inj hm').2]
  exact Int.natCast_nonneg _

end

end Binding

namespace Render

open Binding Template

/-- The arms of an enumeration lead from values to members and back. -/
structure Reversible (e : EnumDef) : Prop where
  value_of_fromValue : ∀ v p, fromValue? (memberArms e) v = some (some p) → value? (valueArms e) p = some v
  fromValue_of_value : ∀ m ∈ e.values, ∃ v, value? (valueArms e) (memberPath e m) = some v ∧
    fromValue? (memberArms e) v = some ((e.values.find? fun d => d.value == m.value).map (memberPath e))

theorem exists_find? {l : List EnumMember} {m : EnumMember} (test : EnumMember → Bool) (hm : m ∈ l)
    (h : test m = true) : ∃ d ∈ l, test d = true ∧ l.find? test = some d := by
  obtain ⟨d, hd⟩ := Option.isSome_iff_exists.mp (List.find?_isSome.mpr ⟨m, hm, h⟩)
  exact ⟨d, List.mem_of_find?_eq_some hd, List.find?_some hd, hd⟩

theorem memberPath_eq_iff {e : EnumDef} {m d : EnumMember} :
    memberPath e m = memberPath e d ↔ Naming.identifier m.name = Naming.identifier d.name := by
  rw [memberPath, memberPath, List.append_right_inj]

section

variable {e : EnumDef} (hnonneg : ∀ m ∈ e.values, 0 ≤ m.value.toInt)

include hnonneg

theorem exists_value? {m : EnumMember} (hm : m ∈ e.values) : ∃ d ∈ e.values,
    Naming.identifier d.name = Naming.identifier m.name ∧ value? (valueArms e) (memberPath e m) = some d.value := by
  obtain ⟨d, hd, hpath, hfind⟩ := exists_find? (fun d => memberPath e d == memberPath e m) hm (beq_self_eq_true _)
  refine ⟨d, hd, memberPath_eq_iff.mp (eq_of_beq hpath), ?_⟩
  rw [value?_valueArms hnonneg, hfind]
  rfl

theorem exists_fromValue? {m : EnumMember} (hm : m ∈ e.values) :
    ∃ d, fromValue? (memberArms e) m.value = some (some (memberPath e d)) := by
  obtain ⟨d, -, -, hfind⟩ := exists_find? (fun d => d.value == m.value) hm (beq_self_eq_true _)
  refine ⟨d, ?_⟩
  rw [fromValue?_memberArms hnonneg, hfind]
  rfl

theorem reversible_iff : Reversible e ↔
    ∀ m ∈ e.values, ∀ d ∈ e.values, Naming.identifier m.name = Naming.identifier d.name → m.value = d.value := by
  constructor
  · intro hreversible
    have hkept : ∀ m ∈ e.values, value? (valueArms e) (memberPath e m) = some m.value := by
      intro m hm
      obtain ⟨v, hvalue, hfrom⟩ := hreversible.fromValue_of_value m hm
      obtain ⟨d, hd⟩ := exists_fromValue? hnonneg hm
      rw [← fromValue?_memberArms hnonneg, hd] at hfrom
      have hfirst := hreversible.value_of_fromValue _ _ hd
      rw [hreversible.value_of_fromValue _ _ hfrom] at hfirst
      rw [hvalue, hfirst]
    intro m hm d hd hsame
    have hboth := hkept m hm
    rw [memberPath_eq_iff.mpr hsame, hkept d hd] at hboth
    exact (Option.some.inj hboth).symm
  · intro hagree
    have hkept : ∀ m ∈ e.values, value? (valueArms e) (memberPath e m) = some m.value := by
      intro m hm
      obtain ⟨d, hd, hsame, hvalue⟩ := exists_value? hnonneg hm
      rw [hvalue, hagree d hd m hm hsame]
    refine ⟨fun v p hfrom => ?_, fun m hm => ⟨m.value, hkept m hm, fromValue?_memberArms hnonneg m.value⟩⟩
    rw [fromValue?_memberArms hnonneg] at hfrom
    obtain ⟨m, hfind, rfl⟩ := Option.map_eq_some_iff.mp (Option.some.inj hfrom)
    have hvalue : m.value = v := by simpa using List.find?_some hfind
    rw [hkept m (List.mem_of_find?_eq_some hfind), hvalue]

theorem fromValue?_eq_self_iff (hnodup : (e.values.map fun m => Naming.identifier m.name).Nodup)
    {before after : List EnumMember} {m : EnumMember} (heq : e.values = before ++ m :: after) :
    fromValue? (memberArms e) m.value = some (some (memberPath e m)) ↔ ∀ d ∈ before, d.value ≠ m.value := by
  rw [fromValue?_memberArms hnonneg, heq, List.find?_append]
  cases hfind : before.find? fun d => d.value == m.value with
  | none =>
    refine iff_of_true (by simp) fun d hd => ?_
    simpa using List.find?_eq_none.mp hfind d hd
  | some d =>
    have hd := List.mem_of_find?_eq_some hfind
    refine iff_of_false (fun hpath => ?_) fun hall => hall d hd (by simpa using List.find?_some hfind)
    have hsame := memberPath_eq_iff.mp (Option.some.inj (Option.some.inj hpath))
    rw [heq, List.map_append, List.map_cons] at hnodup
    exact (List.nodup_append.mp hnodup).2.2 _ (List.mem_map.mpr ⟨d, hd, rfl⟩) _ List.mem_cons_self hsame

end

theorem infix_moduleText {c : Context} {e : EnumDef} (version : Text) (he : e ∈ c.enums) :
    enumBlock e <:+: moduleText version c :=
  (infix_flatMap he).trans ⟨header c.source version c.name c.doc c.imports,
    c.classes.flatMap classBlock ++ c.procedures.flatMap procedureBlock ++ "\n", by simp [moduleText]⟩

/-- Enumerations are refused exactly if a declared value is too large, and the fault says so. Else they stand in the order
of their names, with their members in declared order and the declared values. The module of the service has for each
enumeration a match over its members and one over their values, and the arms can be read from the text if the names can
stand in it. The arms lead from each value to the first member that has it and back, exactly if members that share an
identifier share their value; where identifiers are distinct, a member comes back exactly if it is the first with its
value. -/
theorem wireValues_kept (s : Service) (version : Text) :
    ((∃ f, buildEnums s = .error f) ↔
      ∃ e ∈ s.enumerations.entries, ∃ m ∈ e.2.members, 2147483647 < m.value.toNat) ∧
    (∀ f, buildEnums s = .error f → f.fault.Only .malformedEnum) ∧
    (∀ enums, buildEnums s = .ok enums → enums.Pairwise (fun a b => a.name < b.name) ∧
      enums.map (fun e => (e.name, e.values.map fun m => (m.name, m.value.toInt))) =
        s.enumerations.entries.map fun d => (d.1, d.2.members.map fun m => (m.name, (m.value.toNat : Int)))) ∧
    ∀ c, buildContext s = .ok c → buildEnums s = .ok c.enums ∧
      ∃ text, (Renderer.embedded version).bind (fun r => r.service c) = .ok text ∧
        ∀ e ∈ c.enums, enumBlock e <:+: text ∧
          (∃ head middle rest, enumBlock e = (head ++ matchLines matchSelf (valueArms e) ++ middle ++
            matchLines matchValue (memberArms e)).flatMap (10 :: ·) ++ rest) ∧
          (Legible e → arms? matchSelf (enumBlock e) = some (valueArms e) ∧
            arms? matchValue (enumBlock e) = some (memberArms e)) ∧
          (Reversible e ↔ ∀ m ∈ e.values, ∀ d ∈ e.values,
            Naming.identifier m.name = Naming.identifier d.name → m.value = d.value) ∧
          ((e.values.map fun m => Naming.identifier m.name).Nodup →
            ∀ before m after, e.values = before ++ m :: after →
              (fromValue? (memberArms e) m.value = some (some (memberPath e m)) ↔
                ∀ d ∈ before, d.value ≠ m.value)) := by
  refine ⟨exists_buildEnums_error_iff, fun f _ => f.only_fault, fun enums henums => ?_, fun c hbuild => ?_⟩
  · exact ⟨ascending_buildEnums henums, map_values_buildEnums henums⟩
  · have henums := (buildContext_ok hbuild).2
    refine ⟨henums, _, service_embedded version c, fun e he => ⟨infix_moduleText version he, ?_, ?_, ?_, ?_⟩⟩
    · obtain ⟨rest, hrest⟩ := enumBlock_lines e
      exact ⟨headLines e, middleLines, 10 :: rest, hrest⟩
    · intro hlegible
      exact ⟨hlegible.arms?_matchSelf, hlegible.arms?_matchValue⟩
    · exact reversible_iff (nonneg_of_buildEnums henums e he)
    · intro hnodup before m after
      exact fromValue?_eq_self_iff (nonneg_of_buildEnums henums e he) hnodup

def tideService : Service where
  name := "Tide"
  id := 1
  documentation := []
  procedures := .empty
  classes := .empty
  enumerations := .ofList [("Level", ⟨"Level", [], [⟨"Low", 0⟩, ⟨"Ebb", 0⟩, ⟨"type", 2147483647⟩]⟩)]

def tideLevel : EnumDef := ⟨"Level", [], [⟨"Low", 0⟩, ⟨"Ebb", 0⟩, ⟨"type", 2147483647⟩]⟩

theorem wireValues_kept_tide :
    ∃ c, buildContext tideService = .ok c ∧ c.enums = [tideLevel] ∧ Reversible tideLevel ∧
      arms? matchValue (enumBlock tideLevel) = some (memberArms tideLevel) ∧
      fromValue? (memberArms tideLevel) 0 = some (some (Text.ofString "Level::Low")) := by
  have hran : (buildContext tideService).toOption.map (·.enums) = some [tideLevel] := by decide +kernel
  obtain ⟨c, hc, henums⟩ := Option.map_eq_some_iff.mp hran
  have hbuild := toOption_eq_some.mp hc
  obtain ⟨-, -, -, hmodule⟩ := wireValues_kept tideService "v1"
  obtain ⟨-, text, -, hblocks⟩ := hmodule c hbuild
  obtain ⟨-, -, hread, hreversible, hself⟩ := hblocks tideLevel (henums ▸ List.mem_singleton_self _)
  have hlegible : Legible tideLevel := by
    unfold Legible
    decide +kernel
  have hlow := (hself (by decide +kernel) [] ⟨"Low", 0⟩ [⟨"Ebb", 0⟩, ⟨"type", 2147483647⟩] rfl).mpr fun d hd => by cases hd
  have hpath : memberPath tideLevel ⟨"Low", 0⟩ = "Level::Low" := by decide +kernel
  exact ⟨c, hbuild, henums, hreversible.mpr (by decide +kernel), (hread hlegible).2, hpath ▸ hlow⟩

def keelService : Service where
  name := "Keel"
  id := 1
  documentation := []
  procedures := .empty
  classes := .empty
  enumerations := .ofList [("A", ⟨"A", [], [⟨"self", 0⟩, ⟨"self_", 1⟩]⟩)]

def keelEnum : EnumDef := ⟨"A", [], [⟨"self", 0⟩, ⟨"self_", 1⟩]⟩

/-- The value 1 leads to a member that leads back to 0. -/
theorem wireValues_lost_keel :
    (∃ c, buildContext keelService = .ok c ∧ c.enums = [keelEnum]) ∧
      fromValue? (memberArms keelEnum) 1 = some (some (Text.ofString "A::self_")) ∧
      value? (valueArms keelEnum) "A::self_" = some 0 := by
  have hran : (buildContext keelService).toOption.map (·.enums) = some [keelEnum] := by decide +kernel
  obtain ⟨c, hc, henums⟩ := Option.map_eq_some_iff.mp hran
  exact ⟨⟨c, toOption_eq_some.mp hc, henums⟩, by decide +kernel, by decide +kernel⟩

end Render

end RpcBindings
