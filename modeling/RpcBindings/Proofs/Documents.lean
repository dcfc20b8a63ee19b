import RpcBindings.Generate.Run
import RpcBindings.Proofs.Dict

/-!
# Loaded documents

Every service of a loaded document carries the name it stands under. Files are loaded one by one, each without regard to
the others, so another order of the paths gives the same documents and failures in another order. How often a run asks
whether to stop depends on the number of paths only.
-/

namespace RpcBindings

/-! ## Names of services -/

namespace Wire

theorem exists_of_decodeTable {α β : Type} {context : Text → Except DecodeFault β → Except DecodeFault β}
    {decode : Text → α → Except DecodeFault β} {table : Dict α} {d : Dict β}
    (h : decodeTable context decode table = .ok d) :
    ∀ e ∈ d.entries, ∃ a, table.get? e.1 = some a ∧ context e.1 (decode e.1 a) = .ok e.2 := by
  refine foldlM_invariant (P := fun d : Dict β => ∀ e ∈ d.entries, ∃ a, table.get? e.1 = some a ∧
    context e.1 (decode e.1 a) = .ok e.2) ?_ (by simp [Dict.empty]) h
  intro d e next he hd hnext
  obtain ⟨b, hb, rfl⟩ := map_eq_ok.mp hnext
  intro e' he'
  rcases Dict.mem_insertEntry he' with rfl | hin
  · exact ⟨e.2, Dict.get?_eq_some_iff.mpr he, hb⟩
  · exact hd e' hin

theorem require_eq_ok {α : Type} {name : Text} {x : Option α} {a : α} : require name x = .ok a ↔ x = some a := by
  cases x <;> simp [require]

/-- A decoded service carries its name, and each of its declarations is decoded from what stands under the name of it. -/
theorem ServiceNode.decode_ok {name : Text} {node : Option ServiceNode} {s : Service} (h : decode name node = .ok s) :
    s.name = name ∧ ∃ n, node = some n ∧
      (∀ e ∈ s.procedures.entries, ∃ table p, n.procedures = some table ∧ table.get? e.1 = some p ∧
        ProcedureNode.decode e.1 p = .ok e.2) ∧
      (∀ e ∈ s.classes.entries, ∃ c, ClassNode.decode e.1 c = .ok e.2) ∧
      ∀ e ∈ s.enumerations.entries, ∃ table m, n.enumerations = some table ∧ table.get? e.1 = some m ∧
        EnumNode.decode e.1 m = .ok e.2 := by
  cases node with
  | none => cases h
  | some n =>
    obtain ⟨id, -, h⟩ := bind_eq_ok.mp h
    obtain ⟨procedures, hprocedures, h⟩ := bind_eq_ok.mp h
    obtain ⟨classes, -, h⟩ := bind_eq_ok.mp h
    obtain ⟨enumerations, henumerations, h⟩ := bind_eq_ok.mp h
    obtain ⟨procedures', hprocedures', h⟩ := bind_eq_ok.mp h
    obtain ⟨classes', hclasses', h⟩ := bind_eq_ok.mp h
    obtain ⟨enumerations', henumerations', h⟩ := bind_eq_ok.mp h
    obtain rfl := Except.ok.inj h
    refine ⟨rfl, n, rfl, fun e he => ?_, fun e he => ?_, fun e he => ?_⟩
    · obtain ⟨p, hp, hdecode⟩ := exists_of_decodeTable hprocedures' e he
      exact ⟨procedures, p, require_eq_ok.mp hprocedures, hp, mapError_eq_ok.mp hdecode⟩
    · obtain ⟨c, -, hdecode⟩ := exists_of_decodeTable hclasses' e he
      exact ⟨c, hdecode⟩
    · obtain ⟨m, hm, hdecode⟩ := exists_of_decodeTable henumerations' e he
      exact ⟨enumerations, m, require_eq_ok.mp henumerations, hm, mapError_eq_ok.mp hdecode⟩

end Wire

namespace Document

theorem decode_ok {t : Text} {services : Dict Service} (h : decode t = .ok services) :
    ∃ v table, Json.parse? Wire.grammar (.table .service) t = some v ∧ Wire.read? v = some (some table) ∧
      ∀ e ∈ services.entries, ∃ node, table.get? e.1 = some node ∧ Wire.ServiceNode.decode e.1 node = .ok e.2 := by
  unfold decode decodeIn at h
  split at h
  next => cases h
  next v hv =>
    unfold ofJsonIn? at h
    split at h
    next => cases h
    next => cases h
    next table htable =>
      refine ⟨v, table, hv, htable, fun e he => ?_⟩
      obtain ⟨node, hnode, hdecode⟩ := Wire.exists_of_decodeTable h e he
      exact ⟨node, hnode, mapError_eq_ok.mp hdecode⟩

theorem name_of_decode {t : Text} {services : Dict Service} (h : decode t = .ok services) :
    ∀ e ∈ services.entries, e.2.name = e.1 := by
  intro e he
  obtain ⟨v, table, -, -, hnodes⟩ := decode_ok h
  obtain ⟨node, -, hnode⟩ := hnodes e he
  exact (Wire.ServiceNode.decode_ok hnode).1

theorem of_load {files : Files.System} {path : Text} {d : Document} (h : load files path = .ok d) :
    d.path = path ∧ ∀ e ∈ d.services.entries, e.2.name = e.1 := by
  unfold load at h
  split at h
  next => cases h
  next content _ =>
    split at h
    next => cases h
    next services hservices =>
      obtain rfl := Except.ok.inj h
      exact ⟨rfl, name_of_decode hservices⟩

end Document

/-! ## Loading many files -/

namespace Generate

open Files

variable {files : System} {signal signal' : Signal}

def loaded? (files : System) (path : Text) : Option Document := (Document.load files path).toOption

def unloaded? (files : System) (path : Text) : Option Failure :=
  match Document.load files path with
  | .ok _ => none
  | .error f => some ⟨path, [], f⟩

theorem loadAll_lists (paths : List Text) : ∀ {signal : Signal}, (loadAll files signal paths).signal = some signal' →
    (loadAll files signal paths).documents = paths.filterMap (loaded? files) ∧
      (loadAll files signal paths).failures = paths.filterMap (unloaded? files) := by
  induction paths with
  | nil =>
    intro signal _
    exact ⟨rfl, rfl⟩
  | cons path rest ih =>
    intro signal h
    rw [loadAll] at h ⊢
    cases hask : signal.ask with
    | none => simp only [hask] at h; cases h
    | some next =>
      simp only [hask] at h ⊢
      cases hload : Document.load files path with
      | ok d =>
        simp only [hload] at h ⊢
        obtain ⟨hdocuments, hfailures⟩ := ih h
        simp [hdocuments, hfailures, loaded?, unloaded?, hload, Except.toOption]
      | error f =>
        simp only [hload] at h ⊢
        obtain ⟨hdocuments, hfailures⟩ := ih h
        simp [hdocuments, hfailures, loaded?, unloaded?, hload, Except.toOption]

theorem loadAll_signal_congr (paths : List Text) : ∀ {paths' : List Text} {signal : Signal}, paths'.length = paths.length →
    (loadAll files signal paths').signal = (loadAll files signal paths).signal := by
  induction paths with
  | nil =>
    intro paths' signal h
    rw [List.length_eq_zero_iff.mp h]
  | cons path rest ih =>
    intro paths' signal h
    cases paths' with
    | nil => cases h
    | cons path' rest' =>
      have hrest : rest'.length = rest.length := Nat.succ.inj h
      rw [loadAll, loadAll]
      cases signal.ask with
      | none => rfl
      | some next =>
        have hnext := @ih rest' next hrest
        cases Document.load files path' <;> cases Document.load files path <;> exact hnext

theorem mem_filterMap_loaded? {paths : List Text} {d : Document} (h : d ∈ paths.filterMap (loaded? files)) :
    Document.load files d.path = .ok d ∧ ∀ e ∈ d.services.entries, e.2.name = e.1 := by
  obtain ⟨path, -, hload⟩ := List.mem_filterMap.mp h
  unfold loaded? at hload
  cases hresult : Document.load files path with
  | error f =>
    rw [hresult] at hload
    cases hload
  | ok d' =>
    rw [hresult] at hload
    obtain rfl := Option.some.inj hload
    obtain ⟨hpath, hnames⟩ := Document.of_load hresult
    exact ⟨hpath.symm ▸ hresult, hnames⟩

theorem mem_filterMap_unloaded? {paths : List Text} {f : Failure} (h : f ∈ paths.filterMap (unloaded? files)) :
    f.service = [] ∧ Document.load files f.source = .error f.fault := by
  obtain ⟨path, -, hload⟩ := List.mem_filterMap.mp h
  unfold unloaded? at hload
  split at hload
  next => cases hload
  next fault hresult =>
    obtain rfl := Option.some.inj hload
    exact ⟨rfl, hresult⟩

end Generate

end RpcBindings
