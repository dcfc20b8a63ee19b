import RpcBindings.Proofs.Precedence
import RpcBindings.Proofs.Recovery
import RpcBindings.Proofs.Rotation

/-!
# Saved settings are loaded again

Settings are written as a document of five tables. Reading it gives each key the value that was saved, and no default
comes through, not even where the value is empty. A file that was saved therefore holds the settings it was saved from.
-/

namespace RpcBindings.Settings

open Files Toml

/-- Settings that a file can hold: their texts are UTF-8 and their number has 64 bits. -/
structure Storable (s : Settings) : Prop where
  texts : ∀ k t, s.value k = .text t → Text.isUtf8 t = true
  jobs : -9223372036854775808 ≤ s.generate.jobs ∧ s.generate.jobs ≤ 9223372036854775807

def scalarTree : Value → Format.Tree
  | .text t => .text t
  | .integer n => .number n
  | .bool b => .bool b
  | _ => .list []

def keysIn (table : Text) : List Key := Key.all.filter fun k => k.table = table

def members (s : Settings) : Members := tables.map fun t => (t, .table ((keysIn t).map fun k => (k.name, s.value k)))

section

variable {s : Settings}

theorem leaf_value (h : Storable s) (k : Key) : Leaf (scalarTree (s.value k)) (s.value k) := by
  have hjobs : inRange? s.generate.jobs = some s.generate.jobs := if_pos h.jobs
  have htext : ∀ k t, s.value k = .text t → Leaf (scalarTree (s.value k)) (s.value k) := by
    intro k t hk
    rw [hk]
    exact .text (h.texts k t hk)
  cases k with
  | outputIndex | logJson => exact .bool _
  | generateJobs => exact .number hjobs
  | _ => exact htext _ _ rfl

def field (h : Storable s) (k : Key) : Field where
  name := k.name
  tree := scalarTree (s.value k)
  value := s.value k
  bare := by cases k <;> exact ⟨by decide, by decide⟩
  leaf := leaf_value h k

def sectionOf (h : Storable s) (name : Text) (bare : Bare name) (distinct : ((keysIn name).map Key.name).Nodup) : Table where
  name := name
  fields := (keysIn name).map (field h)
  bare := bare
  distinct := by rwa [List.map_map]

def sections (h : Storable s) : List Table :=
  [sectionOf h "input" ⟨by decide, by decide⟩ (by decide), sectionOf h "output" ⟨by decide, by decide⟩ (by decide),
   sectionOf h "templates" ⟨by decide, by decide⟩ (by decide), sectionOf h "generate" ⟨by decide, by decide⟩ (by decide),
   sectionOf h "log" ⟨by decide, by decide⟩ (by decide)]

theorem parse?_settings (h : Storable s) : parse? (Format.toml s.tree) = some s.members := by
  have htree : s.tree = tablesRecord (sections h) := rfl
  have hmembers : s.members = (sections h).map fun t => (t.name, .table t.members) := rfl
  have hnames : (sections h).map Table.name = tables := rfl
  rw [htree, hmembers]
  exact parse?_toml (by rw [hnames]; decide)

theorem lowerMembers_settings (s : Settings) : lowerMembers s.members = s.members := by
  rfl

theorem valueAt?_members (s : Settings) (k : Key) : valueAt? s.members k.path = some (s.value k) := by
  cases k <;> rfl

theorem assigning_members (s : Settings) : Assigning s.members := by
  have hlookup : ∀ k : Key, s.members.lookup k.table =
      some (.table ((keysIn k.table).map fun k => (k.name, s.value k))) := by
    intro k
    cases k <;> rfl
  refine ⟨⟨fun k _ v hv => ?_, fun k _ v hv => ?_, fun k _ => ?_⟩, ?_, fun k _ v hv => ?_⟩
  · rw [hlookup k] at hv
    obtain rfl := Option.some.inj hv
    rfl
  · rw [valueAt?_members] at hv
    obtain rfl := Option.some.inj hv
    cases k <;> rfl
  · cases k <;> rfl
  · have hnames : s.members.map Prod.fst = tables := rfl
    rw [hnames]
    decide
  · rw [hlookup k] at hv
    obtain rfl := Option.some.inj hv
    have hnames : ((keysIn k.table).map fun k => (k.name, s.value k)).map Prod.fst = (keysIn k.table).map Key.name := by
      rw [List.map_map]
      rfl
    rw [Value.members?, Option.getD_some, hnames]
    cases k <;> decide

end

theorem ofFile_of_written {s : Settings} {files : System} {path : Text} (h : Storable s)
    (hfile : files.occupant? path = some (.file (Format.toml s.tree))) : ofFile files path = .ok s := by
  rw [System.occupant?, toOption_eq_some] at hfile
  have hmerge : mergeFile files [] path = .ok (mergeMembers [] s.members) := by
    unfold mergeFile
    simp only [hfile, parse?_settings h, lowerMembers_settings]
  have hassigning := assigning_members s
  have hvalue : ∀ k : Key, ({ Layers.none with files := mergeMembers [] s.members } : Layers).first k = s.value k := by
    intro k
    have hmerged := Tabular.nil.valueAt?_merge hassigning k
    rw [valueAt?_members] at hmerged
    simp only [Layers.first, hmerged]
    rfl
  have hsettings : Layers.settings { Layers.none with files := mergeMembers [] s.members } = .ok s := by
    refine (Layers.settings_eq_ok_iff (fun k => ?_) (fun k => rfl) (Tabular.nil.merge hassigning)).mpr fun k => ?_
    · cases k <;> rfl
    · rw [hvalue]
      exact fits_value s k
  exact bind_eq_ok.mpr ⟨_, hmerge, hsettings⟩

/-- What has been saved is loaded unchanged. -/
theorem ofFile_save {s : Settings} {files : System} {path : Text} {denials : Denials} (h : Storable s)
    (hsaved : (save s files path denials).fault = none) : ofFile (save s files path denials).files path = .ok s := by
  obtain ⟨ready, -, -, hwrite⟩ := save_ok hsaved
  obtain ⟨loc, hloc, hdir, hreplaced⟩ := exists_replaced hwrite
  exact ofFile_of_written h ((occupant?_of_replaced hdir hreplaced path).1 hloc)

def knotty : Settings where
  input := ⟨"it's \"here\"", "line\nbreak\ttab\\\r", "\x7F\x00"⟩
  output := ⟨"aus/größe", "", false⟩
  templates := ⟨"🚀"⟩
  generate := ⟨-9223372036854775808⟩
  log := ⟨true⟩

theorem ofFile_save_knotty :
    (save knotty ⟨.empty, []⟩ "etc/rpc.toml").fault = none ∧
      ofFile (save knotty ⟨.empty, []⟩ "etc/rpc.toml").files "etc/rpc.toml" = .ok knotty := by
  have hstorable : Storable knotty := by
    refine ⟨fun k t hk => ?_, by decide, by decide⟩
    cases k <;> cases hk <;> decide +kernel
  have hsaved : (save knotty ⟨.empty, []⟩ "etc/rpc.toml").fault = none := by decide +kernel
  exact ⟨hsaved, ofFile_save hstorable hsaved⟩

end RpcBindings.Settings
