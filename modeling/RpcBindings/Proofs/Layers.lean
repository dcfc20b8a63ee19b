import RpcBindings.Proofs.Basic
import RpcBindings.Settings.Effective

/-!
# The value of a key in layers of settings

Files that assign values to keys, and do nothing unusual beside that, are merged key by key: the upper file decides where
it has a value, and the lower one elsewhere. Among the layers, the first that has a value for a key decides it.
-/

namespace RpcBindings

open Toml

/-! ## Keys and their values -/

namespace Key

theorem mem_all (k : Key) : k ∈ all := by cases k <;> decide

theorem forall_iff {p : Key → Prop} :
    (∀ k, p k) ↔ p inputPath ∧ p inputManifest ∧ p inputExtension ∧ p outputDir ∧ p outputExtension ∧ p outputIndex ∧
      p templatesDir ∧ p generateJobs ∧ p logJson := by
  constructor
  · exact fun h => ⟨h _, h _, h _, h _, h _, h _, h _, h _, h _⟩
  · rintro ⟨h₁, h₂, h₃, h₄, h₅, h₆, h₇, h₈, h₉⟩ k
    cases k <;> assumption

def dotted (k : Key) : Text := Text.join "." k.path

theorem splitOn_dotted (k : Key) : Text.splitOn 46 k.dotted = k.path := by cases k <;> decide

def typed? : Key → Value → Option Value
  | outputIndex, v | logJson, v => v.asBool?.map .bool
  | generateJobs, v => v.asInt?.map .integer
  | _, v => v.asText?.map .text

def Fits (k : Key) (v : Value) : Prop := k.typed? v = some v

def empty : Key → Value
  | outputIndex | logJson => .bool false
  | generateJobs => .integer 0
  | _ => .text []

end Key

namespace Settings

def value (s : Settings) : Key → Value
  | .inputPath => .text s.input.path
  | .inputManifest => .text s.input.manifest
  | .inputExtension => .text s.input.extension
  | .outputDir => .text s.output.dir
  | .outputExtension => .text s.output.extension
  | .outputIndex => .bool s.output.index
  | .templatesDir => .text s.templates.dir
  | .generateJobs => .integer s.generate.jobs
  | .logJson => .bool s.log.json

theorem fits_value (s : Settings) (k : Key) : k.Fits (s.value k) := by cases k <;> rfl

end Settings

/-! ## Merging -/

namespace Settings

theorem lookup_map_put (members : Members) (name key : Text) (v : Value) :
    (members.map fun m => if m.1 = name then (name, v) else m).lookup key =
      (members.lookup key).map fun old => if key = name then v else old := by
  induction members with
  | nil => rfl
  | cons m rest ih =>
    obtain ⟨other, old⟩ := m
    rw [List.map_cons, lookup_cons_ite key other]
    by_cases hname : other = name
    · rw [if_pos hname, lookup_cons_ite, ih, hname]
      split
      next => simp
      next => rfl
    · rw [if_neg hname, lookup_cons_ite, ih]
      split
      next h => simp [h, hname]
      next => rfl

theorem lookup_putMember (members : Members) (name key : Text) (v : Value) :
    (putMember members name v).lookup key = if key = name then some v else members.lookup key := by
  unfold putMember
  split
  next h =>
    rw [lookup_map_put]
    split
    next heq =>
      obtain ⟨old, hold⟩ := Option.isSome_iff_exists.mp h
      rw [heq, hold, Option.map_some]
    next => rw [Option.map_id']
  next h =>
    rw [List.lookup_append, lookup_cons_ite, List.lookup_nil]
    split
    next heq =>
      rw [heq, Option.not_isSome_iff_eq_none.mp h]
      rfl
    next => rw [Option.or_none]

theorem lookup_mergeMembers (lower : Members) {upper : Members} (hdistinct : (upper.map Prod.fst).Nodup) {key : Text}
    (hkey : key ≠ []) :
    (mergeMembers lower upper).lookup key =
      ((upper.lookup key).map fun v => (lower.lookup key).elim v (mergeValue · v)).or (lower.lookup key) := by
  induction upper generalizing lower with
  | nil => rw [mergeMembers]; rfl
  | cons m rest ih =>
    obtain ⟨name, v⟩ := m
    rw [List.map_cons, List.nodup_cons] at hdistinct
    -- each name is merged once, so what has been put there stays
    have hstep : ∀ new, (mergeMembers (putMember lower name new) rest).lookup key =
        if key = name then some new else (mergeMembers lower rest).lookup key := by
      intro new
      rw [ih _ hdistinct.2, ih _ hdistinct.2, lookup_putMember]
      split
      next heq =>
        rw [lookup_eq_none_of_not_mem (heq ▸ hdistinct.1)]
        rfl
      next => rfl
    rw [mergeMembers, lookup_cons_ite]
    split
    next hnone =>
      rw [hstep]
      split
      next heq =>
        rw [← heq, if_neg (by simpa using hkey)] at hnone
        rw [hnone]
        rfl
      next => rw [ih _ hdistinct.2]
    next old hold =>
      rw [hstep]
      split
      next heq =>
        rw [← heq, if_neg (by simpa using hkey)] at hold
        rw [hold]
        rfl
      next => rw [ih _ hdistinct.2]

end Settings

def Toml.Value.members? : Value → Option Members
  | table members => some members
  | _ => none

namespace Settings

/-- Members in which keys have values of their own in tables, and nothing else reads as a key. -/
structure Tabular (m : Members) : Prop where
  inTables : ∀ k ∈ Key.all, ∀ v ∈ m.lookup k.table, v.members?.isSome
  leaf : ∀ k ∈ Key.all, ∀ v ∈ valueAt? m k.path, v.members?.isNone
  undotted : ∀ k ∈ Key.all, (m.lookup k.dotted).isNone

/-- Members that assign values to keys, each once. -/
structure Assigning (m : Members) : Prop extends Tabular m where
  distinct : (m.map Prod.fst).Nodup
  distinctInside : ∀ k ∈ Key.all, ∀ v ∈ m.lookup k.table, ((v.members?.getD []).map Prod.fst).Nodup

instance (m : Members) : Decidable (Assigning m) :=
  decidable_of_iff
    (((∀ k ∈ Key.all, ∀ v ∈ m.lookup k.table, v.members?.isSome) ∧
      (∀ k ∈ Key.all, ∀ v ∈ valueAt? m k.path, v.members?.isNone) ∧
      ∀ k ∈ Key.all, (m.lookup k.dotted).isNone) ∧
      (m.map Prod.fst).Nodup ∧
      ∀ k ∈ Key.all, ∀ v ∈ m.lookup k.table, ((v.members?.getD []).map Prod.fst).Nodup)
    ⟨fun h => ⟨⟨h.1.1, h.1.2.1, h.1.2.2⟩, h.2.1, h.2.2⟩,
      fun h => ⟨⟨h.inTables, h.leaf, h.undotted⟩, h.distinct, h.distinctInside⟩⟩

theorem eq_table_of_members? {v : Value} {members : Members} (h : v.members? = some members) : v = .table members := by
  cases v <;> simp_all [Value.members?]

theorem valueAt?_path (m : Members) (k : Key) :
    valueAt? m k.path = (m.lookup k.table).bind fun v => v.members?.bind fun inner => inner.lookup k.name := by
  cases h : m.lookup k.table with
  | none => simp [Key.path, valueAt?, h]
  | some v => cases v <;> simp [Key.path, valueAt?, h, Value.members?]

theorem mergeValue_table (l u : Members) : mergeValue (.table l) (.table u) = .table (mergeMembers l u) := by
  rw [mergeValue]

theorem mergeValue_leaf {lower v : Value} (hlower : lower.members? = none) (hv : v.members? = none) :
    mergeValue lower v = v := by
  cases v <;> cases lower <;> simp_all [mergeValue, Value.members?]

namespace Tabular

variable {m lower upper : Members}

theorem nil : Tabular [] := by constructor <;> decide

theorem table_cases (h : Tabular m) (k : Key) :
    m.lookup k.table = none ∨ ∃ inner, m.lookup k.table = some (.table inner) := by
  cases hv : m.lookup k.table with
  | none => exact .inl rfl
  | some v =>
    obtain ⟨inner, hinner⟩ := Option.isSome_iff_exists.mp (h.inTables k k.mem_all v hv)
    exact .inr ⟨inner, by rw [eq_table_of_members? hinner]⟩

theorem leaf_of_valueAt? (h : Tabular m) {k : Key} {v : Value} (hv : valueAt? m k.path = some v) : v.members? = none :=
  Option.isNone_iff_eq_none.mp (h.leaf k k.mem_all v hv)

theorem valueAt?_merge (hlower : Tabular lower) (hupper : Assigning upper) (k : Key) :
    valueAt? (mergeMembers lower upper) k.path = (valueAt? upper k.path).or (valueAt? lower k.path) := by
  have htable : k.table ≠ [] := by cases k <;> decide
  have hname : k.name ≠ [] := by cases k <;> decide
  rw [valueAt?_path, lookup_mergeMembers lower hupper.distinct htable]
  rcases hupper.table_cases k with hu | ⟨u, hu⟩
  · simp [valueAt?_path, hu]
  · rcases hlower.table_cases k with hl | ⟨l, hl⟩
    · simp [valueAt?_path, hu, hl]
    · have hdistinct : (u.map Prod.fst).Nodup := hupper.distinctInside k k.mem_all (.table u) hu
      have hupperAt : valueAt? upper k.path = u.lookup k.name := by simp [valueAt?_path, hu, Value.members?]
      have hlowerAt : valueAt? lower k.path = l.lookup k.name := by simp [valueAt?_path, hl, Value.members?]
      rw [hupperAt, hlowerAt, hu, hl]
      simp only [Option.map_some, Option.elim_some, Option.some_or, Option.bind_some, mergeValue_table, Value.members?]
      rw [lookup_mergeMembers l hdistinct hname]
      cases hv : u.lookup k.name with
      | none => rfl
      | some v =>
        cases hold : l.lookup k.name with
        | none => rfl
        | some old =>
          have hmerge := mergeValue_leaf (hlower.leaf_of_valueAt? (hlowerAt.trans hold))
            (hupper.leaf_of_valueAt? (hupperAt.trans hv))
          simp [hmerge]

theorem merge (hlower : Tabular lower) (hupper : Assigning upper) : Tabular (mergeMembers lower upper) := by
  have htable : ∀ k : Key, k.table ≠ [] := by intro k; cases k <;> decide
  have hdotted : ∀ k : Key, k.dotted ≠ [] := by intro k; cases k <;> decide
  refine ⟨fun k _ v hv => ?_, fun k _ v hv => ?_, fun k hk => ?_⟩
  · rw [Option.mem_def, lookup_mergeMembers lower hupper.distinct (htable k)] at hv
    rcases hupper.table_cases k with hu | ⟨u, hu⟩
    · rw [hu] at hv
      exact hlower.inTables k k.mem_all v hv
    · rcases hlower.table_cases k with hl | ⟨l, hl⟩
      · simp only [hu, hl, Option.map_some, Option.elim_none, Option.or_none, Option.some.injEq] at hv
        rw [← hv]
        rfl
      · simp only [hu, hl, Option.map_some, Option.elim_some, Option.some_or, Option.some.injEq, mergeValue_table] at hv
        rw [← hv]
        rfl
  · rw [Option.mem_def, hlower.valueAt?_merge hupper, Option.or_eq_some_iff] at hv
    rcases hv with hv | ⟨-, hv⟩
    · exact hupper.leaf k k.mem_all v hv
    · exact hlower.leaf k k.mem_all v hv
  · have hu := Option.isNone_iff_eq_none.mp (hupper.undotted k hk)
    rw [lookup_mergeMembers lower hupper.distinct (hdotted k), hu]
    exact hlower.undotted k hk

end Tabular

/-! ## The first layer that has a value -/

theorem search_path {m : Members} (h : Tabular m) (k : Key) : search 2 (.table m) k.path = valueAt? m k.path := by
  have hwhole : m.lookup (Text.join "." (k.path.take 2)) = none := Option.isNone_iff_eq_none.mp (h.undotted k k.mem_all)
  have hone : Text.join "." (k.path.take 1) = k.table := by cases k <;> decide
  have hlast : Text.join "." ((k.path.drop 1).take 1) = k.name := by cases k <;> decide
  have hlength : k.path.length = 2 := rfl
  have hrest : (k.path.drop 1).length = 1 := rfl
  have hrange : (List.range 2).reverse = [1, 0] := by decide
  have hsingle : (List.range 1).reverse = [0] := by decide
  rw [valueAt?_path, search, hlength, hrange]
  simp only [List.findSome?_cons, List.findSome?_nil, Nat.reduceAdd, part?, hwhole, hone]
  rcases h.table_cases k with hnone | ⟨inner, hinner⟩
  · simp [hnone]
  · rw [hinner]
    simp only [Nat.reduceEqDiff, if_false, search, hrest, hsingle, List.findSome?_cons, List.findSome?_nil, Nat.reduceAdd,
      part?, hlast, Option.bind_some, Value.members?, if_true]
    cases inner.lookup k.name <;> rfl

theorem isBlocked_path {m : Members} (h : Tabular m) (k : Key) : isBlocked m k.path = false := by
  rcases h.table_cases k with hnone | ⟨inner, hinner⟩
  · simp [Key.path, isBlocked, hnone]
  · simp [Key.path, isBlocked, hinner]

theorem valueAt?_defaults (k : Key) : valueAt? defaults k.path = some k.default := by cases k <;> rfl

namespace Layers

variable {l : Layers}

theorem environmentBlocks_path (k : Key) : l.environmentBlocks k.path = (l.inEnvironment? k.table).isSome := by
  have hone : Text.join "." (k.path.take 1) = k.table := by cases k <;> decide
  have hrange : List.range k.path.length = [0, 1] := rfl
  simp [environmentBlocks, hrange, hone]

def first (l : Layers) (k : Key) : Value :=
  ((valueAt? l.overrides k.path).or ((l.flags.lookup k.dotted).or
    (((l.inEnvironment? k.dotted).map Value.text).or (valueAt? l.files k.path)))).getD k.default

theorem find_dotted (k : Key) (hfree : isBlocked l.overrides k.path = false) (htable : l.inEnvironment? k.table = .none)
    (hfiles : Tabular l.files) :
    l.find k.dotted = some (l.first k) := by
  have hlength : k.path.length = 2 := rfl
  have hblocks : l.environmentBlocks k.path = false := by rw [environmentBlocks_path, htable]; rfl
  unfold find first
  simp only [Key.splitOn_dotted, hfree, hblocks, hlength, search_path hfiles, isBlocked_path hfiles, valueAt?_defaults,
    Bool.false_eq_true, if_false]
  cases valueAt? l.overrides k.path with
  | some v => rfl
  | none =>
    cases l.flags.lookup k.dotted with
    | some v => rfl
    | none =>
      cases l.inEnvironment? k.dotted with
      | some t => rfl
      | none => cases valueAt? l.files k.path <;> rfl

def converted? (l : Layers) (k : Key) : Option Value :=
  if l.isHollow k.table then some k.empty
  else
    match l.find k.dotted with
    | .none => some k.empty
    | some v => k.typed? v

theorem converted?_eq_some_iff {α : Type} {as? : Value → Option α} {empty : α} {wrap : α → Value} {k : Key}
    (hwrap : Function.Injective wrap) (htyped : ∀ v, k.typed? v = (as? v).map wrap) (hempty : k.empty = wrap empty)
    {a : α} : l.converted? k = some (wrap a) ↔ l.convert as? empty k = some a := by
  have hmap : l.converted? k = (l.convert as? empty k).map wrap := by
    unfold convert converted? Key.dotted
    split
    next => rw [hempty, Option.map_some]
    next => cases l.find (Text.join "." k.path) <;> simp [htyped, hempty]
  rw [hmap, Option.map_eq_some_iff]
  constructor
  · rintro ⟨b, hb, hab⟩
    rw [hb, hwrap hab]
  · exact fun h => ⟨a, h, rfl⟩

theorem settings?_eq_some_iff {s : Settings} :
    l.settings? = some s ↔ tables.any l.isBroken = false ∧ ∀ k, l.converted? k = some (s.value k) := by
  have htext : Function.Injective Value.text := fun _ _ => Value.text.inj
  have hbool : Function.Injective Value.bool := fun _ _ => Value.bool.inj
  have hint : Function.Injective Value.integer := fun _ _ => Value.integer.inj
  have hpath := @converted?_eq_some_iff l _ _ _ _ .inputPath htext (fun _ => rfl) rfl s.input.path
  have hmanifest := @converted?_eq_some_iff l _ _ _ _ .inputManifest htext (fun _ => rfl) rfl s.input.manifest
  have hinputs := @converted?_eq_some_iff l _ _ _ _ .inputExtension htext (fun _ => rfl) rfl s.input.extension
  have hdir := @converted?_eq_some_iff l _ _ _ _ .outputDir htext (fun _ => rfl) rfl s.output.dir
  have houtputs := @converted?_eq_some_iff l _ _ _ _ .outputExtension htext (fun _ => rfl) rfl s.output.extension
  have hindex := @converted?_eq_some_iff l _ _ _ _ .outputIndex hbool (fun _ => rfl) rfl s.output.index
  have htemplates := @converted?_eq_some_iff l _ _ _ _ .templatesDir htext (fun _ => rfl) rfl s.templates.dir
  have hjobs := @converted?_eq_some_iff l _ _ _ _ .generateJobs hint (fun _ => rfl) rfl s.generate.jobs
  have hjson := @converted?_eq_some_iff l _ _ _ _ .logJson hbool (fun _ => rfl) rfl s.log.json
  rw [Key.forall_iff]
  simp only [value, hpath, hmanifest, hinputs, hdir, houtputs, hindex, htemplates, hjobs, hjson]
  unfold settings?
  cases tables.any l.isBroken with
  | true => simp
  | false =>
    simp only [Option.bind_eq_bind, Option.bind_eq_some_iff, Bool.false_eq_true, if_false, true_and]
    constructor
    · rintro ⟨_, h₁, _, h₂, _, h₃, _, h₄, _, h₅, _, h₆, _, h₇, _, h₈, _, h₉, hs⟩
      obtain rfl := Option.some.inj hs
      exact ⟨h₁, h₂, h₃, h₄, h₅, h₆, h₇, h₈, h₉⟩
    · rintro ⟨h₁, h₂, h₃, h₄, h₅, h₆, h₇, h₈, h₉⟩
      exact ⟨_, h₁, _, h₂, _, h₃, _, h₄, _, h₅, _, h₆, _, h₇, _, h₈, _, h₉, rfl⟩

theorem instead?_of_tabular (hfiles : Tabular l.files) (k : Key) : l.instead? k.table = .none := by
  rcases hfiles.table_cases k with hnone | ⟨inner, hinner⟩
  · simp [instead?, hnone]
  · simp [instead?, hinner]

/-- Where nothing stands in the way, the settings are what the first layers say, in the types of the keys. -/
theorem settings_eq_ok_iff {s : Settings} (hfree : ∀ k : Key, isBlocked l.overrides k.path = false)
    (htables : ∀ k : Key, l.inEnvironment? k.table = .none) (hfiles : Tabular l.files) :
    l.settings = .ok s ↔ ∀ k : Key, k.typed? (l.first k) = some (s.value k) := by
  have hsettings : l.settings = .ok s ↔ l.settings? = some s := by
    unfold settings
    cases l.settings? <;> simp
  have hkeys : ∀ t ∈ tables, ∃ k ∈ Key.all, k.table = t := by decide
  have hwhole : tables.any l.isBroken = false := by
    rw [List.any_eq_false]
    intro t ht
    obtain ⟨k, -, rfl⟩ := hkeys t ht
    simp [isBroken, instead?_of_tabular hfiles k]
  have hconverted : ∀ k, l.converted? k = k.typed? (l.first k) := by
    intro k
    have hsolid : l.isHollow k.table = false := by simp [isHollow, instead?_of_tabular hfiles k]
    simp only [converted?, hsolid, Bool.false_eq_true, if_false, find_dotted k (hfree k) (htables k) hfiles]
  simp only [hsettings, settings?_eq_some_iff, hwhole, hconverted, true_and]

end Layers

end Settings

end RpcBindings
