import Mathlib.Data.List.Basic
import RpcBindings.Dict
import RpcBindings.Proofs.Basic

/-!
# Dictionaries as finite maps

A dictionary is known by what stands under each name. The listing in byte order adds nothing to that: two ascending
listings of the same names are one listing.
-/

namespace RpcBindings

theorem nodup_of_ascending {xs : List Text} (h : xs.Pairwise (· < ·)) : xs.Nodup := by
  refine h.imp ?_
  intro a b hlt heq
  exact List.lt_irrefl b (heq ▸ hlt)

theorem eq_of_ascending {xs ys : List Text} (hx : xs.Pairwise (· < ·)) (hy : ys.Pairwise (· < ·))
    (hmem : ∀ x, x ∈ xs ↔ x ∈ ys) : xs = ys := by
  have hperm : xs.Perm ys := (List.perm_ext_iff_of_nodup (nodup_of_ascending hx) (nodup_of_ascending hy)).mpr hmem
  exact hperm.eq_of_pairwise (fun a b _ _ hab hba => absurd (List.lt_trans hab hba) (List.lt_irrefl a)) hx hy

namespace Dict

variable {α β : Type}

theorem nodup_keys (d : Dict α) : d.keys.Nodup := nodup_of_ascending d.keys_ascending

theorem nodup_entries (d : Dict α) : d.entries.Nodup := by
  refine d.ascending.imp ?_
  intro a b hlt heq
  exact List.lt_irrefl b.1 (heq ▸ hlt)

theorem lookup_eq_some_iff_mem {es : List (Text × α)} (h : es.Pairwise fun a b => a.1 < b.1) {key : Text} {value : α} :
    es.lookup key = some value ↔ (key, value) ∈ es := by
  induction es with
  | nil => simp
  | cons e rest ih =>
    obtain ⟨k, v⟩ := e
    have hhead : ∀ e ∈ rest, k < e.1 := (List.pairwise_cons.mp h).1
    rw [lookup_cons_ite, List.mem_cons, ← ih h.of_cons]
    by_cases hk : key = k
    · subst hk
      have hnot : rest.lookup key ≠ some value := by
        intro hin
        exact List.lt_irrefl _ (hhead _ ((ih h.of_cons).mp hin))
      simp [hnot, eq_comm]
    · simp [hk]

theorem get?_eq_some_iff {d : Dict α} {key : Text} {value : α} :
    d.get? key = some value ↔ (key, value) ∈ d.entries :=
  lookup_eq_some_iff_mem d.ascending

theorem mem_keys_iff {d : Dict α} {key : Text} : key ∈ d.keys ↔ ∃ value, d.get? key = some value := by
  simp [keys, get?_eq_some_iff]

theorem contains_iff {d : Dict α} {key : Text} : d.contains key = true ↔ key ∈ d.keys := by
  rw [mem_keys_iff, contains, Option.isSome_iff_exists]

@[simp] theorem get?_empty (key : Text) : (empty : Dict α).get? key = none := rfl

@[simp] theorem keys_empty : (empty : Dict α).keys = [] := rfl

theorem lookup_insertEntry (key other : Text) (value : α) (es : List (Text × α)) :
    (insertEntry key value es).lookup other = if other = key then some value else es.lookup other := by
  induction es with
  | nil => simp [insertEntry, lookup_cons_ite]
  | cons e rest ih =>
    obtain ⟨k, v⟩ := e
    simp only [insertEntry]
    split
    next => rw [lookup_cons_ite]
    next =>
      split
      next heq => subst heq; by_cases h : other = key <;> simp [lookup_cons_ite, h]
      next hne =>
        rw [lookup_cons_ite, lookup_cons_ite, ih]
        by_cases hk : other = k
        · subst hk
          simp [Ne.symm hne]
        · simp [hk]

theorem get?_insert (d : Dict α) (key other : Text) (value : α) :
    (d.insert key value).get? other = if other = key then some value else d.get? other :=
  lookup_insertEntry key other value d.entries

theorem mem_keys_insert {d : Dict α} {key other : Text} {value : α} :
    other ∈ (d.insert key value).keys ↔ other = key ∨ other ∈ d.keys := by
  rw [mem_keys_iff, mem_keys_iff, get?_insert]
  by_cases h : other = key <;> simp [h]

theorem keys_insert_of_mem {d : Dict α} {key : Text} {value : α} (h : key ∈ d.keys) :
    (d.insert key value).keys = d.keys := by
  refine eq_of_ascending (keys_ascending _) (keys_ascending _) fun other => ?_
  rw [mem_keys_insert]
  exact ⟨fun hor => hor.elim (fun heq => heq ▸ h) id, Or.inr⟩

@[simp] theorem keys_map (f : Text → α → β) (d : Dict α) : (d.map f).keys = d.keys := by
  simp [keys, map]

theorem get?_map (f : Text → α → β) (d : Dict α) (key : Text) : (d.map f).get? key = (d.get? key).map (f key) := by
  have hlookup (es : List (Text × α)) :
      (es.map fun e => (e.1, f e.1 e.2)).lookup key = (es.lookup key).map (f key) := by
    induction es with
    | nil => rfl
    | cons e rest ih =>
      obtain ⟨k, v⟩ := e
      rw [List.map_cons, lookup_cons_ite, lookup_cons_ite, ih]
      by_cases h : key = k <;> simp [h]
  exact hlookup d.entries

theorem contains_map (f : Text → α → β) (d : Dict α) (key : Text) : (d.map f).contains key = d.contains key := by
  rw [contains, contains, get?_map, Option.isSome_map]

theorem eq_of_entries {d d' : Dict α} (h : d.entries = d'.entries) : d = d' := by
  cases d
  cases d'
  subst h
  rfl

theorem eq_of_get? {d d' : Dict α} (h : ∀ key, d.get? key = d'.get? key) : d = d' := by
  have hmem : ∀ e, e ∈ d.entries ↔ e ∈ d'.entries := by
    rintro ⟨key, value⟩
    rw [← get?_eq_some_iff, ← get?_eq_some_iff, h]
  have hperm := (List.perm_ext_iff_of_nodup d.nodup_entries d'.nodup_entries).mpr hmem
  refine eq_of_entries (hperm.eq_of_pairwise (fun a b _ _ hab hba => ?_) d.ascending d'.ascending)
  exact absurd (List.lt_trans hab hba) (List.lt_irrefl a.1)

theorem map_map {γ : Type} (f : Text → α → β) (g : Text → β → γ) (d : Dict α) :
    (d.map f).map g = d.map fun key value => g key (f key value) :=
  eq_of_entries (List.map_map ..)

theorem map_insert (f : Text → α → β) (d : Dict α) (key : Text) (value : α) :
    (d.insert key value).map f = (d.map f).insert key (f key value) := by
  have hentry (es : List (Text × α)) : (insertEntry key value es).map (fun e => (e.1, f e.1 e.2)) =
      insertEntry key (f key value) (es.map fun e => (e.1, f e.1 e.2)) := by
    induction es with
    | nil => rfl
    | cons e rest ih =>
      obtain ⟨k, v⟩ := e
      simp only [insertEntry, List.map_cons]
      split
      · rfl
      · split
        · rfl
        · rw [List.map_cons, ih]
  exact eq_of_entries (hentry d.entries)

theorem mem_values_iff {d : Dict α} {value : α} : value ∈ d.values ↔ ∃ key, d.get? key = some value := by
  simp [values, get?_eq_some_iff]

theorem map_values_eq_keys {f : α → Text} {d : Dict α} (h : ∀ key value, d.get? key = some value → f value = key) :
    d.values.map f = d.keys := by
  rw [values, keys, List.map_map]
  exact List.map_congr_left fun e he => h e.1 e.2 (get?_eq_some_iff.mpr he)

end Dict

namespace NameSet

theorem mem_keys_add {s : NameSet} {name other : Text} : other ∈ (s.add name).keys ↔ other = name ∨ other ∈ s.keys :=
  Dict.mem_keys_insert

theorem names_eq_nil_iff {s : NameSet} : s.names = [] ↔ s.isEmpty = true := by
  simp [names, Dict.keys, Dict.isEmpty]

end NameSet

end RpcBindings
