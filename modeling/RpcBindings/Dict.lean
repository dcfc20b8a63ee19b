import RpcBindings.Text.Basic

/-!
# Dictionaries in byte order

A dictionary holds values under distinct names, in the byte order of the names. The order is part of the type, so every
listing of a dictionary is sorted and free of repetitions.
-/

namespace RpcBindings

/-- Values under distinct names, in the byte order of the names. -/
structure Dict (α : Type) where
  entries : List (Text × α)
  ascending : entries.Pairwise fun a b => a.1 < b.1

namespace Dict

variable {α β : Type}

theorem lt_of_not_lt_of_ne {a b : Text} (hlt : ¬ a < b) (hne : ¬ a = b) : b < a := by
  have hle : b ≤ a := List.not_lt.mp hlt
  rcases List.le_iff_lt_or_eq.mp hle with h | h
  · exact h
  · exact absurd h.symm hne

def empty : Dict α := ⟨[], .nil⟩

instance : EmptyCollection (Dict α) := ⟨empty⟩

instance : Inhabited (Dict α) := ⟨empty⟩

def insertEntry (key : Text) (value : α) : List (Text × α) → List (Text × α)
  | [] => [(key, value)]
  | (k, v) :: rest =>
    if key < k then (key, value) :: (k, v) :: rest
    else if key = k then (key, value) :: rest
    else (k, v) :: insertEntry key value rest

theorem mem_insertEntry {key : Text} {value : α} {es : List (Text × α)} {e : Text × α}
    (h : e ∈ insertEntry key value es) : e = (key, value) ∨ e ∈ es := by
  induction es with
  | nil => simpa [insertEntry] using h
  | cons head rest ih =>
    obtain ⟨k, v⟩ := head
    simp only [insertEntry] at h
    split at h
    · simpa using h
    · split at h
      · rcases List.mem_cons.mp h with h | h
        · exact .inl h
        · exact .inr (List.mem_cons_of_mem _ h)
      · rcases List.mem_cons.mp h with h | h
        · exact .inr (h ▸ List.mem_cons_self)
        · exact (ih h).imp id (List.mem_cons_of_mem _)

theorem insertEntry_ascending {key : Text} {value : α} {es : List (Text × α)}
    (h : es.Pairwise fun a b => a.1 < b.1) : (insertEntry key value es).Pairwise fun a b => a.1 < b.1 := by
  induction es with
  | nil => simp [insertEntry]
  | cons head rest ih =>
    obtain ⟨k, v⟩ := head
    have hhead : ∀ e ∈ rest, k < e.1 := (List.pairwise_cons.mp h).1
    have hrest := List.Pairwise.of_cons h
    simp only [insertEntry]
    split
    next hlt =>
      refine .cons (fun e he => ?_) h
      rcases List.mem_cons.mp he with rfl | he
      · exact hlt
      · exact List.lt_trans hlt (hhead e he)
    next hlt =>
      split
      next heq => subst heq; exact .cons (fun e he => hhead e he) hrest
      next hne =>
        refine .cons (fun e he => ?_) (ih hrest)
        rcases mem_insertEntry he with rfl | he
        · exact lt_of_not_lt_of_ne hlt hne
        · exact hhead e he

def insert (d : Dict α) (key : Text) (value : α) : Dict α :=
  ⟨insertEntry key value d.entries, insertEntry_ascending d.ascending⟩

def get? (d : Dict α) (key : Text) : Option α := d.entries.lookup key

def contains (d : Dict α) (key : Text) : Bool := (d.get? key).isSome

def keys (d : Dict α) : List Text := d.entries.map (·.1)

def values (d : Dict α) : List α := d.entries.map (·.2)

def size (d : Dict α) : Nat := d.entries.length

def isEmpty (d : Dict α) : Bool := d.entries.isEmpty

def map (f : Text → α → β) (d : Dict α) : Dict β :=
  ⟨d.entries.map fun e => (e.1, f e.1 e.2), by simpa [List.pairwise_map] using d.ascending⟩

def ofList (es : List (Text × α)) : Dict α := es.foldl (fun d e => d.insert e.1 e.2) empty

theorem keys_ascending (d : Dict α) : d.keys.Pairwise (· < ·) := by
  simpa [keys, List.pairwise_map] using d.ascending

end Dict

abbrev NameSet := Dict Unit

namespace NameSet

def add (s : NameSet) (name : Text) : NameSet := s.insert name ()

def names (s : NameSet) : List Text := s.keys

end NameSet

end RpcBindings
