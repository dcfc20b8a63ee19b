import RpcBindings.Proofs.Rotation

/-!
# The backups over a history of saves

A save that works takes the settings into the first backup and each backup into the next one. Over a history of saves at
one path, the path and its backups therefore hold the newest settings in the order of their age.
-/

namespace RpcBindings.Settings

open Files
open RpcBindings.Path (IsName)

/-! ## One save -/

/-- The settings have moved into the first backup and each backup into the next, or nothing has moved because there were
no settings. The path holds the new ones, and every other file is as it was. -/
structure Rotated (path content : Text) (files after : System) : Prop where
  current : after.occupant? path = some (.file content)
  moved : files.occupant? path ≠ none → ∀ n, 1 ≤ n → n ≤ backupCount →
    after.occupant? (keptPath path n) = files.occupant? (keptPath path (n - 1))
  unmoved : files.occupant? path = none → ∀ n, 1 ≤ n → n ≤ backupCount →
    after.occupant? (keptPath path n) = files.occupant? (keptPath path n)
  leads : ∀ n loc, files.locate (keptPath path n) = .ok loc → after.locate (keptPath path n) = .ok loc
  elsewhere : ∀ loc, (∀ n ≤ backupCount, after.locate (keptPath path n) ≠ .ok loc) → ∀ content,
    after.tree.get? loc = some (.file content) ↔ files.tree.get? loc = some (.file content)

section

variable {s : Settings} {files ready after : System} {path content : Text}

end

/-! ## A history of saves -/

/-- The path and its backups hold the last settings of a history, the newest first. Every other file is as it was. -/
structure Kept (path : Text) (history : List Settings) (files after : System) : Prop where
  slot : ∀ n ≤ backupCount, after.occupant? (keptPath path n) =
    (history.reverse[n]?).map fun s => Entry.file (Format.toml s.tree)
  leads : ∀ n loc, files.locate (keptPath path n) = .ok loc → after.locate (keptPath path n) = .ok loc
  elsewhere : ∀ loc, (∀ n ≤ backupCount, after.locate (keptPath path n) ≠ .ok loc) → ∀ content,
    after.tree.get? loc = some (.file content) ↔ files.tree.get? loc = some (.file content)

section

variable {s : Settings} {history : List Settings} {files before after : System} {path : Text}

theorem Kept.plain (h : Kept path history files after) : Plain after path := by
  intro n hn hdir
  rw [h.slot n hn, Option.map_eq_some_iff] at hdir
  obtain ⟨s, -, hs⟩ := hdir
  cases hs

theorem Kept.nothing_iff (h : Kept path history files after) : after.occupant? path = none ↔ history = [] := by
  have hpath := h.slot 0 (Nat.zero_le _)
  rw [keptPath_zero] at hpath
  rw [hpath, Option.map_eq_none_iff, List.getElem?_eq_none_iff, List.length_reverse, Nat.le_zero, List.length_eq_zero_iff]

theorem Kept.concat (h : Kept path history files before) (hrotated : Rotated path (Format.toml s.tree) before after) :
    Kept path (history ++ [s]) files after := by
  refine ⟨fun n hn => ?_, fun n loc hloc => hrotated.leads n loc (h.leads n loc hloc), fun loc hloc content => ?_⟩
  · rw [List.reverse_concat]
    cases n with
    | zero => rw [keptPath_zero, hrotated.current]; rfl
    | succ n =>
      rw [List.getElem?_cons_succ]
      by_cases hnone : before.occupant? path = none
      · -- nothing has been saved, so there are no backups either
        rw [hrotated.unmoved hnone _ (by omega) hn, h.slot _ hn, h.nothing_iff.mp hnone]
        rfl
      · rw [hrotated.moved hnone _ (by omega) hn, Nat.add_sub_cancel, h.slot n (by omega)]
  · rw [hrotated.elsewhere loc hloc, h.elsewhere loc fun n hn hbefore => hloc n hn (hrotated.leads n loc hbefore)]

end

def withJobs (jobs : Int) : Settings := { Settings.default with generate := ⟨jobs⟩ }

end RpcBindings.Settings
