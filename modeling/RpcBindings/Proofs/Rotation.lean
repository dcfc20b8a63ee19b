import Mathlib.Logic.Function.Basic
import RpcBindings.Proofs.Beside
import RpcBindings.Proofs.Write
import RpcBindings.Settings.Save

/-!
# The rotation of backups

The backups of a path are slots beside it. Dropping the oldest empties the last slot, and moving the others on goes from
the last to the first, so that each of them finds the next slot empty. What is neither in a slot nor below one is not
touched. The settings that a save replaces are copied into the first slot once it is empty.
-/

namespace RpcBindings.Settings

open Files
open RpcBindings.Path (way follow IsName)

/-! ## Slots -/

def mark : Nat → Text
  | 0 => []
  | n + 1 => ".back" ++ Text.ofNat (n + 1)

def keptPath (path : Text) (n : Nat) : Text := path ++ mark n

/-- What is at a path and in the slots of its backups. -/
def shelved (files : System) (path : Text) (n : Nat) : Option Entry := files.occupant? (keptPath path n)

section

variable {path : Text} {m n : Nat}

@[simp] theorem keptPath_zero (path : Text) : keptPath path 0 = path := List.append_nil path

theorem shelved_zero (files : System) (path : Text) : shelved files path 0 = files.occupant? path := by
  rw [shelved, keptPath_zero]

theorem keptPath_eq_backupPath (path : Text) (hn : 1 ≤ n) : keptPath path n = backupPath path n := by
  obtain ⟨k, rfl⟩ := Nat.exists_eq_add_of_le' hn
  rw [keptPath, mark, backupPath, List.append_assoc]

theorem slash_not_mem_mark (n : Nat) : Path.slash ∉ mark n := by
  cases n with
  | zero => exact List.not_mem_nil
  | succ n =>
    have hdigits : Path.slash ∉ Text.ofNat (n + 1) := fun hin => absurd (Text.isDigit_of_mem_ofNat hin) (by decide)
    rw [mark, List.mem_append, not_or]
    exact ⟨by decide, hdigits⟩

theorem isName_mark (name : Text) (hn : 1 ≤ n) : IsName (name ++ mark n) := by
  obtain ⟨k, rfl⟩ := Nat.exists_eq_add_of_le' hn
  have hlead : (".back" : Text).length = 5 := by decide
  refine Path.isName_of_length ?_
  rw [mark, List.length_append, List.length_append, hlead]
  omega

theorem eq_one_two_three (hn : 1 ≤ n) (hn' : n ≤ backupCount) : n = 1 ∨ n = 2 ∨ n = 3 := by
  rw [backupCount] at hn'
  omega

theorem length_mark (hn : 1 ≤ n) (hn' : n ≤ backupCount) : (mark n).length = 6 ∧ (mark n).any (· == 0) = false := by
  obtain rfl | rfl | rfl := eq_one_two_three hn hn' <;> decide

theorem mark_injective (hm : m ≤ backupCount) (hn : n ≤ backupCount) (h : mark m = mark n) : m = n := by
  have hall : ∀ m < 4, ∀ n < 4, mark m = mark n → m = n := by decide
  exact hall m (Nat.lt_succ_of_le hm) n (Nat.lt_succ_of_le hn) h

theorem checkPath_mark (hn : 1 ≤ n) (hn' : n ≤ backupCount) :
    System.checkPath (path ++ mark n) = .ok () ↔
      path.any (· == 0) = false ∧ path.length + 6 < System.pathBound := by
  obtain ⟨hlength, hzero⟩ := length_mark hn hn'
  have hne : path ++ mark n ≠ [] := fun h => by simp [(List.append_eq_nil_iff.mp h).2] at hlength
  unfold System.checkPath
  rw [List.any_append, hzero, Bool.or_false, if_neg hne, List.length_append, hlength]
  split
  next h => simp [h]
  next h =>
    split
    next hlong => simp [h, Nat.not_lt.mpr hlong]
    next hshort => simp [h, Nat.lt_of_not_le hshort]

end

def place (files : System) (path : Text) (n : Nat) : Location := files.room path ++ [Path.lastElement path ++ mark n]

def Aside (files : System) (path : Text) (l : Location) : Prop :=
  ∀ n, 1 ≤ n → n ≤ backupCount → ¬ place files path n <+: l

section

variable {files s : System} {path : Text} {m n : Nat} {loc : Location}

theorem place_congr (h : s.cwd = files.cwd) : place s path n = place files path n := by
  rw [place, place, System.room_congr h]

theorem place_ne_nil (files : System) (path : Text) (n : Nat) : place files path n ≠ [] := by simp [place]

theorem dropLast_place (files : System) (path : Text) (n : Nat) : (place files path n).dropLast = files.room path :=
  List.dropLast_concat

theorem not_prefix_place (hm : m ≤ backupCount) (hn : n ≤ backupCount) (hne : m ≠ n) :
    ¬ place files path m <+: place files path n := by
  intro h
  have heq := h.eq_of_length (by simp [place])
  simp only [place, List.append_cancel_left_eq, List.cons.injEq, and_true] at heq
  exact hne (mark_injective hm hn heq)

theorem place_ne (hm : m ≤ backupCount) (hn : n ≤ backupCount) (hne : m ≠ n) :
    place files path m ≠ place files path n := fun heq => not_prefix_place hm hn hne (by rw [heq])

theorem locate_of_locate (hm : 1 ≤ m) (hm' : m ≤ backupCount) (hn : 1 ≤ n) (hn' : n ≤ backupCount)
    (h : s.locate (keptPath path m) = .ok loc) : s.locate (keptPath path n) = .ok (place s path n) := by
  rw [keptPath, System.locate_beside (slash_not_mem_mark m) (isName_mark _ hm), checkPath_mark hm hm', List.length_append,
    (length_mark hm hm').1] at h
  rw [keptPath, System.locate_beside (slash_not_mem_mark n) (isName_mark _ hn), checkPath_mark hn hn', List.length_append,
    (length_mark hn hn').1]
  exact ⟨h.1, h.2.1, rfl⟩

theorem locate_self_of_locate (hname : IsName (Path.lastElement path)) (hn : 1 ≤ n) (hn' : n ≤ backupCount)
    (h : s.locate (keptPath path n) = .ok loc) : s.locate path = .ok (place s path 0) := by
  rw [keptPath, System.locate_beside (slash_not_mem_mark n) (isName_mark _ hn), checkPath_mark hn hn', List.length_append,
    (length_mark hn hn').1] at h
  obtain ⟨⟨⟨hzero, hbound⟩, hlength⟩, hroom, -⟩ := h
  have hpath : path ≠ [] := by
    rintro rfl
    exact hname.1 rfl
  have hcheck : System.checkPath path = .ok () := by
    rw [System.checkPath, hzero, if_neg Bool.false_ne_true, if_neg hpath, if_neg (by omega)]
  have hself := @System.locate_beside s path [] (place s path 0) List.not_mem_nil (by rwa [List.append_nil])
  rw [List.append_nil, List.append_nil] at hself
  refine hself.mpr ⟨⟨hcheck, by omega⟩, hroom, ?_⟩
  rw [place, mark, List.append_nil]

theorem eq_place_of_locate (hname : IsName (Path.lastElement path)) (h : s.locate path = .ok loc) :
    loc = place s path 0 := by
  have hself := @System.locate_beside s path [] loc List.not_mem_nil (by rwa [List.append_nil])
  rw [List.append_nil, List.append_nil, h, eq_self, true_iff] at hself
  rw [hself.2.2, place, mark, List.append_nil]

theorem locate_ne (hn : 1 ≤ n) (hn' : n ≤ backupCount) : s.locate (keptPath path n) ≠ .ok (place s path 0) := by
  intro h
  have hslot := locate_of_locate hn hn' hn hn' h
  exact place_ne hn' (Nat.zero_le _) (by omega) (Except.ok.inj (hslot.symm.trans h))

theorem aside_place_zero (files : System) (path : Text) : Aside files path (place files path 0) :=
  fun n hn hn' => not_prefix_place hn' (Nat.zero_le _) (by omega)

theorem aside_room (files : System) (path : Text) : Aside files path (files.room path) :=
  fun _ _ _ => not_prefix_concat _ _

end

/-- The slots can be reached, and the way to them leads through none of them. -/
structure Open (files : System) (path : Text) : Prop where
  leads : ∀ n, 1 ≤ n → n ≤ backupCount → files.locate (keptPath path n) = .ok (place files path n)
  clear : ∀ front, front <+: way path → Aside files path (follow (files.start path) front)

theorem Open.self {files : System} {path : Text} (h : Open files path) (hname : IsName (Path.lastElement path)) :
    files.locate path = .ok (place files path 0) :=
  locate_self_of_locate hname (Nat.le_refl 1) (by decide) (h.leads 1 (Nat.le_refl 1) (by decide))

/-- A state that differs from another one in its slots only. -/
structure Shelf (files : System) (path : Text) (slots : Nat → Option Entry) (s : System) : Prop where
  cwd : s.cwd = files.cwd
  numbers : s.numbers = files.numbers
  aside : ∀ l, Aside files path l → s.tree.get? l = files.tree.get? l
  slot : ∀ n, 1 ≤ n → n ≤ backupCount → s.tree.get? (place files path n) = slots n

namespace Shelf

variable {files s : System} {path : Text} {slots slots' : Nat → Option Entry} {m n : Nat}

theorem self (hopen : Open files path) : Shelf files path (Settings.shelved files path) files :=
  ⟨rfl, rfl, fun _ _ => rfl, fun n hn hn' => (System.occupant?_of_locate (hopen.leads n hn hn')).symm⟩

theorem congr (h : Shelf files path slots s) (heq : ∀ n, 1 ≤ n → n ≤ backupCount → slots' n = slots n) :
    Shelf files path slots' s :=
  ⟨h.cwd, h.numbers, h.aside, fun n hn hn' => (h.slot n hn hn').trans (heq n hn hn').symm⟩

theorem locate (hopen : Open files path) (h : Shelf files path slots s) (n : Nat) :
    s.locate (keptPath path n) = files.locate (keptPath path n) :=
  System.locate_beside_congr h.cwd (slash_not_mem_mark n) fun front hfront => h.aside _ (hopen.clear front hfront)

theorem locate_slot (hopen : Open files path) (h : Shelf files path slots s) (hn : 1 ≤ n) (hn' : n ≤ backupCount) :
    s.locate (keptPath path n) = .ok (place files path n) :=
  (h.locate hopen n).trans (hopen.leads n hn hn')

theorem occupant? (hopen : Open files path) (h : Shelf files path slots s) (hn : 1 ≤ n) (hn' : n ≤ backupCount) :
    s.occupant? (keptPath path n) = slots n :=
  (System.occupant?_of_locate (h.locate_slot hopen hn hn')).trans (h.slot n hn hn')

theorem room_directory (hopen : Open files path) (h : Shelf files path slots s) :
    s.tree.get? (files.room path) = some .directory := by
  have hloc := hopen.leads 1 (by decide) (by decide)
  rw [keptPath, System.locate_beside (slash_not_mem_mark 1) (isName_mark _ (by decide))] at hloc
  exact (h.aside _ (aside_room files path)).trans hloc.2.1.2

theorem entryAt_self (hopen : Open files path) (h : Shelf files path slots s) : s.entryAt path = files.entryAt path := by
  have hloc := h.locate hopen 0
  rw [keptPath_zero] at hloc
  unfold System.entryAt
  rw [hloc]
  cases hself : files.locate path with
  | error e => rfl
  | ok loc =>
    have hend : loc = Path.enter (files.room path) (Path.lastElement path) := by
      rw [System.eq_follow_of_locate hself, Path.splitOn_eq_way, Path.follow_concat, System.room]
    have haside : Aside files path loc := by
      intro n hn hn'
      rw [hend]
      refine Path.not_prefix_enter (not_prefix_concat _ _) fun heq => ?_
      have hsame := Path.eq_of_enter_eq (heq.trans (Path.enter_of_isName (isName_mark _ hn)).symm) (isName_mark _ hn)
      have hempty : mark n = [] := List.self_eq_append_right.mp hsame
      have hlength := (length_mark hn hn').1
      rw [hempty] at hlength
      cases hlength
    simp only [h.aside loc haside]

theorem shelved (hopen : Open files path) (h : Shelf files path slots s) (hzero : slots 0 = Settings.shelved files path 0)
    (hn : n ≤ backupCount) : Settings.shelved s path n = slots n := by
  cases n with
  | zero => rw [hzero, shelved_zero, shelved_zero, System.occupant?, System.occupant?, h.entryAt_self hopen]
  | succ n => exact h.occupant? hopen (Nat.succ_pos n) hn

theorem erase (h : Shelf files path slots s) (hn : 1 ≤ n) (hn' : n ≤ backupCount) :
    Shelf files path (Function.update slots n none) { s with tree := s.tree.erase (place files path n) } := by
  have herase : ∀ l, (s.tree.erase (place files path n)).get? l = if place files path n <+: l then none else s.tree.get? l :=
    Tree.get?_erase_all (place_ne_nil files path n)
  refine ⟨h.cwd, h.numbers, fun l hl => ?_, fun m hm hm' => ?_⟩
  · rw [herase, if_neg (hl n hn hn'), h.aside l hl]
  · rw [herase, Function.update_apply]
    by_cases hmn : m = n
    · rw [hmn, if_pos (List.prefix_refl _), if_pos rfl]
    · rw [if_neg (not_prefix_place hn' hm' (Ne.symm hmn)), if_neg hmn, h.slot m hm hm']

theorem move (hopen : Open files path) (h : Shelf files path slots s) {e : Entry} (hn : 1 ≤ n) (hn' : n ≤ backupCount)
    (hm : 1 ≤ m) (hm' : m ≤ backupCount) (hne : n ≠ m) (he : slots n = some e) :
    Shelf files path (Function.update (Function.update slots m (some e)) n none)
      { s with tree := s.tree.move (place files path n) (place files path m) } := by
  have hparent : s.tree.get? (place files path m).dropLast = some .directory := by
    rw [dropLast_place, h.room_directory hopen]
  refine ⟨h.cwd, h.numbers, fun l hl => ?_, fun k hk hk' => ?_⟩
  · rw [Tree.get?_move_apart (hl n hn hn') (hl m hm hm'), h.aside l hl]
  · rw [Function.update_apply, Function.update_apply]
    by_cases hkn : k = n
    · rw [hkn, if_pos rfl, Tree.get?_move_source (place_ne_nil _ _ _) (not_prefix_place hm' hn' (Ne.symm hne))]
    · rw [if_neg hkn]
      by_cases hkm : k = m
      · rw [hkm, if_pos rfl]
        exact Tree.get?_move_target ((h.slot n hn hn').trans he) (place_ne_nil _ _ _) hparent
          (not_prefix_place hn' hm' hne)
      · rw [if_neg hkm, Tree.get?_move_apart (not_prefix_place hn' hk' (Ne.symm hkn))
          (not_prefix_place hm' hk' (Ne.symm hkm)), h.slot k hk hk']

theorem put (hopen : Open files path) (h : Shelf files path slots s) (content : Text) (hn : 1 ≤ n) (hn' : n ≤ backupCount)
    (hfree : slots n ≠ some .directory) :
    Shelf files path (Function.update slots n (some (.file content)))
      { s with tree := s.tree.put (place files path n) (.file content) } := by
  have hput := @Tree.get?_put s.tree _ (.file content) (place_ne_nil files path n)
    (by rw [dropLast_place, h.room_directory hopen]) (by rwa [h.slot n hn hn'])
  refine ⟨h.cwd, h.numbers, fun l hl => ?_, fun m hm hm' => ?_⟩
  · have hne : l ≠ place files path n := fun heq => hl n hn hn' (heq ▸ List.prefix_refl _)
    rw [hput, if_neg hne, h.aside l hl]
  · rw [hput, Function.update_apply, h.slot m hm hm']
    refine if_congr ⟨fun heq => ?_, fun heq => by rw [heq]⟩ rfl rfl
    by_contra hne
    exact place_ne hm' hn' hne heq

theorem rename (hopen : Open files path) (h : Shelf files path slots s) {e : Entry} (hn : 1 ≤ n) (hn' : n ≤ backupCount)
    (hm : 1 ≤ m) (hm' : m ≤ backupCount) (hne : n ≠ m) (he : slots n = some e) (hfree : slots m = none) :
    s.rename (keptPath path n) (keptPath path m) =
      .ok { s with tree := s.tree.move (place files path n) (place files path m) } := by
  have hlength := (length_mark hm hm').1
  have hold := h.locate_slot hopen hn hn'
  have hnew := h.locate_slot hopen hm hm'
  have hat : s.entryAt (keptPath path n) = .ok e :=
    System.entryAt_ok_iff.mpr ⟨_, hold, (h.slot n hn hn').trans he⟩
  have hnone : s.entryAt (keptPath path m) = .error .notFound := by
    rw [System.entryAt, hnew]
    simp only [(h.slot m hm hm').trans hfree]
  have hmark : mark m ≠ [] := fun hnil => by simp [hnil] at hlength
  have htrim : s.locateNew (keptPath path m) = s.locate (keptPath path m) :=
    System.locateNew_beside (slash_not_mem_mark m) hmark
  refine mapError_eq_ok.mpr (bind_eq_ok.mpr ⟨_, hat, bind_eq_ok.mpr ⟨_, hold, ?_⟩⟩)
  simp only [hnone, htrim, ite_self]
  refine bind_eq_ok.mpr ⟨_, hnew, ?_⟩
  refine bind_eq_ok.mpr ⟨(), System.canHold_ok (by rw [dropLast_place, h.room_directory hopen]), ?_⟩
  rw [if_neg (mt List.isPrefixOf_iff_prefix.mp (not_prefix_place hn' hm' hne))]

theorem rename_occupied (hopen : Open files path) (h : Shelf files path slots s) {old new : Entry} (hn : 1 ≤ n)
    (hn' : n ≤ backupCount) (hm : 1 ≤ m) (hm' : m ≤ backupCount) (hne : n ≠ m) (hold : slots n = some old)
    (hnew : slots m = some new) :
    s.rename (keptPath path n) (keptPath path m) =
        .ok { s with tree := s.tree.move (place files path n) (place files path m) } ∧
          ¬ (old = .directory ∨ new = .directory) ∨
      (∃ f, s.rename (keptPath path n) (keptPath path m) = .error f) ∧ (old = .directory ∨ new = .directory) := by
  have hsource := h.locate_slot hopen hn hn'
  have htarget := h.locate_slot hopen hm hm'
  have hfrom := (h.slot n hn hn').trans hold
  have hto := (h.slot m hm hm').trans hnew
  cases new with
  | directory => exact .inr ⟨⟨_, System.rename_onto_directory hsource hfrom htarget hto⟩, .inr rfl⟩
  | file content =>
    cases old with
    | directory => exact .inr ⟨⟨_, System.rename_directory_onto_file hsource hfrom htarget hto⟩, .inl rfl⟩
    | file content =>
      rw [System.rename_of_locate hsource hfrom htarget (by simp [hto]), if_neg (place_ne hn' hm' hne)]
      exact .inl ⟨rfl, by simp⟩

end Shelf

/-! ## Dropping the oldest and moving the others on -/

/-- The oldest backup stays where it is: to drop it is denied, or cannot be done. -/
def stays (s : System) (path : Text) (denials : Denials) : Bool :=
  denials.drop.isSome || !(s.remove (backupPath path backupCount)).isOk

section

variable {s : System} {path : Text} {denials : Denials}

theorem stays_of_error {f : SystemFault} (h : s.remove (backupPath path backupCount) = .error f) :
    stays s path denials = true := by
  simp [stays, h, Except.isOk, Except.toBool]

theorem exists_remove (h : stays s path denials = false) :
    denials.drop = none ∧ ∃ left, s.remove (backupPath path backupCount) = .ok left := by
  cases hremove : s.remove (backupPath path backupCount) with
  | error f =>
    rw [stays_of_error hremove] at h
    cases h
  | ok left =>
    rw [stays, Bool.or_eq_false_iff, Option.isSome_eq_false_iff, Option.isNone_iff_eq_none] at h
    exact ⟨h.1, left, rfl⟩

theorem dropOldest_of_stays (h : stays s path denials = true) : (dropOldest s path denials.drop).files = s := by
  cases hdrop : denials.drop with
  | some reason => rfl
  | none =>
    cases hremove : s.remove (backupPath path backupCount) with
    | ok left => simp [stays, hdrop, hremove, Except.isOk, Except.toBool] at h
    | error f =>
      simp only [dropOldest, hremove]
      split <;> rfl

end

def shifted (n k : Nat) (slots : Nat → Option Entry) (m : Nat) : Option Entry :=
  if m ≤ k ∨ n + 1 < m then slots m else if m = k + 1 then none else slots (m - 1)

section

variable {n k : Nat} {slots : Nat → Option Entry}

theorem shifted_self (h : slots (n + 1) = none) (m : Nat) : shifted n n slots m = slots m := by
  unfold shifted
  split
  next => rfl
  next hm => rw [show m = n + 1 by omega, if_pos rfl, h]

theorem shifted_succ_of_none (hk : k ≤ n) (h : slots (n + 1) = none) (h' : slots (n + 2) = none) (m : Nat) :
    shifted (n + 1) k slots m = shifted n k slots m := by
  by_cases hm : m = n + 2
  · subst hm
    rw [shifted, shifted, if_neg (by omega), if_neg (by omega), if_pos (by omega), h']
    exact h
  · have hsame : (m ≤ k ∨ n + 1 + 1 < m) ↔ (m ≤ k ∨ n + 1 < m) := by omega
    simp only [shifted, hsame]

theorem shifted_succ_of_some {e : Entry} (hk : k ≤ n) (h : slots (n + 1) = some e) (m : Nat) :
    shifted (n + 1) k slots m =
      shifted n k (Function.update (Function.update slots (n + 2) (some e)) (n + 1) none) m := by
  unfold shifted
  simp only [Function.update_apply]
  by_cases hm : m = n + 2
  · subst hm
    rw [if_neg (by omega), if_neg (by omega), if_pos (by omega), if_neg (by omega), if_pos rfl]
    exact h
  · grind

/-- How far the moves come, from one number down: to the end, or to a move that is denied. -/
structure Reaches (denials : Denials) (slots : Nat → Option Entry) (n k : Nat) (fault : Option Fault) : Prop where
  le : k ≤ n
  free : ∀ m, k < m → m ≤ n → slots m ≠ none → denials.move m = none
  denied : k ≠ 0 → slots k ≠ none ∧ denials.move k ≠ none
  fault_iff : fault = none ↔ k = 0

variable {denials : Denials} {fault : Option Fault}

theorem Reaches.congr {slots' : Nat → Option Entry} (h : Reaches denials slots n k fault)
    (heq : ∀ m, 1 ≤ m → m ≤ n → slots' m = slots m) : Reaches denials slots' n k fault := by
  refine ⟨h.le, fun m hm hm' => ?_, fun hk => ?_, h.fault_iff⟩
  · rw [heq m (by omega) hm']
    exact h.free m hm hm'
  · rw [heq k (Nat.pos_of_ne_zero hk) h.le]
    exact h.denied hk

theorem Reaches.succ (h : Reaches denials slots n k fault) (hfree : slots (n + 1) ≠ none → denials.move (n + 1) = none) :
    Reaches denials slots (n + 1) k fault := by
  refine ⟨Nat.le_succ_of_le h.le, fun m hm hm' => ?_, h.denied, h.fault_iff⟩
  rcases Nat.le_or_eq_of_le_succ hm' with hlow | rfl
  · exact h.free m hm hlow
  · exact hfree

theorem Reaches.eq {k' : Nat} (h : Reaches denials slots n k fault) (hle : k' ≤ n)
    (hfree : ∀ m, k' < m → m ≤ n → slots m ≠ none → denials.move m = none)
    (hdenied : k' ≠ 0 → slots k' ≠ none ∧ denials.move k' ≠ none) : k = k' := by
  rcases Nat.lt_trichotomy k k' with hlt | heq | hgt
  · obtain ⟨hthere, hno⟩ := hdenied (by omega)
    exact absurd (h.free k' hlt hle hthere) hno
  · exact heq
  · obtain ⟨hthere, hno⟩ := h.denied (by omega)
    exact absurd (hfree k hgt h.le hthere) hno

end

@[simp] theorem unlessDenied_none {α : Type} (operation : Text) (paths : List Text) (result : Except SystemFault α) :
    unlessDenied none operation paths result = result.mapError SystemFault.fault := rfl

@[simp] theorem unlessDenied_some {α : Type} (reason operation : Text) (paths : List Text) (result : Except SystemFault α) :
    unlessDenied (some reason) operation paths result = .error (.system operation paths reason) := rfl

namespace Shelf

variable {files s : System} {path : Text} {slots : Nat → Option Entry}

theorem dropOldest (hopen : Open files path) (h : Shelf files path slots s) {denials : Denials}
    (hfree : stays s path denials = false ∨ slots backupCount = none) :
    Shelf files path (Function.update slots backupCount none) (Settings.dropOldest s path denials.drop).files := by
  cases hstays : stays s path denials with
  | true =>
    have hentry : slots backupCount = none := hfree.resolve_left (by simp [hstays])
    rw [dropOldest_of_stays hstays]
    rwa [← hentry, Function.update_eq_self]
  | false =>
    obtain ⟨hdrop, left, hremove⟩ := exists_remove hstays
    have hloc := h.locate_slot hopen (n := backupCount) (by decide) (Nat.le_refl _)
    rw [keptPath_eq_backupPath path (by decide)] at hloc
    simp only [Settings.dropOldest, hdrop, hremove]
    rw [System.eq_erase_of_remove hloc hremove]
    exact h.erase (by decide) (Nat.le_refl _)

theorem shift (hopen : Open files path) (denials : Denials) {n : Nat} (hn : n + 1 ≤ backupCount)
    (h : Shelf files path slots s) (hfree : slots (n + 1) = none) :
    ∃ k, Reaches denials slots n k (shiftBackups s path n denials).fault ∧
      Shelf files path (shifted n k slots) (shiftBackups s path n denials).files := by
  -- the slot behind the first one to move is empty, and stays so for the next: the one that moved has left it
  induction n generalizing s slots with
  | zero =>
    refine ⟨0, ⟨Nat.le_refl 0, by omega, fun hne => absurd rfl hne, by simp [shiftBackups]⟩, ?_⟩
    exact h.congr fun m _ _ => shifted_self hfree m
  | succ n ih =>
    have hfirst : 1 ≤ n + 1 := by omega
    have hlast : n + 1 ≤ backupCount := by omega
    rw [shiftBackups]
    cases hentry : slots (n + 1) with
    | none =>
      have hnothing := (h.occupant? hopen hfirst hlast).trans hentry
      rw [keptPath_eq_backupPath path (by omega)] at hnothing
      obtain ⟨f, hstat⟩ := System.stat_of_nothing hnothing
      obtain ⟨k, hreach, hshelf⟩ := ih (by omega) h hentry
      simp only [hstat]
      exact ⟨k, hreach.succ fun hne => absurd hentry hne,
        hshelf.congr fun m _ _ => shifted_succ_of_none hreach.le hentry hfree m⟩
    | some e =>
      have hstat := System.stat_of_occupant? ((h.occupant? hopen hfirst hlast).trans hentry)
      rw [keptPath_eq_backupPath path (by omega)] at hstat
      cases hmove : denials.move (n + 1) with
      | some reason =>
        simp only [hstat, unlessDenied_some]
        refine ⟨n + 1, ⟨Nat.le_refl _, by omega, fun _ => ?_, by simp⟩, h.congr fun m _ _ => shifted_self hfree m⟩
        exact ⟨by simp [hentry], by simp [hmove]⟩
      | none =>
        have hrename := h.rename hopen hfirst hlast (m := n + 2) (by omega) hn (by omega) hentry hfree
        have hmoved := h.move hopen hfirst hlast (m := n + 2) (by omega) hn (by omega) hentry
        obtain ⟨k, hreach, hshelf⟩ := ih (by omega) hmoved (Function.update_self _ _ _)
        rw [keptPath_eq_backupPath path (by omega), keptPath_eq_backupPath path (by omega)] at hrename
        have hbelow : Reaches denials slots n k _ := hreach.congr fun m hm hm' => by
          rw [Function.update_of_ne (by omega), Function.update_of_ne (by omega)]
        simp only [hstat, hrename, unlessDenied_none, Except.mapError]
        exact ⟨k, hbelow.succ fun _ => hmove, hshelf.congr fun m _ _ => shifted_succ_of_some hreach.le hentry m⟩

end Shelf

/-! ## Making room -/

/-- The way to a path leads through none of its backups. Only one that is a directory could be on it. -/
def Clear (s : System) (path : Text) : Prop :=
  ∀ n, 1 ≤ n → n ≤ backupCount → s.occupant? (backupPath path n) = some .directory →
    ∀ front, front <+: way path → ¬ place s path n <+: follow (s.start path) front

def turned (s : System) (path : Text) (denials : Denials := .none) : Saving :=
  shiftBackups (dropOldest s path denials.drop).files path (backupCount - 1) denials

/-- What is in a slot if nothing moves there: something in the last one only, if it stays. -/
def undropped (stuck : Bool) (kept : Nat → Option Entry) (n : Nat) : Option Entry :=
  if n = backupCount ∧ stuck then kept n else none

/-- What is at a path and in its slots once the backups above a number have moved on. -/
def movedOn (stuck : Bool) (kept : Nat → Option Entry) (n m : Nat) : Option Entry :=
  if m ≤ n then kept m else (if m = n + 1 then none else kept (m - 1)).or (undropped stuck kept m)

/-- The oldest backup stays, another one has to take its place, and one of them is a directory. -/
def Blocked (stuck : Bool) (kept : Nat → Option Entry) : Prop :=
  stuck = true ∧ kept (backupCount - 1) ≠ none ∧ kept backupCount ≠ none ∧
    (kept (backupCount - 1) = some .directory ∨ kept backupCount = some .directory)

section

variable {s : System} {path : Text} {n : Nat} {loc : Location} {denials : Denials}

theorem clear_of_backups (h : ∀ n, 1 ≤ n → n ≤ backupCount → s.occupant? (keptPath path n) ≠ some .directory) :
    Clear s path := by
  intro n hn hn' hentry
  rw [← keptPath_eq_backupPath path hn] at hentry
  exact absurd hentry (h n hn hn')

theorem open_of_locate (hclear : Clear s path) (hn : 1 ≤ n) (hn' : n ≤ backupCount)
    (hloc : s.locate (keptPath path n) = .ok loc) : Open s path := by
  refine ⟨fun m hm hm' => locate_of_locate hn hn' hm hm' hloc, fun front hfront m hm hm' hpre => ?_⟩
  have hdir : s.tree.get? (follow (s.start path) front) = some .directory := by
    obtain ⟨more, hmore⟩ := hfront
    have hwalk := (System.locate_ok_iff.mp hloc).2
    obtain ⟨name, rest, hrest⟩ := List.exists_cons_of_ne_nil (List.concat_ne_nil (Path.lastElement path ++ mark n) more)
    rw [keptPath, System.start_beside (slash_not_mem_mark n), Path.splitOn_beside (slash_not_mem_mark n), ← hmore,
      List.append_assoc, hrest] at hwalk
    exact System.directory_of_walk_append hwalk
  have hplace := Tree.directory_of_inside hpre hdir
  have hentry : s.occupant? (backupPath path m) = some .directory := by
    rw [← keptPath_eq_backupPath path hm, System.occupant?_of_locate (locate_of_locate hn hn' hm hm' hloc), hplace]
  exact hclear m hm hm' hentry front hfront hpre

theorem open_or_error (hclear : Clear s path) :
    Open s path ∨ ∀ n, 1 ≤ n → n ≤ backupCount → ∃ e, s.locate (keptPath path n) = .error e := by
  cases hfirst : s.locate (keptPath path 1) with
  | ok loc => exact .inl (open_of_locate hclear (Nat.le_refl 1) (by decide) hfirst)
  | error e =>
    refine .inr fun n hn hn' => ?_
    cases hloc : s.locate (keptPath path n) with
    | error e => exact ⟨e, rfl⟩
    | ok loc =>
      rw [locate_of_locate hn hn' (Nat.le_refl 1) (by decide) hloc] at hfirst
      cases hfirst

theorem shiftBackups_of_nothing (h : ∀ m, 1 ≤ m → m ≤ n → s.occupant? (keptPath path m) = none) :
    shiftBackups s path n denials = ⟨s, [], none⟩ := by
  induction n with
  | zero => rfl
  | succ n ih =>
    have hnothing := h (n + 1) (by omega) (Nat.le_refl _)
    rw [keptPath_eq_backupPath path (by omega)] at hnothing
    obtain ⟨f, hf⟩ := System.stat_of_nothing hnothing
    rw [shiftBackups]
    simp only [hf]
    exact ih fun m hm hm' => h m hm (by omega)

theorem turned_of_error (h : ∀ n, 1 ≤ n → n ≤ backupCount → ∃ e, s.locate (keptPath path n) = .error e) :
    turned s path denials = ⟨s, [], none⟩ := by
  obtain ⟨e, he⟩ := h backupCount (by decide) (Nat.le_refl _)
  rw [keptPath_eq_backupPath path (by decide)] at he
  rw [turned, dropOldest_of_stays (stays_of_error (System.remove_of_error he))]
  refine shiftBackups_of_nothing fun m hm hm' => ?_
  obtain ⟨e, he⟩ := h m hm (by rw [backupCount] at hm' ⊢; omega)
  exact System.occupant?_of_error he

theorem undropped_of_lt (stuck : Bool) (kept : Nat → Option Entry) (h : n < backupCount) :
    undropped stuck kept n = none := if_neg fun hn => Nat.ne_of_lt h hn.1

section

variable {stuck : Bool} {k : Nat} {kept slots : Nat → Option Entry}

theorem undropped_of_free (h : stuck = false ∨ kept backupCount = none) (n : Nat) : undropped stuck kept n = none := by
  unfold undropped
  split
  next hn =>
    rcases h with hgone | hkept
    · simp [hgone] at hn
    · rw [hn.1, hkept]
  next => rfl

theorem not_blocked_of_free (h : stuck = false ∨ kept backupCount = none) : ¬ Blocked stuck kept := by
  rintro ⟨hstuck, -, hlast, -⟩
  rcases h with hgone | hkept
  · rw [hgone] at hstuck
    cases hstuck
  · exact hlast hkept

theorem blocked_iff {second oldest : Entry} (hsecond : kept 2 = some second) (hlast : kept backupCount = some oldest) :
    Blocked stuck kept ↔ stuck = true ∧ (second = .directory ∨ oldest = .directory) := by
  have hcount : backupCount - 1 = 2 := rfl
  rw [Blocked, hcount, hsecond, hlast]
  simp

theorem shifted_of_free (hk : k ≤ 2) (hfree : stuck = false ∨ kept backupCount = none) (hn : n ≤ backupCount) :
    shifted 2 k (Function.update kept backupCount none) n = movedOn stuck kept k n := by
  rw [backupCount] at hn
  rw [shifted, movedOn, undropped_of_free hfree, Option.or_none]
  by_cases hlow : n ≤ k
  · rw [if_pos (.inl hlow), if_pos hlow, Function.update_of_ne (by rw [backupCount]; omega)]
  · rw [if_neg (by omega), if_neg hlow, Function.update_of_ne (by rw [backupCount]; omega)]

theorem shifted_of_stuck (hk : k ≤ 1) (hslots : ∀ m ≤ 1, slots m = kept m)
    (hlast : slots backupCount = (kept 2).or (kept backupCount)) (hn : n ≤ backupCount) :
    shifted 1 k slots n = movedOn true kept k n := by
  by_cases hend : n = backupCount
  · subst hend
    rw [shifted, if_pos (.inr (by decide)), hlast, movedOn, if_neg (by rw [backupCount]; omega),
      if_neg (by rw [backupCount]; omega), undropped, if_pos ⟨rfl, rfl⟩]
    rfl
  · rw [backupCount] at hn hend
    rw [shifted, movedOn, undropped_of_lt _ _ (by rw [backupCount]; omega), Option.or_none]
    by_cases hlow : n ≤ k
    · rw [if_pos (.inl hlow), if_pos hlow, hslots n (by omega)]
    · rw [if_neg (by omega), if_neg hlow]
      split
      next => rfl
      next => exact hslots _ (by omega)

end

theorem turned_of_stays (h : stays s path denials = true) : turned s path denials = shiftBackups s path 2 denials := by
  rw [turned, dropOldest_of_stays h]
  rfl

/-- Nothing moves if the first that would have to is blocked. -/
theorem turned_of_blocked (hopen : Open s path) (h : Blocked (stays s path denials) (shelved s path)) :
    (turned s path denials).fault ≠ none ∧ (turned s path denials).files = s := by
  obtain ⟨second, hsecond⟩ : ∃ e, shelved s path 2 = some e := Option.ne_none_iff_exists'.mp h.2.1
  obtain ⟨oldest, hlast⟩ := Option.ne_none_iff_exists'.mp h.2.2.1
  obtain ⟨hstays, hdirectory⟩ := (blocked_iff hsecond hlast).mp h
  have hstat := System.stat_of_occupant? hsecond
  have hrename := (Shelf.self hopen).rename_occupied hopen (n := 2) (m := 3) (by decide) (by decide) (by decide) (by decide)
    (by decide) hsecond hlast
  rw [keptPath_eq_backupPath path (by decide)] at hstat hrename
  rw [keptPath_eq_backupPath path (by decide)] at hrename
  rw [turned_of_stays hstays, shiftBackups]
  cases denials.move 2 with
  | some reason => simp only [hstat, unlessDenied_some, ne_eq, reduceCtorEq, not_false_eq_true, and_self]
  | none =>
    rcases hrename with ⟨-, hplain⟩ | ⟨⟨f, hrename⟩, -⟩
    · exact absurd hdirectory hplain
    · simp only [hstat, hrename, unlessDenied_none, Except.mapError, ne_eq, reduceCtorEq, not_false_eq_true, and_self]

/-- Moving on below a backup that stays. -/
theorem turned_of_stuck (hopen : Open s path) (hstays : stays s path denials = true) {oldest : Entry}
    (hlast : shelved s path backupCount = some oldest) (hfree : ¬ Blocked true (shelved s path)) :
    ∃ k, Reaches denials (shelved s path) 2 k (turned s path denials).fault ∧
      Shelf s path (movedOn true (shelved s path) k) (turned s path denials).files := by
  have hstart := Shelf.self hopen
  rw [turned_of_stays hstays, shiftBackups]
  cases hsecond : shelved s path 2 with
  | none =>
    have hnothing := hsecond
    rw [shelved, keptPath_eq_backupPath path (by decide)] at hnothing
    obtain ⟨f, hf⟩ := System.stat_of_nothing hnothing
    obtain ⟨k, hreach, hshelf⟩ := hstart.shift hopen denials (n := 1) (by decide) hsecond
    simp only [hf]
    refine ⟨k, hreach.succ fun hne => absurd hsecond hne, hshelf.congr fun m _ hm' => ?_⟩
    exact (shifted_of_stuck hreach.le (fun _ _ => rfl) (by rw [hsecond, Option.none_or]) hm').symm
  | some second =>
    have hstat := System.stat_of_occupant? hsecond
    rw [keptPath_eq_backupPath path (by decide)] at hstat
    cases hmove : denials.move 2 with
    | some reason =>
      simp only [hstat, unlessDenied_some]
      refine ⟨2, ⟨Nat.le_refl 2, by omega, fun _ => ⟨by simp [hsecond], by simp [hmove]⟩, by simp⟩,
        hstart.congr fun m _ hm' => ?_⟩
      rcases Nat.lt_or_eq_of_le hm' with hlow | rfl
      · rw [movedOn, if_pos (Nat.le_of_lt_succ hlow)]
      · rw [movedOn, if_neg (by decide), if_pos (by decide), Option.none_or, undropped, if_pos ⟨rfl, rfl⟩]
    | none =>
      have hrename := hstart.rename_occupied hopen (n := 2) (m := 3) (by decide) (by decide) (by decide) (by decide)
        (by decide) hsecond hlast
      rw [keptPath_eq_backupPath path (by decide), keptPath_eq_backupPath path (by decide)] at hrename
      rcases hrename with ⟨hrename, -⟩ | ⟨-, hdirectory⟩
      · have hmoved := hstart.move hopen (n := 2) (m := 3) (by decide) (by decide) (by decide) (by decide) (by decide) hsecond
        obtain ⟨k, hreach, hshelf⟩ := hmoved.shift hopen denials (n := 1) (by decide) (Function.update_self _ _ _)
        have hkept : ∀ m ≤ 1, Function.update (Function.update (shelved s path) 3 (some second)) 2 none m =
            shelved s path m := fun m hm => by
          rw [Function.update_of_ne (by omega), Function.update_of_ne (by omega)]
        have hbelow : Reaches denials (shelved s path) 1 k _ := hreach.congr fun m _ hm' => (hkept m hm').symm
        simp only [hstat, hrename, unlessDenied_none, Except.mapError]
        refine ⟨k, hbelow.succ fun _ => hmove, hshelf.congr fun m _ hm' => ?_⟩
        refine (shifted_of_stuck hreach.le hkept ?_ hm').symm
        rw [hsecond]
        rfl
      · exact absurd ((blocked_iff hsecond hlast).mpr ⟨rfl, hdirectory⟩) hfree

/-- Unless they are blocked, the backups move on as far as no move is denied. -/
theorem turned_of_open (hopen : Open s path) (hfree : ¬ Blocked (stays s path denials) (shelved s path)) :
    ∃ k, Reaches denials (shelved s path) 2 k (turned s path denials).fault ∧
      Shelf s path (movedOn (stays s path denials) (shelved s path) k) (turned s path denials).files := by
  have hdropped : stays s path denials = false ∨ shelved s path backupCount = none →
      ∃ k, Reaches denials (shelved s path) 2 k (turned s path denials).fault ∧
        Shelf s path (movedOn (stays s path denials) (shelved s path) k) (turned s path denials).files := by
    intro hgone
    obtain ⟨k, hreach, hshelf⟩ := ((Shelf.self hopen).dropOldest hopen hgone).shift hopen denials (n := 2) (by decide)
      (Function.update_self _ _ _)
    refine ⟨k, hreach.congr fun m _ hm' => ?_, hshelf.congr fun m _ hm' => (shifted_of_free hreach.le hgone hm').symm⟩
    rw [Function.update_of_ne (by rw [backupCount]; omega)]
  cases hstays : stays s path denials with
  | false =>
    rw [← hstays]
    exact hdropped (.inl hstays)
  | true =>
    cases hlast : shelved s path backupCount with
    | none =>
      rw [← hstays]
      exact hdropped (.inr hlast)
    | some oldest =>
      rw [hstays] at hfree
      exact turned_of_stuck hopen hstays hlast hfree

/-! ## Copying the settings -/

section

variable (habsent : isAbsent s path = false)

include habsent

theorem backUp_of_fault {f : Fault} (hfault : (turned s path denials).fault = some f) :
    (backUp s path denials).files = (turned s path denials).files ∧ (backUp s path denials).fault = some f := by
  have hturned : shiftBackups (dropOldest s path denials.drop).files path (backupCount - 1) denials = turned s path denials :=
    rfl
  simp only [backUp, habsent, Bool.false_eq_true, if_false, hturned, hfault, and_self]

theorem backUp_of_unread {f : Fault} (hfault : (turned s path denials).fault = none)
    (hread : unlessDenied denials.read "open" [path] ((turned s path denials).files.read path) = .error f) :
    (backUp s path denials).files = (turned s path denials).files ∧
      (backUp s path denials).fault = some (.ofIo "read config for backup" f) := by
  have hturned : shiftBackups (dropOldest s path denials.drop).files path (backupCount - 1) denials = turned s path denials :=
    rfl
  simp only [backUp, habsent, Bool.false_eq_true, if_false, hturned, hfault, hread, and_self]

theorem backUp_of_read {content : Text} (hfault : (turned s path denials).fault = none)
    (hread : unlessDenied denials.read "open" [path] ((turned s path denials).files.read path) = .ok content) :
    (backUp s path denials).files =
        ((turned s path denials).files.overwrite (backupPath path 1) content denials.copy).1 ∧
      (backUp s path denials).fault =
        ((turned s path denials).files.overwrite (backupPath path 1) content denials.copy).2.map (.ofIo "create .back1") := by
  have hturned : shiftBackups (dropOldest s path denials.drop).files path (backupCount - 1) denials = turned s path denials :=
    rfl
  simp only [backUp, habsent, Bool.false_eq_true, if_false, hturned, hfault, hread, and_self]

theorem backUp_of_error (h : ∀ n, 1 ≤ n → n ≤ backupCount → ∃ e, s.locate (keptPath path n) = .error e) :
    (backUp s path denials).files = s ∧ (backUp s path denials).fault ≠ none := by
  have hturned := @turned_of_error s path denials h
  have hfault := congrArg Saving.fault hturned
  cases hread : unlessDenied denials.read "open" [path] ((turned s path denials).files.read path) with
  | error f =>
    obtain ⟨hfiles, hsome⟩ := backUp_of_unread habsent hfault hread
    rw [hfiles, hsome, hturned]
    exact ⟨rfl, Option.some_ne_none _⟩
  | ok content =>
    obtain ⟨hfiles, hsome⟩ := backUp_of_read habsent hfault hread
    obtain ⟨e, he⟩ := h 1 (Nat.le_refl 1) (by decide)
    rw [keptPath_eq_backupPath path (Nat.le_refl 1)] at he
    rw [hfiles, hsome, hturned, Ne, Option.map_eq_none_iff]
    exact System.overwrite_of_error he content denials.copy

end

theorem backUp_of_absent (h : isAbsent s path = true) : backUp s path denials = ⟨s, [], none⟩ := by
  rw [backUp, if_pos h]

theorem isAbsent_of_occupant? {e : Entry} (h : s.occupant? path = some e) : isAbsent s path = false := by
  rw [isAbsent, System.stat_of_occupant? h]

end

section

variable {s : Settings} {files ready : System} {path : Text} {denials : Denials}

theorem save_of_backUp_fault {f : Fault} (hready : files.mkdirAll (Path.dir path) = .ok ready)
    (hfault : (backUp ready path denials).fault = some f) :
    (save s files path denials).files = (backUp ready path denials).files ∧
      (save s files path denials).fault = some (.within "failed to create backup" f) := by
  simp only [save, hready, hfault, and_self]

theorem save_of_backUp (hready : files.mkdirAll (Path.dir path) = .ok ready)
    (hfault : (backUp ready path denials).fault = none) :
    (save s files path denials).files =
        ((backUp ready path denials).files.overwrite path (Format.toml s.tree) denials.write).1 ∧
      (save s files path denials).fault =
        ((backUp ready path denials).files.overwrite path (Format.toml s.tree) denials.write).2.map
          (.ofIo ("write config " ++ Text.guarded path)) := by
  simp only [save, hready, hfault, and_self]

theorem save_ok (h : (save s files path denials).fault = none) :
    ∃ ready, files.mkdirAll (Path.dir path) = .ok ready ∧ (backUp ready path denials).fault = none ∧
      (backUp ready path denials).files.write path (Format.toml s.tree) = .ok (save s files path denials).files := by
  cases hready : files.mkdirAll (Path.dir path) with
  | error f => simp [save, hready] at h
  | ok ready =>
    refine ⟨ready, rfl, ?_⟩
    cases hfault : (backUp ready path denials).fault with
    | some f =>
      rw [(save_of_backUp_fault hready hfault).2] at h
      cases h
    | none =>
      obtain ⟨hfiles, hsaved⟩ := save_of_backUp (s := s) hready hfault
      rw [hsaved, Option.map_eq_none_iff] at h
      have hwrite := System.unstopped_of_overwrite h
      rw [hwrite] at hfiles h
      rw [hfiles]
      rcases System.overwrite_unstopped (backUp ready path denials).files path (Format.toml s.tree) with hdone | ⟨-, hne⟩
      · exact ⟨rfl, hdone.1⟩
      · exact absurd h hne

end

/-! ## Denials -/

section

variable {s : Settings} {files ready : System} {path : Text} {denials : Denials}

end

/-! ## One save -/

def Plain (files : System) (path : Text) : Prop :=
  ∀ n ≤ backupCount, files.occupant? (keptPath path n) ≠ some .directory

section

variable {s : Settings} {files ready after : System} {path : Text} {loc : Location} {denials : Denials}

theorem isName_kept (hname : IsName (Path.lastElement path)) (n : Nat) : IsName (Path.lastElement path ++ mark n) := by
  cases n with
  | zero => rwa [mark, List.append_nil]
  | succ n => exact isName_mark _ (Nat.succ_pos n)

theorem occupant?_of_mkdirAll {n : Nat} (hready : files.mkdirAll (Path.dir path) = .ok ready)
    (hname : IsName (Path.lastElement path ++ mark n)) :
    ready.occupant? (keptPath path n) = files.occupant? (keptPath path n) :=
  (System.paving_of_mkdirAllFrom hready).occupant?_beside (slash_not_mem_mark n) hname

/-- Where no directory fills the last slot, everything moves on. -/
theorem turned_of_plain (hopen : Open ready path) (hlast : shelved ready path backupCount ≠ some .directory) :
    (turned ready path).fault = none ∧ Shelf ready path (movedOn false (shelved ready path) 0) (turned ready path).files := by
  have hgone : stays ready path .none = false ∨ shelved ready path backupCount = none := by
    cases hentry : shelved ready path backupCount with
    | none => exact .inr rfl
    | some e =>
      cases e with
      | directory => exact absurd hentry hlast
      | file content =>
        have hloc := hopen.leads backupCount (by decide) (Nat.le_refl _)
        have hslot := (System.occupant?_of_locate hloc).symm.trans hentry
        rw [keptPath_eq_backupPath path (by decide)] at hloc
        rw [stays, System.remove_file hloc hslot]
        exact .inl rfl
  obtain ⟨k, hreach, hshelf⟩ := turned_of_open hopen (not_blocked_of_free hgone)
  obtain rfl : k = 0 := by
    by_contra hk
    exact (hreach.denied hk).2 rfl
  refine ⟨hreach.fault_iff.mpr rfl, hshelf.congr fun m _ _ => ?_⟩
  rw [movedOn, movedOn, undropped_of_free hgone, undropped_of_free (.inl rfl)]

theorem backUp_of_turned {slots : Nat → Option Entry} {old : Text} (hopen : Open ready path)
    (hpath : ready.occupant? path = some (.file old)) (hread : denials.read = none)
    (hfault : (turned ready path denials).fault = none)
    (hshelf : Shelf ready path slots (turned ready path denials).files) (hfirst : slots 1 = none) :
    (backUp ready path denials).fault = denials.copy.map (fun p => .ofIo "create .back1" (p.fault (backupPath path 1))) ∧
      Shelf ready path (Function.update slots 1 ((Stop.reached old denials.copy).map .file))
        (backUp ready path denials).files := by
  have hcontent : unlessDenied denials.read "open" [path] ((turned ready path denials).files.read path) = .ok old := by
    have hentry := hpath
    rw [System.occupant?, toOption_eq_some] at hentry
    rw [hread, unlessDenied_none, System.read, hshelf.entryAt_self hopen, hentry]
    rfl
  obtain ⟨hfiles, hdone⟩ := backUp_of_read (isAbsent_of_occupant? hpath) hfault hcontent
  have hloc := hshelf.locate_slot hopen (n := 1) (Nat.le_refl 1) (by decide)
  have hfree : (turned ready path denials).files.tree.get? (place ready path 1) ≠ some .directory := by
    rw [hshelf.slot 1 (Nat.le_refl 1) (by decide), hfirst]
    simp
  rw [keptPath_eq_backupPath path (by decide)] at hloc
  cases hreached : Stop.reached old denials.copy with
  | some text =>
    rw [System.overwrite_of_reached hloc hfree hreached] at hfiles hdone
    rw [hfiles, hdone, Option.map_map]
    exact ⟨rfl, hshelf.put hopen text (Nat.le_refl 1) (by decide) (by simp [hfirst])⟩
  | none =>
    obtain ⟨p, hcopy, hheld⟩ := System.unopened_of_reached hreached
    rw [hcopy, System.overwrite_of_unopened hheld] at hfiles hdone
    rw [hfiles, hdone, hcopy]
    refine ⟨rfl, hshelf.congr fun m _ _ => ?_⟩
    by_cases hm : m = 1
    · rw [hm, Function.update_self, hfirst]
      rfl
    · rw [Function.update_of_ne hm]

theorem replaced_put (hloc : ready.locate path = .ok loc) (hdir : ready.tree.get? loc ≠ some .directory) (content : Text) :
    Generate.Replaced loc content ready { ready with tree := ready.tree.put loc (.file content) } :=
  ⟨rfl, rfl, Tree.get?_put (System.ne_nil_of_not_directory hdir) (System.locate_parent hloc) hdir⟩

theorem exists_replaced {content : Text} (h : ready.write path content = .ok after) :
    ∃ loc, ready.locate path = .ok loc ∧ ready.tree.get? loc ≠ some .directory ∧
      Generate.Replaced loc content ready after := by
  obtain ⟨loc, hloc, hdir⟩ := System.locate_of_write h
  rw [System.write_of_locate hloc hdir] at h
  obtain rfl := Except.ok.inj h
  exact ⟨loc, hloc, hdir, replaced_put hloc hdir content⟩

theorem occupant?_of_replaced {content : Text} (hdir : ready.tree.get? loc ≠ some .directory)
    (h : Generate.Replaced loc content ready after) (p : Text) :
    (ready.locate p = .ok loc → after.occupant? p = some (.file content)) ∧
      (ready.locate p ≠ .ok loc → after.occupant? p = ready.occupant? p) := by
  have hsame := h.sameDirectories hdir
  constructor
  · intro hloc
    rw [System.occupant?_of_locate (hsame.locate.mpr hloc), h.entry, if_pos rfl]
  · intro hne
    refine Option.ext fun e => ?_
    rw [System.occupant?_eq_some_iff, System.occupant?_eq_some_iff]
    refine exists_congr fun l => ?_
    rw [hsame.locate, h.entry]
    refine and_congr_right fun hl => ?_
    rw [if_neg]
    rintro rfl
    exact hne hl

theorem save_of_ready (hready : files.mkdirAll (Path.dir path) = .ok ready)
    (hbacked : (backUp ready path denials).fault = none) (hwrite : denials.write = none)
    (hloc : (backUp ready path denials).files.locate path = .ok loc)
    (hdir : (backUp ready path denials).files.tree.get? loc ≠ some .directory) :
    (save s files path denials).fault = none ∧
      Generate.Replaced loc (Format.toml s.tree) (backUp ready path denials).files (save s files path denials).files := by
  obtain ⟨hfiles, hfault⟩ := save_of_backUp (s := s) hready hbacked
  rw [hwrite, System.overwrite_of_reached hloc hdir rfl] at hfiles hfault
  rw [hfiles]
  exact ⟨hfault, replaced_put hloc hdir _⟩

theorem save_of_shelf (s : Settings) {slots : Nat → Option Entry} {old : Text}
    (hready : files.mkdirAll (Path.dir path) = .ok ready) (hopen : Open ready path)
    (hname : IsName (Path.lastElement path)) (hpath : ready.occupant? path = some (.file old))
    (hfault : (backUp ready path denials).fault = none) (hwrite : denials.write = none)
    (hshelf : Shelf ready path slots (backUp ready path denials).files) :
    (save s files path denials).fault = none ∧
      (backUp ready path denials).files.tree.get? (place ready path 0) = some (.file old) ∧
      Generate.Replaced (place ready path 0) (Format.toml s.tree) (backUp ready path denials).files
        (save s files path denials).files := by
  have hself := hopen.self hname
  have hloc := hshelf.locate hopen 0
  rw [keptPath_zero, hself] at hloc
  have hfile : (backUp ready path denials).files.tree.get? (place ready path 0) = some (.file old) := by
    rw [hshelf.aside _ (aside_place_zero ready path), ← System.occupant?_of_locate hself, hpath]
  obtain ⟨hdone, hreplaced⟩ := save_of_ready (s := s) hready hfault hwrite hloc (by simp [hfile])
  exact ⟨hdone, hfile, hreplaced⟩

theorem isAbsent_of_nothing (hloc : ready.locate path = .ok loc) (h : ready.occupant? path = none) :
    isAbsent ready path = true := by
  rw [System.occupant?_of_locate hloc] at h
  have hstat : ready.stat path = .error ⟨"stat", [path], .notFound⟩ := by
    unfold System.stat System.entryAt
    simp only [hloc, h]
    rfl
  simp [isAbsent, hstat]

theorem Shelf.get?_of_plain {slots : Nat → Option Entry} {backed : System} (h : Shelf ready path slots backed)
    (hold : ∀ n, 1 ≤ n → n ≤ backupCount → ready.tree.get? (place ready path n) ≠ some .directory)
    (hnew : ∀ n, 1 ≤ n → n ≤ backupCount → slots n ≠ some .directory) {l : Location}
    (hl : ∀ n, 1 ≤ n → n ≤ backupCount → l ≠ place ready path n) : backed.tree.get? l = ready.tree.get? l := by
  by_cases haside : Aside ready path l
  · exact h.aside l haside
  · simp only [Aside, not_forall, not_not] at haside
    obtain ⟨n, hn, hn', hpre⟩ := haside
    have hbelow : ∀ t : Tree, t.get? (place ready path n) ≠ some .directory → t.get? l = none := by
      intro t hslot
      by_contra hsome
      obtain ⟨e, he⟩ := Option.ne_none_iff_exists'.mp hsome
      exact hslot (Tree.directory_of_below hpre (hl n hn hn') he)
    rw [hbelow _ (hold n hn hn'), hbelow _ (by rw [h.slot n hn hn']; exact hnew n hn hn')]

theorem Shelf.sameDirectories {slots : Nat → Option Entry} {backed : System} (h : Shelf ready path slots backed)
    (hold : ∀ n, 1 ≤ n → n ≤ backupCount → ready.tree.get? (place ready path n) ≠ some .directory)
    (hnew : ∀ n, 1 ≤ n → n ≤ backupCount → slots n ≠ some .directory) : ready.SameDirectories backed := by
  refine ⟨h.cwd, h.numbers, fun l => ?_⟩
  by_cases hl : ∀ n, 1 ≤ n → n ≤ backupCount → l ≠ place ready path n
  · rw [h.get?_of_plain hold hnew hl]
  · simp only [not_forall, not_not] at hl
    obtain ⟨n, hn, hn', rfl⟩ := hl
    rw [h.slot n hn hn']
    exact iff_of_false (hnew n hn hn') (hold n hn hn')

end

end RpcBindings.Settings
