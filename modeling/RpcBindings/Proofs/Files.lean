import Mathlib.Data.List.Induction
import Mathlib.Data.List.Infix
import RpcBindings.Files.System
import RpcBindings.Proofs.Basic
import RpcBindings.Proofs.Dict
import RpcBindings.Proofs.Path

/-!
# What operations do to files

A tree is known by what stands at each location. Every operation on files is described by that: which location gets
another entry, and that all others keep theirs. Paths lead through directories only, so two trees with the same
directories give every path the same location.
-/

namespace RpcBindings.Files

namespace Tree

variable {t t' : Tree} {loc : Location}

@[simp] theorem get?_nil (t : Tree) : t.get? [] = some .directory := rfl

theorem get?_concat (t : Tree) (loc : Location) (name : Text) :
    t.get? (loc ++ [name]) =
      if t.get? loc = some .directory then t.entries.lookup (loc ++ [name]) else none := by
  unfold get?
  rw [List.reverse_concat, getUp?, ← List.reverse_concat, List.reverse_reverse]

theorem directory_of_append {more : Location} {e : Entry} (hmore : more ≠ []) (h : t.get? (loc ++ more) = some e) :
    t.get? loc = some .directory := by
  induction more using List.reverseRecOn generalizing e with
  | nil => exact absurd rfl hmore
  | append_singleton more name ih =>
    rw [← List.append_assoc, get?_concat] at h
    split at h
    next hdir =>
      by_cases hempty : more = []
      · simpa [hempty] using hdir
      · exact ih hempty hdir
    next => cases h

theorem directory_of_below {inner : Location} {e : Entry} (hinner : loc <+: inner) (hne : inner ≠ loc)
    (h : t.get? inner = some e) : t.get? loc = some .directory := by
  obtain ⟨more, rfl⟩ := hinner
  have hmore : more ≠ [] := by
    rintro rfl
    exact hne (List.append_nil loc)
  exact directory_of_append hmore h

theorem directory_of_parent {inner : Location} (hinner : loc <+: inner) (hne : inner ≠ loc)
    (h : t.get? inner.dropLast = some .directory) : t.get? loc = some .directory := by
  cases inner using List.reverseRecOn with
  | nil => exact absurd (List.prefix_nil.mp hinner).symm hne
  | append_singleton up name =>
    rw [List.dropLast_concat] at h
    have hup : loc <+: up := (List.prefix_concat_iff.mp hinner).resolve_left (Ne.symm hne)
    by_cases heq : up = loc
    · exact heq ▸ h
    · exact directory_of_below hup heq h

theorem directory_dropLast (h : t.get? loc = some .directory) : t.get? loc.dropLast = some .directory := by
  cases loc using List.reverseRecOn with
  | nil => exact h
  | append_singleton loc name =>
    rw [List.dropLast_concat]
    exact directory_of_append (List.cons_ne_nil name []) h

theorem get?_update {e : Option Entry} (hne : loc ≠ []) (hparent : t.get? loc.dropLast = some .directory)
    (hloc : t.get? loc ≠ some .directory) (hat : t'.entries.lookup loc = e)
    (hbelow : e = some .directory → ∀ l, loc <+: l → l ≠ loc → t'.entries.lookup l = none)
    (helse : ∀ l, ¬ loc <+: l → t'.entries.lookup l = t.entries.lookup l) (l : Location) :
    t'.get? l = if l = loc then e else t.get? l := by
  induction l using List.reverseRecOn with
  | nil => rw [if_neg hne.symm, get?_nil, get?_nil]
  | append_singleton l name ih =>
    rw [get?_concat, ih]
    by_cases hself : l ++ [name] = loc
    · have hup : l ≠ loc := by
        rintro rfl
        simp at hself
      have hdir : t.get? l = some .directory := by
        rw [← hself, List.dropLast_concat] at hparent
        exact hparent
      rw [if_neg hup, if_pos hdir, if_pos hself, hself, hat]
    rw [if_neg hself, get?_concat]
    by_cases hup : l = loc
    · subst hup
      rw [if_pos rfl, if_neg hloc]
      by_cases he : e = some .directory
      · rw [if_pos he, hbelow he _ (List.prefix_append _ _) hself]
      · rw [if_neg he]
    · rw [if_neg hup]
      -- only below a directory do the listings matter, and none of those is below the change
      by_cases hdir : t.get? l = some .directory
      · rw [if_pos hdir, if_pos hdir, helse]
        intro hpre
        have hin : loc <+: l := (List.prefix_concat_iff.mp hpre).resolve_left (Ne.symm hself)
        exact hloc (directory_of_below hin hup hdir)
      · rw [if_neg hdir, if_neg hdir]

theorem lookup_erase (t : Tree) (loc l : Location) :
    (t.erase loc).entries.lookup l = if loc <+: l then none else t.entries.lookup l := by
  rw [erase, lookup_filter_key (fun k => !loc.isPrefixOf k)]
  by_cases h : loc <+: l
  · simp [h, List.isPrefixOf_iff_prefix.mpr h]
  · rw [if_neg h, if_pos]
    simpa [← List.isPrefixOf_iff_prefix] using h

theorem get?_erase_all (hne : loc ≠ []) (l : Location) :
    (t.erase loc).get? l = if loc <+: l then none else t.get? l := by
  induction l using List.reverseRecOn with
  | nil => rw [if_neg (mt List.prefix_nil.mp hne), get?_nil, get?_nil]
  | append_singleton l name ih =>
    rw [get?_concat, get?_concat, ih, lookup_erase]
    by_cases hin : loc <+: l ++ [name]
    · simp [hin]
    · have hout : ¬ loc <+: l := fun h => hin (h.trans (List.prefix_append l [name]))
      simp [hin, hout]

theorem get?_put {e : Entry} (hne : loc ≠ []) (hparent : t.get? loc.dropLast = some .directory)
    (hloc : t.get? loc ≠ some .directory) (l : Location) :
    (t.put loc e).get? l = if l = loc then some e else t.get? l := by
  have hlookup : ∀ l, l ≠ loc → (t.put loc e).entries.lookup l = if loc <+: l then none else t.entries.lookup l := by
    intro l hl
    rw [put, lookup_cons_ite, if_neg hl, lookup_erase]
  refine get?_update hne hparent hloc ?_ ?_ ?_ l
  · rw [put, lookup_cons_ite, if_pos rfl]
  · intro _ l hpre hl
    rw [hlookup l hl, if_pos hpre]
  · intro l hpre
    rw [hlookup l (fun hl => hpre (hl ▸ List.prefix_refl loc)), if_neg hpre]

theorem get?_erase (hne : loc ≠ []) (hparent : t.get? loc.dropLast = some .directory)
    (hloc : t.get? loc ≠ some .directory) (l : Location) :
    (t.erase loc).get? l = if l = loc then none else t.get? l := by
  refine get?_update hne hparent hloc ?_ ?_ ?_ l
  · rw [lookup_erase, if_pos (List.prefix_refl loc)]
  · intro he
    cases he
  · intro l hpre
    rw [lookup_erase, if_neg hpre]

theorem lookup_moved (source target : Location) (entries : List (Location × Entry)) :
    (entries.filterMap fun x =>
      if source.isPrefixOf x.1 then some (target ++ x.1.drop source.length, x.2) else none).lookup target =
      entries.lookup source := by
  induction entries with
  | nil => rfl
  | cons x rest ih =>
    obtain ⟨k, e⟩ := x
    rw [lookup_cons_ite]
    by_cases hpre : source <+: k
    · obtain ⟨more, rfl⟩ := hpre
      rw [List.filterMap_cons_some (b := (target ++ more, e)) (by simp), lookup_cons_ite, ih]
      simp
    · have hne : source ≠ k := fun h => hpre (h ▸ List.prefix_refl source)
      rw [List.filterMap_cons_none (by simpa using hpre), ih, if_neg hne]

theorem lookup_moved_else (source target l : Location) (entries : List (Location × Entry)) (h : ¬ target <+: l) :
    (entries.filterMap fun x =>
      if source.isPrefixOf x.1 then some (target ++ x.1.drop source.length, x.2) else none).lookup l = none := by
  rw [List.lookup_eq_none_iff]
  intro x hx
  obtain ⟨y, -, hy⟩ := List.mem_filterMap.mp hx
  split at hy
  next =>
    obtain rfl := Option.some.inj hy
    refine bne_iff_ne.mpr ?_
    rintro rfl
    exact h (List.prefix_append _ _)
  next => cases hy

theorem get?_move {source target : Location} {content : Text} (hsource : t.get? source = some (.file content))
    (hne : target ≠ []) (hparent : t.get? target.dropLast = some .directory)
    (htarget : t.get? target ≠ some .directory) (hdiff : target ≠ source) (l : Location) :
    (t.move source target).get? l =
      if l = target then some (.file content) else if l = source then none else t.get? l := by
  have hroot : source ≠ [] := by
    rintro rfl
    cases hsource
  have hfile : t.get? source ≠ some .directory := by simp [hsource]
  obtain ⟨up, name, rfl⟩ : ∃ up name, source = up ++ [name] := ⟨_, _, (List.dropLast_concat_getLast hroot).symm⟩
  have hup : t.get? up = some .directory := directory_of_append (List.cons_ne_nil name []) hsource
  have herased := get?_erase hroot (by rwa [List.dropLast_concat]) hfile
  have hlookup : t.entries.lookup (up ++ [name]) = some (.file content) := by
    rw [get?_concat, if_pos hup] at hsource
    exact hsource
  rw [← herased]
  refine get?_update hne ?_ ?_ ?_ ?_ ?_ l
  · rw [herased, if_neg, hparent]
    rintro heq
    rw [heq, hsource] at hparent
    cases hparent
  · rw [herased, if_neg hdiff]
    exact htarget
  · rw [move, List.lookup_append, lookup_moved, hlookup]
    rfl
  · intro he
    cases he
  · intro l hl
    rw [move, List.lookup_append, lookup_moved_else _ _ _ _ hl, lookup_erase, if_neg hl]
    rfl

theorem childName?_eq_some_iff {inner : Location} {name : Text} :
    childName? loc inner = some name ↔ inner = loc ++ [name] := by
  fun_induction childName? loc inner with
  | case1 only => simp [eq_comm]
  | case2 a loc inner ih => simpa using ih
  | case3 a loc b inner hne => simp [Ne.symm hne]
  | case4 loc inner hsingle hcons =>
    refine iff_of_false (by simp) ?_
    rintro rfl
    cases loc with
    | nil => exact hsingle name rfl rfl
    | cons a loc => exact hcons a loc a (loc ++ [name]) rfl rfl

theorem get?_inside (entries : List (Location × Entry)) (loc : Location) (name : Text) :
    (inside loc entries).get? name = entries.lookup (loc ++ [name]) := by
  induction entries with
  | nil => rfl
  | cons x rest ih =>
    obtain ⟨inner, e⟩ := x
    rw [lookup_cons_ite, inside]
    split
    next other hother =>
      obtain rfl := childName?_eq_some_iff.mp hother
      simp [Dict.get?_insert, ih]
    next hnone =>
      have hne : loc ++ [name] ≠ inner := fun heq =>
        Option.some_ne_none name ((childName?_eq_some_iff.mpr heq.symm).symm.trans hnone)
      rw [if_neg hne, ih]

theorem mem_children_iff (h : t.get? loc = some .directory) {name : Text} {e : Entry} :
    (name, e) ∈ t.children loc ↔ t.get? (loc ++ [name]) = some e := by
  rw [children, ← Dict.get?_eq_some_iff, get?_inside, get?_concat, if_pos h]

theorem children_congr (h : t.get? loc = some .directory) (hsame : ∀ l, t'.get? l = t.get? l) :
    t'.children loc = t.children loc := by
  have hinside : inside loc t'.entries = inside loc t.entries := by
    refine Dict.eq_of_get? fun name => ?_
    have hname := hsame (loc ++ [name])
    rwa [get?_concat, get?_concat, hsame, if_pos h, if_pos h, ← get?_inside, ← get?_inside] at hname
  rw [children, children, hinside]

end Tree

namespace System

open RpcBindings.Path (enter follow)

/-! ## Following paths -/

section

variable {t t' : Tree} {loc l : Location} {names : List Text}

theorem walk_cons_ok {name : Text} :
    walk t loc (name :: names) = .ok l ↔
      t.get? loc = some .directory ∧ name.length ≤ longestName ∧ walk t (enter loc name) names = .ok l := by
  rw [walk]
  cases t.get? loc with
  | none => simp
  | some e =>
    cases e with
    | file content => simp
    | directory =>
      by_cases hskip : name = [] ∨ name = "."
      · have hlength : name.length ≤ longestName := by rcases hskip with rfl | rfl <;> decide
        simp [hskip, hlength, Path.enter_of_skip hskip]
      · by_cases hup : name = ".."
        · subst hup
          have hlength : (".." : Text).length ≤ longestName := by decide
          simp only [if_neg hskip, if_true, hlength, Path.enter_up, true_and]
        · have hname : Path.IsName name := ⟨fun h => hskip (.inl h), fun h => hskip (.inr h), hup⟩
          simp only [if_neg hskip, if_neg hup, Path.enter_of_isName hname, true_and]
          by_cases hlength : longestName < name.length
          · simp [hlength, Nat.not_le_of_lt hlength]
          · simp [hlength, Nat.le_of_not_lt hlength]

theorem eq_follow_of_walk (h : walk t loc names = .ok l) : l = follow loc names := by
  induction names generalizing loc with
  | nil => exact (Except.ok.inj h).symm
  | cons name names ih =>
    rw [walk_cons_ok] at h
    exact ih h.2.2

theorem walk_append_ok {more : List Text} :
    walk t loc (names ++ more) = .ok l ↔ ∃ m, walk t loc names = .ok m ∧ walk t m more = .ok l := by
  induction names generalizing loc with
  | nil => simp [walk]
  | cons name names ih => simp only [List.cons_append, walk_cons_ok, ih, and_assoc, exists_and_left]

theorem walk_mono (hdirs : ∀ l, t.get? l = some .directory → t'.get? l = some .directory)
    (h : walk t loc names = .ok l) : walk t' loc names = .ok l := by
  induction names generalizing loc with
  | nil => exact h
  | cons name names ih =>
    rw [walk_cons_ok] at h ⊢
    exact ⟨hdirs loc h.1, h.2.1, ih h.2.2⟩

theorem directory_of_walk (h : walk t loc names = .ok l) (hne : names ≠ []) : t.get? loc = some .directory := by
  obtain ⟨name, rest, rfl⟩ := List.exists_cons_of_ne_nil hne
  rw [walk_cons_ok] at h
  exact h.1

theorem directory_of_walk_append {front rest : List Text} {name : Text} (h : walk t loc (front ++ name :: rest) = .ok l) :
    t.get? (follow loc front) = some .directory := by
  induction front generalizing loc with
  | nil =>
    rw [List.nil_append, walk_cons_ok] at h
    exact h.1
  | cons first front ih =>
    rw [List.cons_append, walk_cons_ok] at h
    exact ih h.2.2

theorem walk_parent (h : walk t loc names = .ok l) (hne : names ≠ []) : t.get? l.dropLast = some .directory := by
  induction names generalizing loc with
  | nil => exact absurd rfl hne
  | cons name rest ih =>
    rw [walk_cons_ok] at h
    obtain ⟨hdir, -, hrest⟩ := h
    by_cases hempty : rest = []
    · subst hempty
      obtain rfl := Except.ok.inj hrest
      unfold enter
      split
      next => exact Tree.directory_dropLast hdir
      next =>
        split
        next => exact Tree.directory_dropLast (Tree.directory_dropLast hdir)
        next => rwa [List.dropLast_concat]
    · exact ih hrest hempty

theorem walk_of_straight (hstraight : Path.Straight names) {e : Entry} (hloc : t.get? loc = some .directory)
    (hend : t.get? l = some e) (h : walk t' loc names = .ok l) : walk t loc names = .ok l := by
  induction hstraight generalizing loc with
  | up _ ih =>
    rw [walk_cons_ok] at h ⊢
    exact ⟨hloc, h.2.1, ih (Tree.directory_dropLast hloc) h.2.2⟩
  | skip hskip _ ih =>
    rw [walk_cons_ok, Path.enter_of_skip hskip] at h ⊢
    exact ⟨hloc, h.2.1, ih hloc h.2.2⟩
  | @names elements hnames =>
    induction elements generalizing loc with
    | nil => exact h
    | cons name rest ih =>
      have hrestNames : ∀ e ∈ rest, Path.IsName e := fun e he => hnames e (List.mem_cons_of_mem _ he)
      rw [walk_cons_ok, Path.enter_of_isName (hnames name List.mem_cons_self)] at h ⊢
      obtain ⟨-, hlength, hrest⟩ := h
      refine ⟨hloc, hlength, ?_⟩
      -- if more follows, what is found at the end stands below, so the name is one of a directory
      by_cases hempty : rest = []
      · subst hempty
        exact hrest
      · have hl : l = loc ++ [name] ++ rest := by
          rw [eq_follow_of_walk hrest, Path.follow_names hrestNames]
        rw [hl] at hend
        exact ih hrestNames (Tree.directory_of_append hempty hend) hrest

end

section

variable {s s' : System} {path content : Text} {loc : Location}

theorem start_congr (h : s'.cwd = s.cwd) (path : Text) : s'.start path = s.start path := by
  rw [System.start, System.start, h]

theorem locate_ok_iff :
    s.locate path = .ok loc ↔
      checkPath path = .ok () ∧ walk s.tree (s.start path) (Text.splitOn Path.slash path) = .ok loc := by
  rw [locate, bind_eq_ok]
  exact ⟨fun ⟨_, hcheck, hwalk⟩ => ⟨hcheck, hwalk⟩, fun ⟨hcheck, hwalk⟩ => ⟨(), hcheck, hwalk⟩⟩

theorem ne_nil_of_locate (h : s.locate path = .ok loc) : path ≠ [] := by
  rintro rfl
  cases (locate_ok_iff.mp h).1

theorem eq_follow_of_locate (h : s.locate path = .ok loc) : loc = follow (s.start path) (Text.splitOn Path.slash path) :=
  eq_follow_of_walk (locate_ok_iff.mp h).2

theorem locate_parent (h : s.locate path = .ok loc) : s.tree.get? loc.dropLast = some .directory :=
  walk_parent (locate_ok_iff.mp h).2 (Text.splitOn_ne_nil _ _)

theorem ne_nil_of_not_directory (h : s.tree.get? loc ≠ some .directory) : loc ≠ [] := by
  rintro rfl
  exact h rfl

theorem entryAt_ok_iff {e : Entry} : s.entryAt path = .ok e ↔ ∃ loc, s.locate path = .ok loc ∧ s.tree.get? loc = some e := by
  unfold entryAt
  cases s.locate path with
  | error refusal => simp
  | ok loc => cases h : s.tree.get? loc <;> simp [h]

theorem read_ok_iff :
    s.read path = .ok content ↔ ∃ loc, s.locate path = .ok loc ∧ s.tree.get? loc = some (.file content) := by
  rw [← entryAt_ok_iff, read]
  cases s.entryAt path with
  | error refusal => simp
  | ok e => cases e <;> simp

theorem isDirectory_iff :
    s.isDirectory path = true ↔ ∃ loc, s.locate path = .ok loc ∧ s.tree.get? loc = some .directory := by
  rw [← entryAt_ok_iff, isDirectory]
  cases s.entryAt path with
  | error refusal => simp
  | ok e => cases e <;> simp

theorem isFile_iff : s.isFile path = true ↔ ∃ e, s.stat path = .ok e ∧ e.isDirectory = false := by
  unfold isFile stat
  constructor
  · intro h
    split at h
    next content hentry => exact ⟨_, mapError_eq_ok.mpr hentry, rfl⟩
    next => cases h
  · rintro ⟨e, hstat, hfile⟩
    rw [mapError_eq_ok] at hstat
    rw [hstat]
    cases e with
    | file => rfl
    | directory => cases hfile

theorem list_ok_iff {entries : List (Text × Entry)} :
    s.list path = .ok entries ↔
      ∃ loc, s.locate path = .ok loc ∧ s.tree.get? loc = some .directory ∧ entries = s.tree.children loc := by
  unfold list
  cases s.locate path with
  | error refusal => simp
  | ok loc =>
    cases h : s.tree.get? loc with
    | none => simp [h]
    | some e => cases e <;> simp [h, eq_comm]

/-- The same directories and the same start, so that every path has the same location. -/
structure SameDirectories (s s' : System) : Prop where
  cwd : s'.cwd = s.cwd
  numbers : s'.numbers = s.numbers
  directory_iff : ∀ l, s'.tree.get? l = some .directory ↔ s.tree.get? l = some .directory

theorem SameDirectories.refl (s : System) : SameDirectories s s := ⟨rfl, rfl, fun _ => Iff.rfl⟩

theorem SameDirectories.trans {s'' : System} (h : SameDirectories s s') (h' : SameDirectories s' s'') :
    SameDirectories s s'' :=
  ⟨h'.cwd.trans h.cwd, h'.numbers.trans h.numbers, fun l => (h'.directory_iff l).trans (h.directory_iff l)⟩

theorem SameDirectories.locate (h : SameDirectories s s') : s'.locate path = .ok loc ↔ s.locate path = .ok loc := by
  rw [locate_ok_iff, locate_ok_iff, start_congr h.cwd]
  exact and_congr_right fun _ =>
    ⟨walk_mono fun l => (h.directory_iff l).mp, walk_mono fun l => (h.directory_iff l).mpr⟩

theorem canHold_ok (h : s.tree.get? loc.dropLast = some .directory) : s.canHold loc = .ok () := by
  rw [canHold, h]

theorem directory_of_canHold (h : s.canHold loc = .ok ()) : s.tree.get? loc.dropLast = some .directory := by
  unfold canHold at h
  split at h
  next hdir => exact hdir
  next => cases h
  next => cases h

/-! ## Writing files -/

theorem write_of_locate (hloc : s.locate path = .ok loc) (hdir : s.tree.get? loc ≠ some .directory) (content : Text) :
    s.write path content = .ok { s with tree := s.tree.put loc (.file content) } := by
  refine mapError_eq_ok.mpr (bind_eq_ok.mpr ⟨loc, hloc, ?_⟩)
  split
  next h => exact absurd h hdir
  next => exact bind_eq_ok.mpr ⟨(), canHold_ok (locate_parent hloc), rfl⟩

theorem locate_of_write (h : s.write path content = .ok s') :
    ∃ loc, s.locate path = .ok loc ∧ s.tree.get? loc ≠ some .directory := by
  obtain ⟨loc, hloc, h⟩ := bind_eq_ok.mp (mapError_eq_ok.mp h)
  refine ⟨loc, hloc, fun hdir => ?_⟩
  rw [hdir] at h
  cases h

theorem write_of_error {e : Refusal} (h : s.locate path = .error e) :
    s.write path content = .error ⟨"open", [path], e⟩ := by
  simp [write, h, bind, Except.bind, Except.mapError]

/-! ## Writing where a file stands -/

theorem unopened_of_reached {stop : Option Stop} (h : Stop.reached content stop = none) :
    ∃ p, stop = some p ∧ p.held = none := by
  cases stop with
  | none => cases h
  | some p => exact ⟨p, rfl, h⟩

theorem overwrite_of_unopened {p : Stop} (h : p.held = none) (content : Text) :
    s.overwrite path content (some p) = (s, some (p.fault path)) := by
  simp [overwrite, Stop.reached, h]

theorem overwrite_of_reached (hloc : s.locate path = .ok loc) (hdir : s.tree.get? loc ≠ some .directory) {stop : Option Stop}
    {text : Text} (h : Stop.reached content stop = some text) :
    s.overwrite path content stop = ({ s with tree := s.tree.put loc (.file text) }, stop.map (Stop.fault path)) := by
  simp only [overwrite, h, write_of_locate hloc hdir]

theorem overwrite_of_error {e : Refusal} (h : s.locate path = .error e) (content : Text) (stop : Option Stop) :
    (s.overwrite path content stop).1 = s ∧ (s.overwrite path content stop).2 ≠ none := by
  unfold overwrite
  cases stop with
  | none => simp [Stop.reached, write_of_error h]
  | some p => cases hheld : p.held <;> simp [Stop.reached, hheld, write_of_error h]

theorem overwrite_unstopped (s : System) (path content : Text) :
    s.write path content = .ok (s.overwrite path content none).1 ∧ (s.overwrite path content none).2 = none ∨
      (s.overwrite path content none).1 = s ∧ (s.overwrite path content none).2 ≠ none := by
  cases hwrite : s.write path content with
  | error f => exact .inr (by simp [overwrite, Stop.reached, hwrite])
  | ok s' => exact .inl (by simp [overwrite, Stop.reached, hwrite])

theorem unstopped_of_overwrite {stop : Option Stop} (h : (s.overwrite path content stop).2 = none) : stop = none := by
  cases stop with
  | none => rfl
  | some p =>
    unfold overwrite at h
    cases hheld : p.held with
    | none => simp [Stop.reached, hheld] at h
    | some text =>
      simp only [Stop.reached, hheld] at h
      split at h <;> simp at h

/-! ## Removing and moving files -/

theorem remove_file (hloc : s.locate path = .ok loc) (hfile : s.tree.get? loc = some (.file content)) :
    s.remove path = .ok { s with tree := s.tree.erase loc } := by
  simp [remove, hloc, hfile, bind, Except.bind, Except.mapError]

theorem cwd_removeAll (s : System) (path : Text) : (s.removeAll path).cwd = s.cwd := by
  unfold removeAll
  split <;> rfl

theorem numbers_removeAll (s : System) (path : Text) : (s.removeAll path).numbers = s.numbers := by
  unfold removeAll
  split <;> rfl

theorem get?_removeAll (h : s.locate path = .ok loc) (hne : loc ≠ []) (l : Location) :
    (s.removeAll path).tree.get? l = if loc <+: l then none else s.tree.get? l := by
  simp only [removeAll, h]
  exact Tree.get?_erase_all hne l

variable {source target : Text} {old new : Location}

theorem rename_of_locate (hsource : s.locate source = .ok old) (hfile : s.tree.get? old = some (.file content))
    (htarget : s.locate target = .ok new) (hdir : s.tree.get? new ≠ some .directory) :
    s.rename source target = .ok (if old = new then s else { s with tree := s.tree.move old new }) := by
  have hat : s.entryAt source = .ok (.file content) := entryAt_ok_iff.mpr ⟨old, hsource, hfile⟩
  refine mapError_eq_ok.mpr (bind_eq_ok.mpr ⟨_, hat, bind_eq_ok.mpr ⟨old, hsource, ?_⟩⟩)
  split
  next h =>
    obtain ⟨loc, hloc, hentry⟩ := entryAt_ok_iff.mp h
    obtain rfl := Except.ok.inj (htarget.symm.trans hloc)
    exact absurd hentry hdir
  next =>
    refine bind_eq_ok.mpr ⟨new, htarget, ?_⟩
    have hkind : (Entry.file content).isDirectory = false := rfl
    rw [hkind, if_neg Bool.false_ne_true, apply_ite Except.ok]
  next refusal hnone =>
    have hne : new ≠ old := by
      rintro rfl
      rw [entryAt_ok_iff.mpr ⟨new, htarget, hfile⟩] at hnone
      cases hnone
    -- nothing stands below a file, so the target is not below the source
    have hbelow : ¬ old.isPrefixOf new = true := by
      intro hpre
      have hdirectory := Tree.directory_of_parent (List.isPrefixOf_iff_prefix.mp hpre) hne (locate_parent htarget)
      rw [hfile] at hdirectory
      cases hdirectory
    refine bind_eq_ok.mpr ⟨new, htarget, bind_eq_ok.mpr ⟨(), canHold_ok (locate_parent htarget), ?_⟩⟩
    rw [if_neg hbelow, if_neg (Ne.symm hne)]

theorem rename_of_error {e : Refusal} (hsource : s.locate source = .ok old)
    (hfile : s.tree.get? old = some (.file content)) (htarget : s.locate target = .error e) :
    s.rename source target = .error ⟨"rename", [source, target], e⟩ := by
  have hat : s.entryAt source = .ok (.file content) := entryAt_ok_iff.mpr ⟨old, hsource, hfile⟩
  have hentry : s.entryAt target = .error e := by rw [entryAt, htarget]
  simp [rename, hat, hsource, hentry, htarget, Entry.isDirectory, bind, Except.bind, Except.mapError]

theorem rename_of_directory (hsource : s.locate source = .ok old) (hfile : s.tree.get? old = some (.file content))
    (htarget : s.locate target = .ok new) (hdir : s.tree.get? new = some .directory) :
    s.rename source target = .error ⟨"rename", [source, target], .present⟩ := by
  have hat : s.entryAt source = .ok (.file content) := entryAt_ok_iff.mpr ⟨old, hsource, hfile⟩
  have hentry : s.entryAt target = .ok .directory := entryAt_ok_iff.mpr ⟨new, htarget, hdir⟩
  simp [rename, hat, hsource, hentry, bind, Except.bind, Except.mapError]

theorem locate_of_rename (hsource : s.locate source = .ok old) (hfile : s.tree.get? old = some (.file content))
    (h : s.rename source target = .ok s') :
    ∃ new, s.locate target = .ok new ∧ s.tree.get? new ≠ some .directory := by
  obtain ⟨e, he, h⟩ := bind_eq_ok.mp (mapError_eq_ok.mp h)
  obtain rfl : e = .file content := by
    obtain ⟨loc, hloc, hentry⟩ := entryAt_ok_iff.mp he
    obtain rfl := Except.ok.inj (hsource.symm.trans hloc)
    exact Option.some.inj (hentry.symm.trans hfile)
  obtain ⟨loc, -, h⟩ := bind_eq_ok.mp h
  split at h
  next => cases h
  next replaced hpresent =>
    obtain ⟨new, hnew, hentry⟩ := entryAt_ok_iff.mp hpresent
    exact ⟨new, hnew, by simp [hentry]⟩
  next refusal hnone =>
    obtain ⟨new, hnew, -⟩ := bind_eq_ok.mp h
    refine ⟨new, hnew, fun hdir => ?_⟩
    rw [entryAt_ok_iff.mpr ⟨new, hnew, hdir⟩] at hnone
    cases hnone

end

/-! ## Creating directories -/

def StartsIn (s : System) (path : Text) : Prop := Path.isAbsolute path = false → s.tree.get? s.cwd = some .directory

/-- More directories, in places where there was nothing. -/
structure Grown (s s' : System) : Prop where
  cwd : s'.cwd = s.cwd
  entry : ∀ l, s'.tree.get? l = s.tree.get? l ∨ s.tree.get? l = none ∧ s'.tree.get? l = some .directory

namespace Grown

variable {s s' s'' : System} {path : Text} {loc : Location}

theorem refl (s : System) : Grown s s := ⟨rfl, fun _ => .inl rfl⟩

theorem trans (h : Grown s s') (h' : Grown s' s'') : Grown s s'' := by
  refine ⟨h'.cwd.trans h.cwd, fun l => ?_⟩
  rcases h'.entry l with heq | ⟨hnone, hdir⟩
  · rw [heq]
    exact h.entry l
  · rcases h.entry l with heq | ⟨-, hdir'⟩
    · exact .inr ⟨heq ▸ hnone, hdir⟩
    · rw [hdir'] at hnone
      cases hnone

theorem directory (h : Grown s s') (hdir : s.tree.get? loc = some .directory) :
    s'.tree.get? loc = some .directory := by
  rcases h.entry loc with heq | ⟨-, hdir'⟩
  · exact heq.trans hdir
  · exact hdir'

theorem file_iff (h : Grown s s') {content : Text} :
    s'.tree.get? loc = some (.file content) ↔ s.tree.get? loc = some (.file content) := by
  rcases h.entry loc with heq | ⟨hnone, hdir⟩
  · rw [heq]
  · simp [hnone, hdir]

theorem locate (h : Grown s s') (hloc : s.locate path = .ok loc) : s'.locate path = .ok loc := by
  rw [locate_ok_iff] at hloc ⊢
  rw [start_congr h.cwd]
  exact ⟨hloc.1, walk_mono (fun l => h.directory) hloc.2⟩

theorem read (h : Grown s s') (hcwd : StartsIn s path)
    (hstraight : Path.Straight (Text.splitOn Path.slash path)) (content : Text) :
    s'.read path = .ok content ↔ s.read path = .ok content := by
  have hstart : s.tree.get? (s.start path) = some .directory := by
    unfold System.start
    split
    next => rfl
    next hrel => exact hcwd (by simpa using hrel)
  simp only [read_ok_iff, h.file_iff]
  refine exists_congr fun loc => and_congr_left fun hfile => ⟨fun hloc => ?_, h.locate⟩
  rw [locate_ok_iff, start_congr h.cwd] at hloc
  exact locate_ok_iff.mpr ⟨hloc.1, walk_of_straight hstraight hstart hfile hloc.2⟩

end Grown

section

variable {s s' : System} {path : Text} {loc : Location}

theorem walk_replicate {t : Tree} (h : t.get? loc = some .directory) (n : Nat) :
    walk t loc (List.replicate n []) = .ok loc := by
  induction n with
  | zero => rfl
  | succ n ih =>
    rw [List.replicate_succ, walk_cons_ok]
    exact ⟨h, Nat.zero_le _, ih⟩

theorem exists_trailing (path : Text) : ∃ n, path = dropSlashes path ++ List.replicate n Path.slash := by
  simp only [dropSlashes]
  split
  next => exact ⟨0, (List.append_nil path).symm⟩
  next =>
    have htake : path.reverse.takeWhile (· == Path.slash) =
        List.replicate (path.reverse.takeWhile (· == Path.slash)).length Path.slash := by
      refine List.eq_replicate_length.mpr fun b hb => ?_
      simpa using List.mem_takeWhile_imp hb
    refine ⟨(path.reverse.takeWhile (· == Path.slash)).length, ?_⟩
    rw [← List.reverse_replicate, ← htake, ← List.reverse_append, List.takeWhile_append_dropWhile, List.reverse_reverse]

theorem locate_of_locateNew (h : s.locateNew path = .ok loc) {s' : System} (hgrown : Grown s s')
    (hdir : s'.tree.get? loc = some .directory) : s'.locate path = .ok loc := by
  obtain ⟨_, hcheck, hwalk⟩ := bind_eq_ok.mp h
  have hwalk' := walk_mono (fun l => hgrown.directory) hwalk
  obtain ⟨n, hn⟩ := exists_trailing path
  have hsplit : Text.splitOn Path.slash path = Text.splitOn Path.slash (dropSlashes path) ++ List.replicate n [] := by
    rw [← Text.splitOn_append_replicate, ← hn]
  rw [locate_ok_iff, start_congr hgrown.cwd, hsplit]
  exact ⟨hcheck, walk_append_ok.mpr ⟨loc, hwalk', walk_replicate hdir n⟩⟩

theorem startsIn_of_walk {names : List Text} (h : walk s.tree (s.start path) names = .ok loc) (hne : names ≠ []) :
    StartsIn s path := by
  intro hrel
  have hdir := directory_of_walk h hne
  rwa [System.start, hrel, if_neg Bool.false_ne_true] at hdir

structure Made (s s' : System) (path : Text) : Prop where
  grown : Grown s s'
  isDirectory : s'.isDirectory path = true
  startsIn : StartsIn s path

theorem made_of_isDirectory (h : s.isDirectory path = true) : Made s s path := by
  obtain ⟨loc, hloc, -⟩ := isDirectory_iff.mp h
  exact ⟨.refl s, h, startsIn_of_walk (locate_ok_iff.mp hloc).2 (Text.splitOn_ne_nil _ _)⟩

theorem mkdir_ok (h : s.mkdir path = .ok s') :
    ∃ loc, s.locateNew path = .ok loc ∧ s'.locate path = .ok loc ∧ s.tree.get? loc = none ∧ s'.cwd = s.cwd ∧
      s'.numbers = s.numbers ∧ ∀ l, s'.tree.get? l = if l = loc then some .directory else s.tree.get? l := by
  obtain ⟨loc, hloc, h⟩ := bind_eq_ok.mp (mapError_eq_ok.mp h)
  split at h
  next => cases h
  next hnone =>
    obtain ⟨_, hhold, h⟩ := bind_eq_ok.mp h
    obtain rfl := Except.ok.inj h
    have hnot : s.tree.get? loc ≠ some .directory := by simp [hnone]
    have hput := @Tree.get?_put _ _ .directory (ne_nil_of_not_directory hnot) (directory_of_canHold hhold) hnot
    have hgrown : Grown s { s with tree := s.tree.put loc .directory } := by
      refine ⟨rfl, fun l => ?_⟩
      by_cases hl : l = loc
      · exact .inr ⟨hl ▸ hnone, (hput l).trans (if_pos hl)⟩
      · exact .inl ((hput l).trans (if_neg hl))
    have hdir := (hput loc).trans (if_pos rfl)
    exact ⟨loc, hloc, locate_of_locateNew hloc hgrown hdir, hnone, rfl, rfl, hput⟩

theorem grown_of_mkdir (h : s.mkdir path = .ok s') : Grown s s' := by
  obtain ⟨loc, -, -, hnone, hcwd, -, hentry⟩ := mkdir_ok h
  refine ⟨hcwd, fun l => ?_⟩
  by_cases hl : l = loc
  · exact .inr ⟨hl ▸ hnone, (hentry l).trans (if_pos hl)⟩
  · exact .inl ((hentry l).trans (if_neg hl))

theorem made_of_mkdir (h : s.mkdir path = .ok s') : Made s s' path := by
  obtain ⟨loc, hnew, hloc, -, -, -, hentry⟩ := mkdir_ok h
  obtain ⟨_, -, hwalk⟩ := bind_eq_ok.mp hnew
  exact ⟨grown_of_mkdir h, isDirectory_iff.mpr ⟨loc, hloc, (hentry loc).trans (if_pos rfl)⟩,
    startsIn_of_walk hwalk (Text.splitOn_ne_nil _ _)⟩

theorem mkdirAll_of_isDirectory (h : s.isDirectory path = true) : s.mkdirAll path = .ok s := by
  rw [mkdirAll, mkdirAllFrom, entryAt_ok_iff.mpr (isDirectory_iff.mp h)]

theorem parentText_leads (path : Text) : parentText path <+: path := by
  have htrim : (path.reverse.dropWhile (· == Path.slash)).reverse <+: path := by
    rw [← List.reverse_suffix, List.reverse_reverse]
    exact List.dropWhile_suffix _
  exact (List.dropLast_prefix _).trans ((List.take_prefix _ _).trans htrim)

theorem isAbsolute_of_leads {lead : Text} (h : lead <+: path) (hne : lead ≠ []) :
    Path.isAbsolute lead = Path.isAbsolute path := by
  obtain ⟨rest, rfl⟩ := h
  exact (Path.isAbsolute_append hne rest).symm

theorem made_of_mkdirAllFrom {fuel : Nat} (h : mkdirAllFrom fuel s path = .ok s') : Made s s' path := by
  induction fuel generalizing path s' with
  | zero => cases h
  | succ fuel ih =>
    rw [mkdirAllFrom] at h
    split at h
    next hdir =>
      obtain rfl := Except.ok.inj h
      exact made_of_isDirectory (isDirectory_iff.mpr (entryAt_ok_iff.mp hdir))
    next => cases h
    next =>
      simp only at h
      split at h
      next => cases h
      next up hup =>
        -- the text in front has the same first byte, so that it starts in the same directory
        have hparent : Grown s up ∧ (StartsIn up path → StartsIn s path) := by
          split at hup
          next =>
            obtain rfl := Except.ok.inj hup
            exact ⟨.refl s, id⟩
          next hparent =>
            have hmade := ih hup
            have hne : parentText path ≠ [] := by simpa using hparent
            exact ⟨hmade.grown, fun _ hrel =>
              hmade.startsIn ((isAbsolute_of_leads (parentText_leads path) hne).trans hrel)⟩
        have hlast : Made up s' path := by
          split at h
          next last hmkdir =>
            obtain rfl := Except.ok.inj h
            exact made_of_mkdir hmkdir
          next =>
            split at h
            next hdir =>
              obtain rfl := Except.ok.inj h
              exact made_of_isDirectory hdir
            next => cases h
        exact ⟨hparent.1.trans hlast.grown, hlast.isDirectory, hparent.2 hlast.startsIn⟩

end

/-! ## Temporary paths -/

section

variable {s s' : System} {path lead : Text}

theorem freePath?_some {tries n : Nat} (h : s.freePath? lead tries n = some path) :
    (∃ k, path = lead ++ Text.ofNat k) ∧ ∀ e, s.entryAt path ≠ .ok e := by
  induction tries generalizing n with
  | zero => cases h
  | succ tries ih =>
    rw [freePath?] at h
    split at h
    next => exact ih h
    next refusal hfree =>
      obtain rfl := Option.some.inj h
      refine ⟨⟨_, rfl⟩, fun e he => ?_⟩
      rw [hfree] at he
      cases he

theorem freePath?_congr (hnumbers : s'.numbers = s.numbers) (h : ∀ n, (∃ e, s'.entryAt (lead ++ Text.ofNat n) = .ok e) ↔
    ∃ e, s.entryAt (lead ++ Text.ofNat n) = .ok e) (tries n : Nat) : s'.freePath? lead tries n = s.freePath? lead tries n := by
  induction tries generalizing n with
  | zero => rfl
  | succ tries ih =>
    have hsame : s'.numbered lead n = s.numbered lead n := by rw [numbered, numbered, hnumbers]
    have hn := h (s.numbers.tried lead n)
    rw [← numbered] at hn
    rw [freePath?, freePath?, ih, hsame]
    cases hs' : s'.entryAt (s.numbered lead n) with
    | ok e' =>
      obtain ⟨e, he⟩ := hn.mp ⟨e', hs'⟩
      rw [he]
    | error refusal' =>
      cases hs : s.entryAt (s.numbered lead n) with
      | error refusal => rfl
      | ok e =>
        obtain ⟨e', he'⟩ := hn.mpr ⟨e, hs⟩
        rw [hs'] at he'
        cases he'

theorem freePath_ok {operation dir stem : Text} (h : s.freePath operation dir stem = .ok path) :
    Path.slash ∉ stem ∧ s.freePath? (temporaryLead dir stem) temporaryTries 0 = some path := by
  unfold freePath at h
  split at h
  next => cases h
  next hslash =>
    split at h
    next => cases h
    next found hfound =>
      obtain rfl := Except.ok.inj h
      exact ⟨by simpa using hslash, hfound⟩

theorem get?_eq_none_of_freePath {operation dir stem : Text} {loc : Location}
    (h : s.freePath operation dir stem = .ok path) (hloc : s.locate path = .ok loc) : s.tree.get? loc = none := by
  obtain ⟨-, hfree⟩ := freePath?_some (freePath_ok h).2
  cases hentry : s.tree.get? loc with
  | none => rfl
  | some e => exact absurd (entryAt_ok_iff.mpr ⟨loc, hloc, hentry⟩) (hfree e)

end

end System

end RpcBindings.Files
