import RpcBindings.Proofs.Ways

/-!
# What stands beside a path

Paths that differ in what is put behind their last name lead to neighbours in one directory. Creating that directory
changes nothing that such a path leads to. An entry can be moved with all below it, and whatever is neither below it nor
below its new place stays as it is.
-/

namespace RpcBindings

theorem not_prefix_concat {α : Type} (l : List α) (x : α) : ¬ l ++ [x] <+: l := by
  intro h
  have hlength := h.length_le
  rw [List.length_append, List.length_singleton] at hlength
  omega

namespace Path

def way (path : Text) : List Text := (Text.splitOn slash path).dropLast

theorem slash_not_mem_lastElement (path : Text) : slash ∉ lastElement path := by
  intro hin
  simpa using List.mem_takeWhile_imp (List.mem_reverse.mp hin)

theorem splitOn_beside {mark : Text} (hslash : slash ∉ mark) (path : Text) :
    Text.splitOn slash (path ++ mark) = way path ++ [lastElement path ++ mark] := by
  have hlast := slash_not_mem_lastElement path
  have hboth : slash ∉ lastElement path ++ mark := by simp [hlast, hslash]
  unfold way
  nth_rewrite 1 2 [← leading_append_lastElement path]
  rcases isLead_leading path with hnil | ⟨front, hfront⟩
  · rw [hnil, List.nil_append, Text.splitOn_of_not_mem hboth, Text.splitOn_of_not_mem hlast]
    rfl
  · have hwhole : leading path ++ lastElement path ++ mark = front ++ slash :: (lastElement path ++ mark) := by simp [hfront]
    have hfirst : leading path ++ lastElement path = front ++ slash :: lastElement path := by simp [hfront]
    rw [hwhole, hfirst, Text.splitOn_append, Text.splitOn_append, Text.splitOn_of_not_mem hboth,
      Text.splitOn_of_not_mem hlast, List.dropLast_concat]

theorem splitOn_eq_way (path : Text) : Text.splitOn slash path = way path ++ [lastElement path] := by
  simpa using splitOn_beside List.not_mem_nil path

theorem isAbsolute_beside {mark : Text} (hslash : slash ∉ mark) (path : Text) :
    isAbsolute (path ++ mark) = isAbsolute path := by
  by_cases hpath : path = []
  · rw [hpath, List.nil_append, isAbsolute_of_not_mem hslash]
    rfl
  · exact isAbsolute_append hpath mark

theorem isAbsolute_dir_self (path : Text) : isAbsolute (dir path) = isAbsolute path := by
  have habs := isAbsolute_dir (isLead_leading path) (slash_not_mem_lastElement path)
  rwa [leading_append_lastElement] at habs

theorem follow_dir {loc : List Text} {path : Text} (hloc : isAbsolute path = true → loc = []) :
    follow loc (Text.splitOn slash (dir path)) = follow loc (way path) := by
  have hlast := slash_not_mem_lastElement path
  have hpath := leading_append_lastElement path
  have hrooted : isAbsolute (leading path) = true → loc = [] := by
    intro habs
    apply hloc
    rw [← hpath, isAbsolute_lead (isLead_leading path) hlast, habs]
  rw [dir, follow_clean hrooted, way]
  nth_rewrite 2 [← hpath]
  rcases isLead_leading path with hnil | ⟨front, hfront⟩
  · rw [hnil, List.nil_append, Text.splitOn_of_not_mem hlast]
    rfl
  · rw [hfront, follow_splitOn_slash, List.append_assoc, List.singleton_append, Text.splitOn_append,
      Text.splitOn_of_not_mem hlast, List.dropLast_concat]

theorem follow_prefix_of_straight {t : Files.Tree} {loc names front rest : List Text} (hstraight : Straight names)
    (hloc : t.get? loc = some .directory) (hsplit : names = front ++ rest)
    (hnot : t.get? (follow loc front) ≠ some .directory) : follow loc front <+: follow loc names := by
  induction hstraight generalizing loc front with
  | names hnames =>
    subst hsplit
    rw [follow_names hnames, follow_names fun e he => hnames e (List.mem_append_left _ he), ← List.append_assoc]
    exact List.prefix_append _ _
  | up _ ih =>
    cases front with
    | nil => exact absurd hloc hnot
    | cons first front =>
      obtain ⟨rfl, hrest⟩ := List.cons.inj hsplit
      exact ih (Files.Tree.directory_dropLast hloc) hrest hnot
  | skip hskip _ ih =>
    cases front with
    | nil => exact absurd hloc hnot
    | cons first front =>
      obtain ⟨rfl, hrest⟩ := List.cons.inj hsplit
      change t.get? (follow (enter loc _) front) ≠ some .directory at hnot
      change follow (enter loc _) front <+: follow (enter loc _) _
      rw [enter_of_skip hskip] at hnot ⊢
      exact ih hloc hrest hnot

end Path

namespace Files

namespace Tree

variable {t t' : Tree} {source target l : Location}

theorem get?_eq_of_lookup (h : ∀ p, p <+: l → t'.entries.lookup p = t.entries.lookup p) : t'.get? l = t.get? l := by
  induction l using List.reverseRecOn with
  | nil => rw [get?_nil, get?_nil]
  | append_singleton l name ih =>
    rw [get?_concat, get?_concat, ih fun p hp => h p (hp.trans (List.prefix_append l [name])), h _ (List.prefix_refl _)]

theorem directory_of_inside (hpre : source <+: l) (h : t.get? l = some .directory) : t.get? source = some .directory := by
  by_cases heq : l = source
  · rw [← heq, h]
  · exact directory_of_below hpre heq h

theorem lookup_move_else (h : ¬ target <+: l) :
    (t.move source target).entries.lookup l = if source <+: l then none else t.entries.lookup l := by
  rw [move, List.lookup_append, lookup_moved_else _ _ _ _ h, lookup_erase, if_neg h, lookup_erase]
  rfl

theorem get?_move_apart (hsource : ¬ source <+: l) (htarget : ¬ target <+: l) :
    (t.move source target).get? l = t.get? l := by
  refine get?_eq_of_lookup fun p hp => ?_
  rw [lookup_move_else fun h => htarget (h.trans hp), if_neg fun h => hsource (h.trans hp)]

theorem get?_move_source (hne : source ≠ []) (h : ¬ target <+: source) : (t.move source target).get? source = none := by
  obtain ⟨up, name, rfl⟩ : ∃ up name, source = up ++ [name] := ⟨_, _, (List.dropLast_concat_getLast hne).symm⟩
  rw [get?_concat, lookup_move_else h, if_pos (List.prefix_refl _), ite_self]

theorem get?_move_target {e : Entry} (hsource : t.get? source = some e) (hne : target ≠ [])
    (hparent : t.get? target.dropLast = some .directory) (h : ¬ source <+: target) :
    (t.move source target).get? target = some e := by
  have hroot : source ≠ [] := by
    rintro rfl
    exact h List.nil_prefix
  obtain ⟨up, name, rfl⟩ : ∃ up name, target = up ++ [name] := ⟨_, _, (List.dropLast_concat_getLast hne).symm⟩
  obtain ⟨above, last, rfl⟩ : ∃ above last, source = above ++ [last] := ⟨_, _, (List.dropLast_concat_getLast hroot).symm⟩
  rw [List.dropLast_concat] at hparent
  have hup : (t.move (above ++ [last]) (up ++ [name])).get? up = some .directory := by
    rw [get?_move_apart (fun hin => h (hin.trans (List.prefix_append _ _))), hparent]
    exact not_prefix_concat up name
  have hlookup : t.entries.lookup (above ++ [last]) = some e := by
    rw [get?_concat] at hsource
    split at hsource
    next => exact hsource
    next => cases hsource
  rw [get?_concat, if_pos hup, move, List.lookup_append, lookup_moved, hlookup]
  rfl

end Tree

namespace System

open RpcBindings.Path (follow way IsName)

variable {s s' : System} {path mark : Text} {loc l : Location}

def occupant? (s : System) (path : Text) : Option Entry := (s.entryAt path).toOption

theorem occupant?_eq_some_iff {e : Entry} :
    s.occupant? path = some e ↔ ∃ loc, s.locate path = .ok loc ∧ s.tree.get? loc = some e := by
  rw [occupant?, toOption_eq_some, entryAt_ok_iff]

theorem occupant?_of_locate (h : s.locate path = .ok loc) : s.occupant? path = s.tree.get? loc := by
  unfold occupant? entryAt
  rw [h]
  cases h : s.tree.get? loc <;> simp [h, Except.toOption]

theorem occupant?_of_error {e : Refusal} (h : s.locate path = .error e) : s.occupant? path = none := by
  unfold occupant? entryAt
  rw [h]
  rfl

def room (s : System) (path : Text) : Location := follow (s.start path) (way path)

theorem room_congr (h : s'.cwd = s.cwd) : s'.room path = s.room path := by
  rw [room, room, start_congr h]

theorem start_beside (hslash : Path.slash ∉ mark) : s.start (path ++ mark) = s.start path := by
  rw [System.start, System.start, Path.isAbsolute_beside hslash]

/-- A neighbour is found if the directory is, and if its own name is not too long. -/
theorem locate_beside (hslash : Path.slash ∉ mark) (hname : IsName (Path.lastElement path ++ mark)) :
    s.locate (path ++ mark) = .ok loc ↔
      (checkPath (path ++ mark) = .ok () ∧ (Path.lastElement path ++ mark).length ≤ longestName) ∧
        (walk s.tree (s.start path) (way path) = .ok (s.room path) ∧ s.tree.get? (s.room path) = some .directory) ∧
        loc = s.room path ++ [Path.lastElement path ++ mark] := by
  rw [locate_ok_iff, start_beside hslash, Path.splitOn_beside hslash, walk_append_ok]
  constructor
  · rintro ⟨hcheck, m, hwalk, hlast⟩
    obtain rfl : m = s.room path := eq_follow_of_walk hwalk
    rw [walk_cons_ok, Path.enter_of_isName hname] at hlast
    exact ⟨⟨hcheck, hlast.2.1⟩, ⟨hwalk, hlast.1⟩, (Except.ok.inj hlast.2.2).symm⟩
  · rintro ⟨⟨hcheck, hlength⟩, ⟨hwalk, hdir⟩, rfl⟩
    refine ⟨hcheck, s.room path, hwalk, ?_⟩
    rw [walk_cons_ok, Path.enter_of_isName hname]
    exact ⟨hdir, hlength, rfl⟩

theorem locate_beside_congr (hcwd : s'.cwd = s.cwd) (hslash : Path.slash ∉ mark)
    (h : ∀ front, front <+: way path → s'.tree.get? (follow (s.start path) front) = s.tree.get? (follow (s.start path) front)) :
    s'.locate (path ++ mark) = s.locate (path ++ mark) := by
  unfold System.locate
  rw [start_congr hcwd, start_beside hslash, Path.splitOn_beside hslash]
  refine congrArg (checkPath (path ++ mark) >>= ·) (funext fun _ => walk_congr fun front name rest hsplit => h front ?_)
  have hdrop := congrArg List.dropLast hsplit
  rw [List.dropLast_concat, List.dropLast_append_of_ne_nil (List.cons_ne_nil _ _)] at hdrop
  exact hdrop ▸ List.prefix_append _ _

theorem locateNew_beside (hslash : Path.slash ∉ mark) (hne : mark ≠ []) :
    s.locateNew (path ++ mark) = s.locate (path ++ mark) := by
  obtain ⟨front, b, rfl⟩ : ∃ front b, mark = front ++ [b] := ⟨_, _, (List.dropLast_concat_getLast hne).symm⟩
  have hb : b ≠ Path.slash := by
    rintro rfl
    simp at hslash
  have htrim : dropSlashes (path ++ (front ++ [b])) = path ++ (front ++ [b]) := by
    simp [dropSlashes, hb]
  rw [locateNew, htrim, System.locate]

theorem eq_erase_of_remove (hloc : s.locate path = .ok loc) (h : s.remove path = .ok s') :
    s' = { s with tree := s.tree.erase loc } := by
  obtain ⟨other, hother, h⟩ := bind_eq_ok.mp (mapError_eq_ok.mp h)
  obtain rfl := Except.ok.inj (hloc.symm.trans hother)
  split at h
  next => cases h
  next => exact (Except.ok.inj h).symm
  next =>
    split at h
    next => exact (Except.ok.inj h).symm
    next => cases h

theorem remove_of_error {e : Refusal} (h : s.locate path = .error e) : s.remove path = .error ⟨"remove", [path], e⟩ := by
  unfold remove
  rw [h]
  rfl

theorem SameDirectories.isDirectory (h : SameDirectories s s') : s'.isDirectory path = true ↔ s.isDirectory path = true := by
  simp only [isDirectory_iff, h.locate, h.directory_iff]

theorem stat_of_occupant? {e : Entry} (h : s.occupant? path = some e) : s.stat path = .ok e := by
  rw [occupant?, toOption_eq_some] at h
  rw [stat, h]
  rfl

theorem stat_of_nothing (h : s.occupant? path = none) : ∃ f, s.stat path = .error f := by
  unfold stat
  cases hentry : s.entryAt path with
  | error e => exact ⟨_, rfl⟩
  | ok e => simp [occupant?, hentry, Except.toOption] at h

theorem rename_onto_directory {source target : Text} {old new : Location} {e : Entry} (hsource : s.locate source = .ok old)
    (he : s.tree.get? old = some e) (htarget : s.locate target = .ok new) (hdir : s.tree.get? new = some .directory) :
    s.rename source target = .error ⟨"rename", [source, target], .present⟩ := by
  have hat : s.entryAt source = .ok e := entryAt_ok_iff.mpr ⟨old, hsource, he⟩
  have hentry : s.entryAt target = .ok .directory := entryAt_ok_iff.mpr ⟨new, htarget, hdir⟩
  unfold rename
  simp only [hat, hsource, hentry, bind, Except.bind]
  rfl

theorem rename_directory_onto_file {source target content : Text} {old new : Location} (hsource : s.locate source = .ok old)
    (hdir : s.tree.get? old = some .directory) (htarget : s.locate target = .ok new)
    (hfile : s.tree.get? new = some (.file content)) :
    s.rename source target = .error ⟨"rename", [source, target], .notDirectory⟩ := by
  have hat : s.entryAt source = .ok .directory := entryAt_ok_iff.mpr ⟨old, hsource, hdir⟩
  have hentry : s.entryAt target = .ok (.file content) := entryAt_ok_iff.mpr ⟨new, htarget, hfile⟩
  unfold rename
  simp only [hat, hsource, hentry, htarget, bind, Except.bind]
  rfl

/-- Directories have been created on the way to one. -/
structure Paving (s s' : System) (path : Text) : Prop where
  grown : Grown s s'
  onWay : ∀ l, s'.tree.get? l ≠ s.tree.get? l → OnWay s path l
  startsIn : ∀ l, s'.tree.get? l ≠ s.tree.get? l → StartsIn s path

theorem paving_of_mkdirAllFrom {fuel : Nat} (h : mkdirAllFrom fuel s path = .ok s') : Paving s s' path where
  grown := (made_of_mkdirAllFrom h).grown
  onWay _ := onWay_of_mkdirAllFrom h
  startsIn _ _ := (made_of_mkdirAllFrom h).startsIn

theorem startsIn_of_mkdirAllRestFrom (fuel : Nat) (s : System) (path : Text)
    (h : (mkdirAllRestFrom fuel s path).tree.get? l ≠ s.tree.get? l) : StartsIn s path := by
  induction fuel generalizing path with
  | zero => exact absurd rfl h
  | succ fuel ih =>
    rw [mkdirAllRestFrom] at h
    split at h
    next made hmade => exact (made_of_mkdirAllFrom hmade).startsIn
    next =>
      simp only at h
      split at h
      next => exact absurd rfl h
      next hnonempty =>
        have hlead : parentText path ≠ [] := by simpa using hnonempty
        intro hrel
        exact ih _ h ((isAbsolute_of_leads (parentText_leads path) hlead).trans hrel)

theorem paving_mkdirAllRest (s : System) (path : Text) : Paving s (s.mkdirAllRest path) path where
  grown := (grown_mkdirAllRestFrom _ s path).1
  onWay := (grown_mkdirAllRestFrom _ s path).2
  startsIn _ := startsIn_of_mkdirAllRestFrom _ s path

namespace Paving

theorem prefix_room (h : Paving s s' (Path.dir path)) (hl : s'.tree.get? l ≠ s.tree.get? l) : l <+: s.room path := by
  have hnone : s.tree.get? l ≠ some .directory := by
    rcases h.grown.entry l with heq | ⟨hnone, -⟩
    · exact absurd heq hl
    · simp [hnone]
  have hstart : s.start (Path.dir path) = s.start path := by
    rw [System.start, System.start, Path.isAbsolute_dir_self]
  have hdir : s.tree.get? (s.start path) = some .directory := by
    rw [← hstart, System.start]
    split
    next => rfl
    next hrel => exact h.startsIn l hl (by simpa using hrel)
  have hroot : Path.isAbsolute path = true → s.start path = [] := fun habs => by rw [System.start, if_pos habs]
  obtain ⟨front, rest, hsplit, rfl⟩ := h.onWay l hl
  rw [hstart] at hnone ⊢
  rw [room, ← Path.follow_dir hroot]
  exact Path.follow_prefix_of_straight (Path.straight_clean _) hdir hsplit hnone

theorem get?_of_room (h : Paving s s' (Path.dir path)) {name : Text} :
    s'.tree.get? (s.room path ++ [name]) = s.tree.get? (s.room path ++ [name]) := by
  by_contra hne
  exact not_prefix_concat _ name (h.prefix_room hne)

theorem occupant?_beside (h : Paving s s' (Path.dir path)) (hslash : Path.slash ∉ mark)
    (hname : IsName (Path.lastElement path ++ mark)) : s'.occupant? (path ++ mark) = s.occupant? (path ++ mark) := by
  refine Option.ext fun e => ?_
  rw [occupant?_eq_some_iff, occupant?_eq_some_iff]
  constructor
  · rintro ⟨loc, hloc, he⟩
    -- the directory is no new one, so nothing on the way is new
    have hroom := ((locate_beside hslash hname).mp hloc).2.2
    rw [room_congr h.grown.cwd] at hroom
    subst hroom
    rw [h.get?_of_room] at he
    have hdir : s.tree.get? (s.room path) = some .directory := Tree.directory_of_append (List.cons_ne_nil _ _) he
    refine ⟨_, ?_, he⟩
    rw [← hloc]
    refine (locate_beside_congr h.grown.cwd hslash fun front _ => ?_).symm
    by_contra hne
    have hup : follow (s.start path) front <+: s.room path := h.prefix_room hne
    have hfront := Tree.directory_of_inside hup hdir
    exact hne ((h.grown.directory hfront).trans hfront.symm)
  · rintro ⟨loc, hloc, he⟩
    have hroom := ((locate_beside hslash hname).mp hloc).2.2
    refine ⟨loc, h.grown.locate hloc, ?_⟩
    subst hroom
    rw [h.get?_of_room, he]

end Paving

end System

end Files

end RpcBindings
