import RpcBindings.Proofs.Files

/-!
# Ways through a tree

A path passes a row of locations before it ends. Creating a directory with all that it stands in touches locations on
its way only. Where every location on the way is a directory, the end of the path does not depend on any file.
-/

namespace RpcBindings

namespace Path

section

variable {elements more : List Text} {name : Text}

theorem Straight.of_append (h : Straight (elements ++ more)) : Straight elements := by
  induction elements with
  | nil => exact .names (by simp)
  | cons element elements ih =>
    cases h with
    | names hnames => exact .names fun e he => hnames e (List.mem_append_left _ he)
    | up hrest => exact .up (ih hrest)
    | skip hskip hrest => exact .skip hskip (ih hrest)

theorem Straight.concat (h : Straight elements) (hname : IsName name) : Straight (elements ++ [name]) := by
  induction h with
  | names hnames =>
    refine .names fun e he => ?_
    rcases List.mem_append.mp he with he | he
    · exact hnames e he
    · exact List.mem_singleton.mp he ▸ hname
  | up _ ih => exact .up ih
  | skip hskip _ ih => exact .skip hskip ih

end

theorem leading_append_lastElement (path : Text) : leading path ++ lastElement path = path := by
  have hsuffix : lastElement path <:+ path := by
    rw [lastElement, ← List.reverse_prefix, List.reverse_reverse]
    exact List.takeWhile_prefix _
  obtain ⟨front, hfront⟩ := hsuffix
  rw [leading]
  generalize lastElement path = last at hfront
  rw [← hfront, List.length_append, Nat.add_sub_cancel, List.take_left]

theorem isLead_leading (path : Text) : IsLead (leading path) := by
  have hsplit := leading_append_lastElement path
  have hreverse : path.reverse = (lastElement path).reverse ++ (leading path).reverse := by
    rw [← List.reverse_append, hsplit]
  have hdrop : path.reverse.dropWhile (· != slash) = (leading path).reverse := by
    have htake : path.reverse.takeWhile (· != slash) = (lastElement path).reverse := by
      rw [lastElement, List.reverse_reverse]
    have hboth := List.takeWhile_append_dropWhile (p := (· != slash)) (l := path.reverse)
    rw [htake, hreverse] at hboth
    rw [hreverse]
    exact List.append_cancel_left hboth
  cases hlast : (leading path).reverse with
  | nil => exact .inl (List.reverse_eq_nil_iff.mp hlast)
  | cons b rest =>
    have hhead := List.head?_dropWhile_not (· != slash) path.reverse
    rw [hdrop, hlast] at hhead
    have hb : b = slash := by simpa using hhead
    refine .inr ⟨rest.reverse, ?_⟩
    rw [← List.reverse_reverse (leading path), hlast, hb, List.reverse_cons]

end Path

namespace Files.System

open RpcBindings.Path (enter follow)

/-! ## Directories on the way -/

def OnWay (s : System) (path : Text) (l : Location) : Prop :=
  ∃ front rest, Text.splitOn Path.slash path = front ++ rest ∧ l = follow (s.start path) front

section

variable {s s' : System} {path : Text} {l : Location}

theorem onWay_congr (h : s'.cwd = s.cwd) : OnWay s' path l ↔ OnWay s path l := by
  unfold OnWay
  rw [start_congr h]

theorem OnWay.of_lead {lead rest : Text} (hne : lead ≠ []) (h : OnWay s lead l) :
    OnWay s (lead ++ Path.slash :: rest) l := by
  obtain ⟨front, more, hsplit, hl⟩ := h
  refine ⟨front, more ++ Text.splitOn Path.slash rest, ?_, ?_⟩
  · rw [Text.splitOn_append, hsplit, List.append_assoc]
  · rw [hl, System.start, System.start, Path.isAbsolute_append hne]

theorem onWay_of_locateNew (h : s.locateNew path = .ok l) : OnWay s path l := by
  obtain ⟨_, -, hwalk⟩ := bind_eq_ok.mp h
  obtain ⟨n, hn⟩ := exists_trailing path
  refine ⟨Text.splitOn Path.slash (dropSlashes path), List.replicate n [], ?_, eq_follow_of_walk hwalk⟩
  rw [← Text.splitOn_append_replicate, ← hn]

theorem exists_parentText (h : parentText path ≠ []) : ∃ rest, path = parentText path ++ Path.slash :: rest := by
  have htrim : (path.reverse.dropWhile (· == Path.slash)).reverse <+: path := by
    rw [← List.reverse_suffix, List.reverse_reverse]
    exact List.dropWhile_suffix _
  obtain ⟨slashes, hslashes⟩ := htrim
  have hparent : parentText path = (Path.leading (path.reverse.dropWhile (· == Path.slash)).reverse).dropLast := rfl
  generalize (path.reverse.dropWhile (· == Path.slash)).reverse = trimmed at hslashes hparent
  rcases Path.isLead_leading trimmed with hnil | ⟨front, hfront⟩
  · exact absurd (by rw [hparent, hnil]; rfl) h
  · refine ⟨Path.lastElement trimmed ++ slashes, ?_⟩
    rw [hfront, List.dropLast_concat] at hparent
    have hwhole := Path.leading_append_lastElement trimmed
    rw [hfront, ← hparent, List.append_assoc, List.singleton_append] at hwhole
    calc path = (parentText path ++ Path.slash :: Path.lastElement trimmed) ++ slashes := by rw [hwhole, hslashes]
      _ = _ := by rw [List.append_assoc, List.cons_append]

theorem onWay_of_mkdir (h : s.mkdir path = .ok s') (hne : s'.tree.get? l ≠ s.tree.get? l) : OnWay s path l := by
  obtain ⟨loc, hloc, -, -, -, -, hentry⟩ := mkdir_ok h
  by_cases hl : l = loc
  · exact hl ▸ onWay_of_locateNew hloc
  · exact absurd ((hentry l).trans (if_neg hl)) hne

theorem onWay_of_mkdirAllFrom {fuel : Nat} (h : mkdirAllFrom fuel s path = .ok s')
    (hne : s'.tree.get? l ≠ s.tree.get? l) : OnWay s path l := by
  induction fuel generalizing path s' with
  | zero => cases h
  | succ fuel ih =>
    rw [mkdirAllFrom] at h
    split at h
    next =>
      obtain rfl := Except.ok.inj h
      exact absurd rfl hne
    next => cases h
    next =>
      simp only at h
      split at h
      next => cases h
      next up hup =>
        have hparent : up.cwd = s.cwd ∧ (up.tree.get? l ≠ s.tree.get? l → OnWay s path l) := by
          split at hup
          next =>
            obtain rfl := Except.ok.inj hup
            exact ⟨rfl, fun h => absurd rfl h⟩
          next hnonempty =>
            have hlead : parentText path ≠ [] := by simpa using hnonempty
            obtain ⟨rest, hrest⟩ := exists_parentText hlead
            refine ⟨(made_of_mkdirAllFrom hup).grown.cwd, fun h => ?_⟩
            rw [hrest]
            exact (ih hup h).of_lead hlead
        by_cases hchanged : up.tree.get? l = s.tree.get? l
        · rw [← hchanged] at hne
          split at h
          next last hmkdir =>
            obtain rfl := Except.ok.inj h
            exact (onWay_congr hparent.1).mp (onWay_of_mkdir hmkdir hne)
          next =>
            split at h
            next =>
              obtain rfl := Except.ok.inj h
              exact absurd rfl hne
            next => cases h
        · exact hparent.2 hchanged

theorem grown_mkdirAllRestFrom (fuel : Nat) (s : System) (path : Text) :
    Grown s (mkdirAllRestFrom fuel s path) ∧
      ∀ l, (mkdirAllRestFrom fuel s path).tree.get? l ≠ s.tree.get? l → OnWay s path l := by
  induction fuel generalizing path with
  | zero => exact ⟨.refl s, fun l h => absurd rfl h⟩
  | succ fuel ih =>
    rw [mkdirAllRestFrom]
    split
    next s' hmade => exact ⟨(made_of_mkdirAllFrom hmade).grown, fun l => onWay_of_mkdirAllFrom hmade⟩
    next =>
      simp only
      split
      next => exact ⟨.refl s, fun l h => absurd rfl h⟩
      next hnonempty =>
        have hlead : parentText path ≠ [] := by simpa using hnonempty
        obtain ⟨rest, hrest⟩ := exists_parentText hlead
        obtain ⟨hgrown, hway⟩ := ih (parentText path)
        refine ⟨hgrown, fun l hl => ?_⟩
        rw [hrest]
        exact (hway l hl).of_lead hlead

end

/-! ## Ways through directories -/

def Paved (s : System) (path : Text) : Prop :=
  ∀ front name rest, Text.splitOn Path.slash path = front ++ name :: rest →
    s.tree.get? (follow (s.start path) front) = some .directory

section

variable {t t' : Tree} {loc : Location} {names : List Text}

theorem walk_congr (h : ∀ front name rest, names = front ++ name :: rest →
    t'.get? (follow loc front) = t.get? (follow loc front)) : walk t' loc names = walk t loc names := by
  induction names generalizing loc with
  | nil => rfl
  | cons name names ih =>
    have hhere : t'.get? loc = t.get? loc := h [] name names rfl
    have hrest : walk t' (enter loc name) names = walk t (enter loc name) names :=
      ih fun front next rest hsplit => h (name :: front) next rest (by rw [hsplit, List.cons_append])
    rw [walk, walk, hhere]
    cases t.get? loc with
    | none => rfl
    | some e =>
      cases e with
      | file content => rfl
      | directory =>
        by_cases hskip : name = [] ∨ name = "."
        · rw [Path.enter_of_skip hskip] at hrest
          simp only [if_pos hskip, hrest]
        · by_cases hup : name = ".."
          · rw [hup, Path.enter_up] at hrest
            simp only [if_neg hskip, if_pos hup, hrest]
          · rw [Path.enter_of_isName ⟨fun h => hskip (.inl h), fun h => hskip (.inr h), hup⟩] at hrest
            simp only [if_neg hskip, if_neg hup, hrest]

theorem directory_of_straight (hstraight : Path.Straight names) (hloc : t.get? loc = some .directory)
    (hend : t.get? (follow loc names).dropLast = some .directory) {front rest : List Text} {name : Text}
    (hsplit : names = front ++ name :: rest) : t.get? (follow loc front) = some .directory := by
  induction hstraight generalizing loc front with
  | names hnames =>
    subst hsplit
    have hfront : ∀ e ∈ front, Path.IsName e := fun e he => hnames e (List.mem_append_left _ he)
    rw [Path.follow_names hnames, ← List.append_assoc, List.dropLast_append_of_ne_nil (List.cons_ne_nil _ _)] at hend
    rw [Path.follow_names hfront]
    by_cases hempty : (name :: rest).dropLast = []
    · rwa [hempty, List.append_nil] at hend
    · exact Tree.directory_of_append hempty hend
  | up _ ih =>
    cases front with
    | nil => exact hloc
    | cons first front =>
      obtain ⟨rfl, hrest⟩ := List.cons.inj hsplit
      exact ih (Tree.directory_dropLast hloc) hend hrest
  | skip hskip _ ih =>
    cases front with
    | nil => exact hloc
    | cons first front =>
      obtain ⟨rfl, hrest⟩ := List.cons.inj hsplit
      change t.get? (follow (enter loc _) front) = some .directory
      change t.get? (follow (enter loc _) _).dropLast = some .directory at hend
      rw [Path.enter_of_skip hskip] at hend ⊢
      exact ih hloc hend hrest

end

section

variable {s s' : System} {path : Text}

theorem paved_of_straight (hstraight : Path.Straight (Text.splitOn Path.slash path))
    (hstart : s.tree.get? (s.start path) = some .directory)
    (hend : s.tree.get? (follow (s.start path) (Text.splitOn Path.slash path)).dropLast = some .directory) :
    Paved s path := fun _ _ _ hsplit => directory_of_straight hstraight hstart hend hsplit

theorem Paved.start (h : Paved s path) : s.tree.get? (s.start path) = some .directory := by
  obtain ⟨name, rest, hsplit⟩ := List.exists_cons_of_ne_nil (Text.splitOn_ne_nil Path.slash path)
  exact h [] name rest hsplit

/-- Over a paved way, files decide neither where a path leads nor why it leads nowhere. -/
theorem Paved.locate (h : Paved s path) (hsame : SameDirectories s s') : s'.locate path = s.locate path := by
  unfold System.locate
  rw [start_congr hsame.cwd]
  refine congrArg (checkPath path >>= ·) (funext fun _ => walk_congr fun front name rest hsplit => ?_)
  have hdir := h front name rest hsplit
  rw [hdir, (hsame.directory_iff _).mpr hdir]

theorem isAbsolute_temporaryLead {dir name : Text} (hdir : dir ≠ []) :
    Path.isAbsolute (temporaryLead dir name) = Path.isAbsolute dir := by
  unfold temporaryLead
  split
  next => exact Path.isAbsolute_append hdir _
  next =>
    rw [List.append_assoc]
    exact Path.isAbsolute_append hdir _

theorem splitOn_temporaryLead {name : Text} (hslash : Path.slash ∉ name) (dir : Text) :
    ∃ front, Text.splitOn Path.slash (temporaryLead dir name) = front ++ [name] ∧
      (Text.splitOn Path.slash dir = front ∨ Text.splitOn Path.slash dir = front ++ [[]]) := by
  unfold temporaryLead
  split
  next hends =>
    obtain ⟨front, rfl⟩ := List.getLast?_eq_some_iff.mp hends
    refine ⟨Text.splitOn Path.slash front, ?_, .inr (Text.splitOn_append _ _ _)⟩
    rw [List.append_assoc, List.singleton_append, Text.splitOn_append, Text.splitOn_of_not_mem hslash]
  next =>
    have hsep : dir ++ ("/" : Text) ++ name = dir ++ Path.slash :: name := by
      rw [List.append_assoc]
      rfl
    exact ⟨Text.splitOn Path.slash dir, by rw [hsep, Text.splitOn_append, Text.splitOn_of_not_mem hslash], .inl rfl⟩

theorem follow_temporaryLead {loc : Location} {dir name : Text} (hslash : Path.slash ∉ name) :
    follow loc (Text.splitOn Path.slash (temporaryLead dir name)) =
      enter (follow loc (Text.splitOn Path.slash dir)) name := by
  obtain ⟨front, hsplit, hdir⟩ := splitOn_temporaryLead hslash dir
  rw [hsplit, Path.follow_concat]
  rcases hdir with hdir | hdir
  · rw [hdir]
  · rw [hdir, Path.follow_concat, Path.enter_of_skip (.inl rfl)]

theorem Paved.temporary (h : Paved s path) {name : Text} (hname : Path.IsName name) (hslash : Path.slash ∉ name) :
    Paved s (temporaryLead (Path.dir path) name) := by
  have hlast : Path.slash ∉ Path.lastElement path := by
    intro hin
    simpa using List.mem_takeWhile_imp (List.mem_reverse.mp hin)
  have hstart : s.start (temporaryLead (Path.dir path) name) = s.start path := by
    have habs := Path.isAbsolute_dir (Path.isLead_leading path) hlast
    rw [Path.leading_append_lastElement] at habs
    rw [System.start, System.start, isAbsolute_temporaryLead (Path.dir_ne_nil path), habs]
  have hdir : s.tree.get? (follow (s.start path) (Text.splitOn Path.slash (Path.dir path))) = some .directory := by
    have hrooted : Path.isAbsolute (Path.leading path) = true → s.start path = [] := by
      intro habs
      have hne : Path.leading path ≠ [] := fun hnil => by simp [hnil, Path.isAbsolute] at habs
      rw [System.start, ← Path.leading_append_lastElement path, Path.isAbsolute_append hne, habs, if_pos rfl]
    rw [Path.dir, Path.follow_clean hrooted]
    have hpath := Path.leading_append_lastElement path
    rcases Path.isLead_leading path with hnil | ⟨front, hfront⟩
    · rw [hnil]
      exact h.start
    · rw [hfront, Path.follow_splitOn_slash]
      refine h _ (Path.lastElement path) [] ?_
      nth_rewrite 1 [← hpath]
      rw [hfront, List.append_assoc, List.singleton_append, Text.splitOn_append, Text.splitOn_of_not_mem hlast]
  refine paved_of_straight ?_ (hstart ▸ h.start) ?_
  · obtain ⟨front, hsplit, hfront⟩ := splitOn_temporaryLead hslash (Path.dir path)
    have hstraight := Path.straight_clean (Path.leading path)
    rw [← Path.dir] at hstraight
    rw [hsplit]
    refine Path.Straight.concat ?_ hname
    rcases hfront with hfront | hfront
    · rwa [← hfront]
    · exact Path.Straight.of_append (hfront ▸ hstraight)
  · rw [hstart, follow_temporaryLead hslash, Path.enter_of_isName hname, List.dropLast_concat]
    exact hdir

end

end Files.System

end RpcBindings
