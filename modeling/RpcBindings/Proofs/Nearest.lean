import Mathlib.Data.List.Flatten
import RpcBindings.Proofs.Beside
import RpcBindings.Proofs.Relevance
import RpcBindings.Settings.Load

/-!
# The nearest settings file

The search for a project's settings goes from a directory to the one that holds it, until going up changes nothing. It
ends from every text, clean or not: cleaning makes no path longer, so going up makes a path shorter, or a dot of it. From
a clean path that starts at the root it passes the directory and those above it from the deepest on, and so finds the
nearest settings file.
-/

namespace RpcBindings

/-! ## Going up ends -/

namespace Text

theorem append_join (sep : Text) {pieces : List Text} (h : pieces ≠ []) :
    sep ++ join sep pieces = pieces.flatMap fun piece => sep ++ piece := by
  obtain ⟨piece, rest, rfl⟩ := List.exists_cons_of_ne_nil h
  rw [join_cons, List.flatMap_cons, List.append_assoc]

theorem length_join_le (sep : Text) {pieces all : List Text} (h : List.Sublist pieces all) :
    (join sep pieces).length ≤ (join sep all).length := by
  by_cases hnil : pieces = []
  · rw [hnil]
    exact Nat.zero_le _
  · have hall : all ≠ [] := by
      rintro rfl
      exact hnil (List.sublist_nil.mp h)
    have hlength := (h.flatMap fun piece => sep ++ piece).length_le
    rw [← append_join sep hnil, ← append_join sep hall, List.length_append, List.length_append] at hlength
    omega

end Text

namespace Path

theorem length_clean_le {path : Text} (h : path ≠ []) : (clean path).length ≤ path.length := by
  have hpos := List.length_pos_iff.mpr h
  by_cases habs : isAbsolute path = true
  · obtain ⟨b, rest, rfl⟩ := List.exists_cons_of_ne_nil h
    obtain rfl : b = slash := by simpa [isAbsolute] using habs
    -- the empty element in front of the first slash is left out
    have hkept : List.Sublist (cleanElements (slash :: rest)) (Text.splitOn slash rest) := by
      have hsub := foldl_cleanStep_sublist true (Text.splitOn slash rest) []
      rw [List.append_nil] at hsub
      rw [cleanElements, habs, Text.splitOn_cons_self]
      exact List.sublist_reverse_iff.mp hsub
    have hbody := Text.length_join_le [slash] hkept
    rw [Text.join_splitOn] at hbody
    simp only [clean, if_pos habs, List.length_cons]
    omega
  · have hbody := Text.length_join_le [slash] (cleanElements_sublist path)
    rw [Text.join_splitOn] at hbody
    simp only [clean, if_neg habs]
    split
    next => exact hpos
    next => exact hbody

def height (path : Text) : Nat := if path = "." then 0 else path.length + 1

theorem height_le (path : Text) : height path ≤ path.length + 1 := by
  unfold height
  split
  next => exact Nat.zero_le _
  next => exact Nat.le_refl _

theorem dir_eq_dot_or_length_lt {path : Text} (h : dir path ≠ path) : dir path = "." ∨ (dir path).length < path.length := by
  have hpath := leading_append_lastElement path
  rcases isLead_leading path with hnil | ⟨front, hfront⟩
  · left
    rw [dir, hnil]
    rfl
  · right
    have hlength := congrArg List.length hpath
    rw [hfront, List.length_append, List.length_append, List.length_singleton] at hlength
    by_cases hroot : front = []
    · have hdir : dir path = [slash] := by
        rw [dir, hfront, hroot]
        rfl
      have hlast : lastElement path ≠ [] := by
        intro hlast
        rw [hfront, hroot, hlast] at hpath
        exact h (hdir.trans hpath)
      have hpos := List.length_pos_iff.mpr hlast
      rw [hdir, List.length_singleton]
      omega
    · have hdir : dir path = clean front := by
        rw [dir, hfront]
        exact clean_congr (isAbsolute_append hroot _) (cleanElements_append_slash hroot)
      have hclean := length_clean_le hroot
      rw [hdir]
      omega

theorem height_dir_lt {path : Text} (h : dir path ≠ path) : height (dir path) < height path := by
  have hpos : path ≠ "." → height path = path.length + 1 := fun hdot => if_neg hdot
  rcases dir_eq_dot_or_length_lt h with hdot | hlength
  · rw [hpos fun hpath => h (hdot.trans hpath.symm), hdot]
    exact Nat.succ_pos _
  · have hdot : path ≠ "." := by
      rintro rfl
      exact h rfl
    have hheight := height_le (dir path)
    rw [hpos hdot]
    omega

/-! ## Directories above -/

/-- A clean path is that of a directory or of one above it. -/
structure AtOrAbove (upper dirPath : Text) : Prop where
  clean : clean upper = upper
  under : Under upper dirPath

section

variable {upper dirPath : Text}

theorem isName_of_mem_of_isAbsolute {e : Text} (habs : isAbsolute dirPath = true) (h : e ∈ cleanElements dirPath) :
    IsName e := by
  rcases isName_or_up_of_mem h with hname | rfl
  · exact hname
  · rw [isAbsolute_of_up_mem h] at habs
    cases habs

theorem eq_of_cleanElements_eq (hupper : clean upper = upper) (hdir : clean dirPath = dirPath)
    (habs : isAbsolute upper = isAbsolute dirPath) (h : cleanElements upper = cleanElements dirPath) : upper = dirPath := by
  rw [← hupper, clean_congr habs h, hdir]

theorem AtOrAbove.elements (h : AtOrAbove upper dirPath) :
    isAbsolute upper = isAbsolute dirPath ∧ cleanElements upper <+: cleanElements dirPath := by
  obtain ⟨habs, names, -, helements⟩ := under_iff.mp h.under
  exact ⟨habs.symm, names, helements.symm⟩

theorem atOrAbove_iff (habs : isAbsolute dirPath = true) :
    AtOrAbove upper dirPath ↔
      clean upper = upper ∧ isAbsolute upper = true ∧ cleanElements upper <+: cleanElements dirPath := by
  constructor
  · intro h
    exact ⟨h.clean, h.elements.1.trans habs, h.elements.2⟩
  · rintro ⟨hclean, hupper, names, helements⟩
    refine ⟨hclean, under_iff.mpr ⟨habs.trans hupper.symm, names, fun e he => ?_, helements.symm⟩⟩
    refine isName_of_mem_of_isAbsolute habs ?_
    rw [← helements]
    exact List.mem_append_right _ he

theorem AtOrAbove.refl (h : Path.clean dirPath = dirPath) : AtOrAbove dirPath dirPath := ⟨h, under_of_clean_eq rfl⟩

theorem AtOrAbove.antisymm (h : AtOrAbove upper dirPath) (h' : AtOrAbove dirPath upper) : upper = dirPath := by
  obtain ⟨habs, hbegins⟩ := h.elements
  exact eq_of_cleanElements_eq h.clean h'.clean habs (hbegins.eq_of_length_le h'.elements.2.length_le)

theorem isName_lastElement (hclean : clean dirPath = dirPath) (habs : isAbsolute dirPath = true)
    (hne : cleanElements dirPath ≠ []) : IsName (lastElement dirPath) := by
  have hsplit := splitOn_clean dirPath
  rw [hclean, splitOn_eq_way, if_pos habs, if_neg hne] at hsplit
  have hlast := congrArg List.getLast? hsplit
  rw [List.getLast?_concat, List.getLast?_append_of_ne_nil _ hne] at hlast
  exact isName_of_mem_of_isAbsolute habs (List.mem_of_getLast? hlast.symm)

theorem cleanElements_dir (hclean : clean dirPath = dirPath) (habs : isAbsolute dirPath = true) :
    cleanElements (dir dirPath) = (cleanElements dirPath).dropLast := by
  by_cases hnil : cleanElements dirPath = []
  · have hroot : dirPath = [slash] := by
      rw [← hclean]
      simp [clean, habs, hnil]
    rw [hroot]
    rfl
  · have hname := isName_lastElement hclean habs hnil
    have helements := cleanElements_append (isLead_leading dirPath) hname (slash_not_mem_lastElement dirPath)
    rw [leading_append_lastElement] at helements
    rw [helements, List.dropLast_concat, dir, cleanElements_clean]

theorem atOrAbove_dir_iff (hclean : clean dirPath = dirPath) (habs : isAbsolute dirPath = true) :
    AtOrAbove upper dirPath ↔ upper = dirPath ∨ AtOrAbove upper (dir dirPath) := by
  have hparent : isAbsolute (dir dirPath) = true := (isAbsolute_dir_self dirPath).trans habs
  rw [atOrAbove_iff hparent, cleanElements_dir hclean habs]
  constructor
  · intro h
    obtain ⟨hupper, hrooted, hbegins⟩ := (atOrAbove_iff habs).mp h
    rcases List.eq_nil_or_concat (cleanElements dirPath) with hnil | ⟨front, last, hconcat⟩
    · rw [hnil] at hbegins ⊢
      exact .inr ⟨hupper, hrooted, hbegins⟩
    · rw [List.concat_eq_append] at hconcat
      rw [hconcat] at hbegins ⊢
      rw [List.dropLast_concat]
      rcases List.prefix_concat_iff.mp hbegins with heq | hfront
      · exact .inl (eq_of_cleanElements_eq hupper hclean (hrooted.trans habs.symm) (heq.trans hconcat.symm))
      · exact .inr ⟨hupper, hrooted, hfront⟩
  · rintro (rfl | ⟨hupper, hrooted, hbegins⟩)
    · exact .refl hclean
    · exact (atOrAbove_iff habs).mpr ⟨hupper, hrooted, hbegins.trans (List.dropLast_prefix _)⟩

theorem eq_of_atOrAbove_of_dir_eq (habs : isAbsolute dirPath = true) (hend : dir dirPath = dirPath)
    (h : AtOrAbove upper dirPath) : upper = dirPath := by
  have hclean : clean dirPath = dirPath := by
    rw [← hend]
    exact clean_clean _
  have hlength := congrArg List.length (cleanElements_dir hclean habs)
  rw [hend, List.length_dropLast] at hlength
  obtain ⟨hsame, hbegins⟩ := h.elements
  -- a row that stays as long when its last element is taken away is empty
  have hempty : (cleanElements dirPath).length ≤ (cleanElements upper).length := by omega
  exact eq_of_cleanElements_eq h.clean hclean hsame (hbegins.eq_of_length_le hempty)

end

end Path

/-! ## The search -/

namespace Settings

open Files
open RpcBindings.Path (AtOrAbove)

def fileIn (dir : Text) : Text := (if dir = [Path.slash] then dir else dir ++ [Path.slash]) ++ fileName

def Configured (files : System) (dir : Text) : Prop :=
  ∃ entry, files.stat (fileIn dir) = .ok entry ∧ entry.isDirectory = false

/-- The nearest directory with a settings file, seen from a directory: of all such directories at it or above it, this
one is the deepest. -/
structure Nearest (files : System) (dir found : Text) : Prop where
  above : AtOrAbove found dir
  configured : Configured files found
  deepest : ∀ other, AtOrAbove other dir → Configured files other → AtOrAbove other found

/-- The search from a directory comes to an answer in so many rounds. A round looks into one directory, and the next
looks into the one that holds it, unless that is the same. -/
inductive Climb (files : System) : (dir : Text) → (rounds : Nat) → (answer : Text) → Prop
  | found {dir : Text} : files.isFile (Path.join [dir, fileName]) = true →
      Climb files dir 1 (Path.join [dir, fileName])
  | top {dir : Text} : files.isFile (Path.join [dir, fileName]) = false → Path.dir dir = dir → Climb files dir 1 []
  | up {dir answer : Text} {rounds : Nat} : files.isFile (Path.join [dir, fileName]) = false → Path.dir dir ≠ dir →
      Climb files (Path.dir dir) rounds answer → Climb files dir (rounds + 1) answer

section

variable {files : System} {dir answer : Text} {rounds : Nat}

theorem Climb.unique {n : Nat} {other : Text} (h : Climb files dir rounds answer) (h' : Climb files dir n other) :
    n = rounds ∧ other = answer := by
  induction h generalizing n other with
  | found hfile =>
    cases h' with
    | found => exact ⟨rfl, rfl⟩
    | top hnone | up hnone =>
      rw [hfile] at hnone
      cases hnone
  | top hnone hend =>
    cases h' with
    | found hfile =>
      rw [hnone] at hfile
      cases hfile
    | top => exact ⟨rfl, rfl⟩
    | up _ hgoes => exact absurd hend hgoes
  | up hnone hgoes _ ih =>
    cases h' with
    | found hfile =>
      rw [hnone] at hfile
      cases hfile
    | top _ hend => exact absurd hend hgoes
    | up _ _ hrest =>
      obtain ⟨rfl, rfl⟩ := ih hrest
      exact ⟨rfl, rfl⟩

theorem climb_findFrom {fuel : Nat} (h : Path.height dir < fuel) :
    ∃ rounds ≤ Path.height dir + 1, Climb files dir rounds (findFrom files fuel dir) := by
  induction fuel generalizing dir with
  | zero => cases h
  | succ fuel ih =>
    simp only [findFrom]
    by_cases hfile : files.isFile (Path.join [dir, fileName]) = true
    · rw [if_pos hfile]
      exact ⟨1, Nat.le_add_left 1 _, .found hfile⟩
    · rw [if_neg hfile]
      rw [Bool.not_eq_true] at hfile
      by_cases hend : Path.dir dir = dir
      · rw [if_pos hend]
        exact ⟨1, Nat.le_add_left 1 _, .top hfile hend⟩
      · rw [if_neg hend]
        -- the fuel falls by one, and the height by one at least
        have hlower := Path.height_dir_lt hend
        obtain ⟨rounds, hrounds, hclimb⟩ := ih (Nat.lt_of_lt_of_le hlower (Nat.le_of_lt_succ h))
        exact ⟨rounds + 1, by omega, .up hfile hend hclimb⟩

theorem climb_findFrom_length (files : System) (dir : Text) :
    ∃ rounds ≤ dir.length + 2, Climb files dir rounds (findFrom files (dir.length + 2) dir) := by
  have hheight := Path.height_le dir
  obtain ⟨rounds, hrounds, hclimb⟩ := @climb_findFrom files dir (dir.length + 2) (by omega)
  exact ⟨rounds, by omega, hclimb⟩

theorem fileIn_ne_nil (dir : Text) : fileIn dir ≠ [] := by
  unfold fileIn
  exact List.append_ne_nil_of_right_ne_nil _ (by decide)

theorem join_fileName (hclean : Path.clean dir = dir) (habs : Path.isAbsolute dir = true) :
    Path.join [dir, fileName] = fileIn dir := by
  have hslash : Path.slash ∉ fileName := by decide
  have helements := Path.cleanElements_join (Path.isName_of_length (by decide)) hslash dir
  have hrooted := (Path.isAbsolute_join_of_name hslash dir).trans habs
  have hbody : Path.join [dir, fileName] = Path.slash :: Text.join [Path.slash] (Path.cleanElements dir ++ [fileName]) := by
    rw [← Path.clean_join (by decide) dir, Path.clean_of_elements (by simp [helements]), if_pos hrooted, helements]
    rfl
  have hdir : Path.slash :: Text.join [Path.slash] (Path.cleanElements dir) = dir := by
    have hself := hclean
    simp only [Path.clean, if_pos habs] at hself
    exact hself
  rw [hbody, fileIn]
  by_cases hnil : Path.cleanElements dir = []
  · rw [hnil] at hdir ⊢
    rw [← hdir]
    rfl
  · have hroot : dir ≠ [Path.slash] := by
      rintro rfl
      exact hnil (by decide)
    rw [if_neg hroot, Text.join_concat _ _ hnil, ← List.cons_append, ← List.cons_append, hdir]

theorem configured_iff (hclean : Path.clean dir = dir) (habs : Path.isAbsolute dir = true) :
    Configured files dir ↔ files.isFile (Path.join [dir, fileName]) = true := by
  rw [join_fileName hclean habs, System.isFile_iff, Configured]

theorem not_configured (hclean : Path.clean dir = dir) (habs : Path.isAbsolute dir = true)
    (h : files.isFile (Path.join [dir, fileName]) = false) : ¬ Configured files dir := by
  rw [configured_iff hclean habs, h]
  exact Bool.false_ne_true

theorem Nearest.unique {found other : Text} (h : Nearest files dir found) (h' : Nearest files dir other) : found = other :=
  (h'.deepest found h.above h.configured).antisymm (h.deepest other h'.above h'.configured)

theorem Climb.nearest (h : Climb files dir rounds answer) (hclean : Path.clean dir = dir)
    (habs : Path.isAbsolute dir = true) :
    (∃ found, Nearest files dir found ∧ answer = fileIn found) ∨
      answer = [] ∧ ∀ upper, AtOrAbove upper dir → ¬ Configured files upper := by
  induction h with
  | @found dir hfile =>
    refine .inl ⟨dir, ⟨.refl hclean, ?_, fun other hother _ => hother⟩, join_fileName hclean habs⟩
    rwa [configured_iff hclean habs]
  | top hnone hend =>
    refine .inr ⟨rfl, fun upper hupper => ?_⟩
    rw [Path.eq_of_atOrAbove_of_dir_eq habs hend hupper]
    exact not_configured hclean habs hnone
  | @up dir answer rounds hnone _ _ ih =>
    have hhere := not_configured hclean habs hnone
    have hparent : Path.isAbsolute (Path.dir dir) = true := (Path.isAbsolute_dir_self dir).trans habs
    rcases ih (Path.clean_clean _) hparent with ⟨found, hnearest, hanswer⟩ | ⟨hanswer, hnowhere⟩
    · refine .inl ⟨found, ⟨?_, hnearest.configured, fun other hother hconfigured => ?_⟩, hanswer⟩
      · exact (Path.atOrAbove_dir_iff hclean habs).mpr (.inr hnearest.above)
      · rcases (Path.atOrAbove_dir_iff hclean habs).mp hother with rfl | habove
        · exact absurd hconfigured hhere
        · exact hnearest.deepest other habove hconfigured
    · refine .inr ⟨hanswer, fun upper hupper => ?_⟩
      rcases (Path.atOrAbove_dir_iff hclean habs).mp hupper with rfl | habove
      · exact hhere
      · exact hnowhere upper habove

end

/-- From every text the search ends with one answer, after at most two rounds more than the text has bytes. From a clean
path at the root the answer is the path of the nearest settings file, and it is empty exactly if there is none. -/
theorem findProject_nearest (files : System) :
    (∀ dir, ∃ rounds ≤ dir.length + 2, ∃ answer,
      (∀ n text, Climb files dir n text ↔ n = rounds ∧ text = answer) ∧
        findProject files dir = if dir = [] then [] else answer) ∧
    ∀ dir, Path.clean dir = dir → Path.isAbsolute dir = true →
      (∀ path, path ≠ [] → (findProject files dir = path ↔ ∃ found, Nearest files dir found ∧ path = fileIn found)) ∧
      (findProject files dir = [] ↔ ∀ upper, AtOrAbove upper dir → ¬ Configured files upper) := by
  refine ⟨fun dir => ?_, fun dir hclean habs => ?_⟩
  · obtain ⟨rounds, hrounds, hclimb⟩ := climb_findFrom_length files dir
    refine ⟨rounds, hrounds, _, fun n text => ⟨hclimb.unique, ?_⟩, rfl⟩
    rintro ⟨rfl, rfl⟩
    exact hclimb
  · have hne : dir ≠ [] := by
      rintro rfl
      cases habs
    obtain ⟨rounds, -, hclimb⟩ := climb_findFrom_length files dir
    rw [findProject, if_neg hne]
    rcases hclimb.nearest hclean habs with ⟨found, hnearest, hanswer⟩ | ⟨hanswer, hnowhere⟩
    · rw [hanswer]
      refine ⟨fun path _ => ⟨?_, ?_⟩, fun hnil => absurd hnil (fileIn_ne_nil found), fun hnowhere => ?_⟩
      · rintro rfl
        exact ⟨found, hnearest, rfl⟩
      · rintro ⟨other, hother, rfl⟩
        rw [hnearest.unique hother]
      · exact absurd hnearest.configured (hnowhere found hnearest.above)
    · rw [hanswer]
      refine ⟨fun path hpath => ⟨fun hnil => absurd hnil.symm hpath, ?_⟩, fun _ => hnowhere, fun _ => rfl⟩
      rintro ⟨other, hother, -⟩
      exact absurd hother.configured (hnowhere other hother.above)

def ridge : System where
  tree := ⟨[(["krpcgen.toml"], .file []), (["p"], .directory), (["p", "krpcgen.toml"], .file []), (["p", "q"], .directory),
    (["p", "q", "krpcgen.toml"], .directory), (["p", "q", "r"], .directory)]⟩
  cwd := []

theorem findProject_nearest_ridge :
    (findProject ridge "/p/q/r" = "/p/krpcgen.toml" ∧
      ∃ found, Nearest ridge "/p/q/r" found ∧ ("/p/krpcgen.toml" : Text) = fileIn found) ∧
    (findProject ⟨Tree.empty, []⟩ "/p/q" = [] ∧ ∀ upper, AtOrAbove upper "/p/q" → ¬ Configured ⟨Tree.empty, []⟩ upper) := by
  have hfound : findProject ridge "/p/q/r" = "/p/krpcgen.toml" := by decide +kernel
  have hnone : findProject ⟨Tree.empty, []⟩ "/p/q" = [] := by decide +kernel
  have hridge := (findProject_nearest ridge).2 "/p/q/r" (by decide) (by decide)
  have hempty := (findProject_nearest ⟨Tree.empty, []⟩).2 "/p/q" (by decide) (by decide)
  exact ⟨⟨hfound, (hridge.1 _ (by decide)).mp hfound⟩, hnone, hempty.2.mp hnone⟩

end Settings

end RpcBindings
