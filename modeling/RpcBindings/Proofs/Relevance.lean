import Mathlib.Data.List.Induction
import RpcBindings.Proofs.Dict
import RpcBindings.Proofs.Path
import RpcBindings.Watch.Relevance

/-!
# Ignored directories

Whether a path stands in a directory is a question on their elements: those of the directory come first, and names
follow. A watcher compares texts instead. That comes to the same for every directory with a name in it. The root and the current
directory hide nothing but themselves, and a directory that only goes up also hides what is reached by going up further.
-/

namespace RpcBindings.Path

/-! ## Ways down -/

structure Descent (way : Text) : Prop where
  ne_nil : way ≠ []
  relative : isAbsolute way = false
  down : (".." : Text) ∉ Text.splitOn slash way

def Under (dirPath path : Text) : Prop := ∃ way, Descent way ∧ clean path = join [dirPath, way]

def steps (elements : List Text) : List Text := elements.filter fun e => !(e.isEmpty || e == ".")

theorem foldl_cleanStep_of_down {rooted : Bool} {elements kept : List Text} (h : (".." : Text) ∉ elements) :
    elements.foldl (cleanStep rooted) kept = (steps elements).reverse ++ kept := by
  induction elements generalizing kept with
  | nil => rfl
  | cons element rest ih =>
    rw [List.mem_cons, not_or] at h
    rw [List.foldl_cons, ih h.2]
    by_cases hskip : element = [] ∨ element = "."
    · have hstep : cleanStep rooted kept element = kept := if_pos hskip
      rw [hstep, steps, steps, List.filter_cons_of_neg (by rcases hskip with h | h <;> simp [h])]
    · have hname : IsName element := ⟨fun he => hskip (.inl he), fun he => hskip (.inr he), Ne.symm h.1⟩
      rw [cleanStep_of_isName hname, steps, steps, List.filter_cons_of_pos (by simpa using hskip), List.reverse_cons,
        List.append_assoc, List.singleton_append]

theorem isName_of_mem_steps {elements : List Text} {e : Text} (h : (".." : Text) ∉ elements) (he : e ∈ steps elements) :
    IsName e := by
  obtain ⟨hin, hstep⟩ := List.mem_filter.mp he
  simp only [Bool.not_eq_true', Bool.or_eq_false_iff, List.isEmpty_eq_false_iff, beq_eq_false_iff_ne] at hstep
  exact ⟨hstep.1, hstep.2, fun hup => h (hup ▸ hin)⟩

theorem steps_of_names {names : List Text} (h : ∀ e ∈ names, IsName e) : steps names = names := by
  refine List.filter_eq_self.mpr fun e he => ?_
  simp [(h e he).1, (h e he).2.1]

section

variable {dirPath way path : Text}

theorem isAbsolute_join_descent (h : Descent way) (dirPath : Text) :
    isAbsolute (join [dirPath, way]) = isAbsolute dirPath := by
  by_cases hdir : dirPath = []
  · rw [hdir, join_empty, if_neg h.ne_nil, isAbsolute_clean, h.relative]
    rfl
  · exact isAbsolute_join hdir way

theorem cleanElements_join_descent (h : Descent way) (dirPath : Text) :
    cleanElements (join [dirPath, way]) = cleanElements dirPath ++ steps (Text.splitOn slash way) := by
  by_cases hdir : dirPath = []
  · rw [hdir, join_empty, if_neg h.ne_nil, cleanElements_clean, cleanElements, foldl_cleanStep_of_down h.down]
    simp [cleanElements, Text.splitOn, Text.splitWhere, cleanStep]
  · rw [join_pair hdir, cleanElements_clean, cleanElements, Text.splitOn_append, List.foldl_append,
      foldl_cleanStep_of_down h.down, isAbsolute_append hdir, List.reverse_append, List.reverse_reverse]
    rfl

theorem exists_descent {names : List Text} (hnames : ∀ e ∈ names, IsName e) (hslash : ∀ e ∈ names, slash ∉ e) :
    ∃ way, Descent way ∧ steps (Text.splitOn slash way) = names := by
  have hsplit : Text.splitOn slash (Text.join [slash] (("." : Text) :: names)) = ("." : Text) :: names := by
    refine Text.splitOn_join (List.cons_ne_nil _ _) fun e he => ?_
    rcases List.mem_cons.mp he with rfl | he
    · decide
    · exact hslash e he
  have htext : Text.join [slash] (("." : Text) :: names) = 46 :: names.flatMap fun next => [slash] ++ next :=
    Text.join_cons [slash] "." names
  refine ⟨Text.join [slash] (("." : Text) :: names), ⟨?_, ?_, ?_⟩, ?_⟩
  · rw [htext]
    exact List.cons_ne_nil _ _
  · rw [htext]
    rfl
  · rw [hsplit, List.mem_cons, not_or]
    exact ⟨by decide, fun hin => (hnames _ hin).2.2 rfl⟩
  · rw [hsplit]
    exact steps_of_names hnames

theorem under_iff : Under dirPath path ↔
    isAbsolute path = isAbsolute dirPath ∧
      ∃ names, (∀ e ∈ names, IsName e) ∧ cleanElements path = cleanElements dirPath ++ names := by
  constructor
  · rintro ⟨way, hway, hpath⟩
    have habs := congrArg isAbsolute hpath
    have helements := congrArg cleanElements hpath
    rw [isAbsolute_clean, isAbsolute_join_descent hway] at habs
    rw [cleanElements_clean, cleanElements_join_descent hway] at helements
    exact ⟨habs, _, fun e he => isName_of_mem_steps hway.down he, helements⟩
  · rintro ⟨habs, names, hnames, helements⟩
    have hslash : ∀ e ∈ names, slash ∉ e := fun e he =>
      slash_not_mem_cleanElements (helements ▸ List.mem_append_right _ he)
    obtain ⟨way, hway, hsteps⟩ := exists_descent hnames hslash
    refine ⟨way, hway, ?_⟩
    rw [← clean_join hway.ne_nil]
    refine clean_congr ?_ ?_
    · rw [habs, isAbsolute_join_descent hway]
    · rw [helements, cleanElements_join_descent hway, hsteps]

theorem under_of_clean_eq (h : clean path = clean dirPath) : Under dirPath path := by
  have habs := congrArg isAbsolute h
  have helements := congrArg cleanElements h
  rw [isAbsolute_clean, isAbsolute_clean] at habs
  rw [cleanElements_clean, cleanElements_clean] at helements
  exact under_iff.mpr ⟨habs, [], by simp, by rw [helements, List.append_nil]⟩

/-! ## The comparison of texts -/

theorem isName_or_up_of_mem {e : Text} (h : e ∈ cleanElements path) : IsName e ∨ e = ".." := by
  obtain ⟨names, ups, heq, hnames, -⟩ := kept_cleanElements path
  have hin := List.mem_reverse.mpr h
  rw [heq] at hin
  rcases List.mem_append.mp hin with hin | hin
  · exact .inl (hnames e hin)
  · exact .inr (List.eq_of_mem_replicate hin)

theorem clean_of_elements (h : cleanElements path ≠ []) :
    clean path = (if isAbsolute path then [slash] else []) ++ Text.join [slash] (cleanElements path) := by
  have hbody : Text.join [slash] (cleanElements path) ≠ [] := fun hnil => h (join_cleanElements_eq_nil hnil)
  unfold clean
  by_cases habs : isAbsolute path = true
  · simp [habs]
  · simp [habs, hbody]

theorem cleanElements_eq_nil_iff : cleanElements path = [] ↔ clean path = "/" ∨ clean path = "." := by
  constructor
  · intro h
    simp only [clean, h, Text.join_nil]
    split
    next => exact .inl rfl
    next => exact .inr rfl
  · rintro (h | h) <;>
    · rw [← cleanElements_clean, h]
      decide

theorem dot_not_mem_cleanElements (absolute : Bool) : (if absolute then ([] : Text) else ".") ∉ cleanElements path := by
  intro hin
  rcases isName_or_up_of_mem hin with hname | hup
  · split at hname
    next => exact absurd rfl hname.1
    next => exact absurd rfl hname.2.1
  · split at hup
    next => cases hup
    next => cases hup

theorem startsWith_clean_iff : Text.startsWith (clean path) (clean dirPath ++ [slash]) = true ↔
    isAbsolute path = isAbsolute dirPath ∧ cleanElements dirPath ≠ [] ∧
      ∃ more, more ≠ [] ∧ cleanElements path = cleanElements dirPath ++ more := by
  rw [Text.startsWith, List.isPrefixOf_iff_prefix]
  constructor
  · rintro ⟨rest, hrest⟩
    rw [List.append_assoc, List.singleton_append] at hrest
    have habs : isAbsolute path = isAbsolute dirPath := by
      rw [← isAbsolute_clean path, ← hrest, isAbsolute_append (clean_ne_nil dirPath), isAbsolute_clean]
    have hsplit := congrArg (Text.splitOn slash) hrest
    rw [Text.splitOn_append, splitOn_clean, splitOn_clean, habs, List.append_assoc] at hsplit
    have hbody := List.append_cancel_left hsplit
    have hmore := Text.splitOn_ne_nil slash rest
    refine ⟨habs, ?_⟩
    by_cases hpath : cleanElements path = []
    · -- one element alone is no row of two
      have hlength := congrArg List.length hbody
      rw [if_pos hpath, List.length_append, List.length_singleton] at hlength
      have hrest := List.length_pos_iff.mpr hmore
      have hdir : 0 < (if cleanElements dirPath = [] then [if isAbsolute dirPath then ([] : Text) else "."]
          else cleanElements dirPath).length := by
        rw [List.length_pos_iff]
        split
        next => exact List.cons_ne_nil _ _
        next hne => exact hne
      omega
    · rw [if_neg hpath] at hbody
      by_cases hdir : cleanElements dirPath = []
      · -- neither an empty element nor a dot begins a clean path
        rw [if_pos hdir] at hbody
        have hfirst : (if isAbsolute dirPath then ([] : Text) else ".") ∈ cleanElements path := by
          rw [← hbody]
          exact List.mem_cons_self
        exact absurd hfirst (dot_not_mem_cleanElements (isAbsolute dirPath))
      · rw [if_neg hdir] at hbody
        exact ⟨hdir, _, hmore, hbody.symm⟩
  · rintro ⟨habs, hdir, more, hmore, helements⟩
    have hpath : cleanElements path ≠ [] := by simp [helements, hdir]
    refine ⟨Text.join [slash] more, ?_⟩
    rw [clean_of_elements hpath, clean_of_elements hdir, habs, helements, Text.join_append [slash] hdir hmore]
    simp only [List.append_assoc]

/-- A path goes up further than a directory that does nothing but go up. -/
def Beyond (dirPath path : Text) : Prop :=
  ∃ ups, cleanElements dirPath = List.replicate (ups + 1) (".." : Text) ∧
    List.replicate (ups + 2) (".." : Text) <+: cleanElements path

theorem under_or_beyond {more : List Text} (habs : isAbsolute path = isAbsolute dirPath)
    (hdir : cleanElements dirPath ≠ []) (helements : cleanElements path = cleanElements dirPath ++ more) :
    Under dirPath path ∨ Beyond dirPath path := by
  obtain ⟨names, ups, hkept, hnames, -⟩ := kept_cleanElements path
  have hpath : cleanElements path = List.replicate ups (".." : Text) ++ names.reverse := by
    rw [← List.reverse_reverse (cleanElements path), hkept, List.reverse_append, List.reverse_replicate]
  have hdown : ∀ e ∈ names.reverse, IsName e := fun e he => hnames e (List.mem_reverse.mp he)
  rcases List.append_eq_append_iff.mp (helements.symm.trans hpath) with ⟨further, hups, hmore⟩ | ⟨further, -, hfurther⟩
  · -- the directory stops among the steps up
    obtain ⟨hlength, hfirst, hlast⟩ := List.append_eq_replicate_iff.mp hups.symm
    cases further with
    | nil =>
      rw [hmore, List.nil_append] at helements
      exact .inl (under_iff.mpr ⟨habs, _, hdown, helements⟩)
    | cons e further =>
      obtain ⟨n, hn⟩ := Nat.exists_eq_succ_of_ne_zero (mt List.length_eq_zero_iff.mp hdir)
      rw [hn] at hfirst
      refine .inr ⟨n, hfirst, ?_⟩
      have hups : ups = n + 2 + further.length := by
        rw [hn, List.length_cons] at hlength
        omega
      rw [hpath, hups, List.replicate_add (n + 2) further.length, List.append_assoc]
      exact List.prefix_append _ _
  · refine .inl (under_iff.mpr ⟨habs, more, fun e he => hdown e ?_, helements⟩)
    rw [hfurther]
    exact List.mem_append_right _ he

theorem isAbsolute_of_up_mem (h : (".." : Text) ∈ cleanElements path) : isAbsolute path = false := by
  obtain ⟨names, ups, heq, hnames, hups⟩ := kept_cleanElements path
  have hin := List.mem_reverse.mpr h
  cases habs : isAbsolute path with
  | false => rfl
  | true =>
    rw [heq, hups habs, List.replicate_zero, List.append_nil] at hin
    exact absurd rfl (hnames _ hin).2.2

/-- Ignoring a directory hides a path: the directory itself, and what stands in it unless it is the root or the current
directory. A directory that only goes up hides what is reached by going up further, too. -/
def Hides (dirPath path : Text) : Prop :=
  clean path = clean dirPath ∨
    (clean dirPath ≠ "/" ∧ clean dirPath ≠ ".") ∧ (Under dirPath path ∨ Beyond dirPath path)

theorem hides_iff : Hides dirPath path ↔
    clean path = clean dirPath ∨ Text.startsWith (clean path) (clean dirPath ++ [slash]) = true := by
  rw [Hides, startsWith_clean_iff, ← not_or, ← cleanElements_eq_nil_iff]
  constructor
  · rintro (heq | ⟨hdir, hunder | ⟨ups, hups, rest, hrest⟩⟩)
    · exact .inl heq
    · obtain ⟨habs, names, -, helements⟩ := under_iff.mp hunder
      by_cases hnames : names = []
      · rw [hnames, List.append_nil] at helements
        exact .inl (clean_congr habs helements)
      · exact .inr ⟨habs, hdir, names, hnames, helements⟩
    · have hup : (".." : Text) ∈ cleanElements dirPath := by
        rw [hups]
        exact List.mem_cons_self
      have hup' : (".." : Text) ∈ cleanElements path := by
        rw [← hrest]
        exact List.mem_append_left _ List.mem_cons_self
      have habs : isAbsolute path = isAbsolute dirPath := by
        rw [isAbsolute_of_up_mem hup, isAbsolute_of_up_mem hup']
      refine .inr ⟨habs, hdir, (".." : Text) :: rest, by simp, ?_⟩
      rw [← hrest, hups, List.replicate_succ', List.append_assoc]
      rfl
  · rintro (heq | ⟨habs, hdir, more, -, helements⟩)
    · exact .inl heq
    · exact .inr ⟨hdir, under_or_beyond habs hdir helements⟩

end

end RpcBindings.Path

namespace RpcBindings.Watch

open RpcBindings.Path (Descent Under Beyond Hides)

/-! ## What a watcher was told -/

inductive Instruction where
  | watch (path : Text)
  | ignore (path : Text)

namespace Scope

def instruct (s : Scope) : Instruction → Scope
  | .watch path => s.watchFile path
  | .ignore path => s.ignore path

def instructed (extension : Text) (instructions : List Instruction) : Scope :=
  instructions.foldl instruct (empty extension)

section

variable {extension path : Text} {instructions : List Instruction}

theorem instructed_concat (i : Instruction) :
    instructed extension (instructions ++ [i]) = (instructed extension instructions).instruct i := by
  rw [instructed, List.foldl_append]
  rfl

theorem extension_instructed : (instructed extension instructions).extension = extension := by
  induction instructions using List.reverseRecOn with
  | nil => rfl
  | append_singleton instructions i ih =>
    rw [instructed_concat]
    cases i <;> exact ih

theorem mem_instructed_iff {f : Scope → NameSet} {told : Text → Instruction} (hinj : Function.Injective told)
    (hempty : (f (empty extension)).keys = [])
    (hadded : ∀ s named, f (instruct s (told named)) = (f s).add (Path.clean named))
    (hsame : ∀ s i, (∀ named, i ≠ told named) → f (instruct s i) = f s) :
    path ∈ (f (instructed extension instructions)).keys ↔
      ∃ named, told named ∈ instructions ∧ Path.clean named = path := by
  induction instructions using List.reverseRecOn with
  | nil =>
    rw [instructed, List.foldl_nil, hempty]
    simp
  | append_singleton instructions i ih =>
    rw [instructed_concat]
    by_cases htold : ∃ named, i = told named
    · obtain ⟨named, rfl⟩ := htold
      rw [hadded, NameSet.mem_keys_add, ih]
      simp [hinj.eq_iff, or_and_right, exists_or, eq_comm, or_comm]
    · have hother : ∀ named, i ≠ told named := fun named h => htold ⟨named, h⟩
      rw [hsame _ i hother, ih]
      simp [fun named => Ne.symm (hother named)]

theorem mem_ignored_iff : path ∈ (instructed extension instructions).ignored.names ↔
    ∃ dirPath, .ignore dirPath ∈ instructions ∧ Path.clean dirPath = path := by
  refine mem_instructed_iff (fun a b => Instruction.ignore.inj) rfl (fun _ _ => rfl) fun s i hother => ?_
  cases i with
  | watch => rfl
  | ignore dirPath => exact absurd rfl (hother dirPath)

theorem files_contains_iff : (instructed extension instructions).files.contains path = true ↔
    ∃ file, .watch file ∈ instructions ∧ Path.clean file = path := by
  rw [Dict.contains_iff]
  refine mem_instructed_iff (fun a b => Instruction.watch.inj) rfl (fun _ _ => rfl) fun s i hother => ?_
  cases i with
  | watch file => exact absurd rfl (hother file)
  | ignore => rfl

theorem isIgnored_iff : (instructed extension instructions).isIgnored (Path.clean path) = true ↔
    ∃ dirPath, .ignore dirPath ∈ instructions ∧ Hides dirPath path := by
  simp only [isIgnored, List.any_eq_true, mem_ignored_iff, Bool.or_eq_true, beq_iff_eq, Path.hides_iff]
  constructor
  · rintro ⟨d, ⟨dirPath, hin, rfl⟩, hhides⟩
    exact ⟨dirPath, hin, hhides⟩
  · rintro ⟨dirPath, hin, hhides⟩
    exact ⟨_, ⟨dirPath, hin, rfl⟩, hhides⟩

theorem relevant_iff : (instructed extension instructions).relevant path = true ↔
    isBackup (Path.clean path) = false ∧ (∀ dirPath, .ignore dirPath ∈ instructions → ¬ Hides dirPath path) ∧
      ((∃ file, .watch file ∈ instructions ∧ Path.clean file = Path.clean path) ∨
        Text.endsWith (Path.clean path) extension = true) := by
  have hignored : (instructed extension instructions).isIgnored (Path.clean path) = false ↔
      ∀ dirPath, .ignore dirPath ∈ instructions → ¬ Hides dirPath path := by
    rw [← Bool.not_eq_true, isIgnored_iff]
    simp only [not_exists, not_and]
  simp only [relevant, Bool.and_eq_true, Bool.not_eq_true', Bool.or_eq_true, hignored, files_contains_iff,
    extension_instructed, and_assoc]

theorem relevant_of_hides {dirPath : Text} (hin : .ignore dirPath ∈ instructions) (h : Hides dirPath path) :
    (instructed extension instructions).relevant path = false := by
  rw [← Bool.not_eq_true, relevant_iff]
  rintro ⟨-, hshown, -⟩
  exact hshown dirPath hin h

end

/-- A change matters if the path is no backup, no ignored directory hides it, and it was named or has the extension. An
ignored directory hides itself and, unless it is the root or the current directory, everything in it, whether named or
not. What stands in no ignored directory is hidden by none, unless it is reached by going up further than an ignored
directory that only goes up. -/
theorem relevant_exact (extension : Text) (instructions : List Instruction) :
    (∀ path, (instructed extension instructions).relevant path = true ↔
      isBackup (Path.clean path) = false ∧ (∀ dirPath, .ignore dirPath ∈ instructions → ¬ Hides dirPath path) ∧
        ((∃ file, .watch file ∈ instructions ∧ Path.clean file = Path.clean path) ∨
          Text.endsWith (Path.clean path) extension = true)) ∧
    (∀ dirPath, .ignore dirPath ∈ instructions →
      (instructed extension instructions).relevant dirPath = false ∧
      (Path.clean dirPath ≠ "/" → Path.clean dirPath ≠ "." → ∀ way, Descent way →
        (instructed extension instructions).relevant (Path.join [dirPath, way]) = false)) ∧
    ∀ path, isBackup (Path.clean path) = false →
      (∀ dirPath, .ignore dirPath ∈ instructions → ¬ Under dirPath path ∧ ¬ Beyond dirPath path) →
      ((instructed extension instructions).relevant path = true ↔
        (∃ file, .watch file ∈ instructions ∧ Path.clean file = Path.clean path) ∨
          Text.endsWith (Path.clean path) extension = true) := by
  refine ⟨fun path => relevant_iff, fun dirPath hin => ⟨?_, fun hroot hhere way hway => ?_⟩,
    fun path hbackup hapart => ?_⟩
  · exact relevant_of_hides hin (.inl rfl)
  · have hunder : Under dirPath (Path.join [dirPath, way]) := ⟨way, hway, Path.clean_join hway.ne_nil dirPath⟩
    exact relevant_of_hides hin (.inr ⟨⟨hroot, hhere⟩, .inl hunder⟩)
  · have hshown : ∀ dirPath, .ignore dirPath ∈ instructions → ¬ Hides dirPath path := by
      rintro dirPath hin (heq | ⟨-, hunder | hbeyond⟩)
      · exact (hapart dirPath hin).1 (Path.under_of_clean_eq heq)
      · exact (hapart dirPath hin).1 hunder
      · exact (hapart dirPath hin).2 hbeyond
    rw [relevant_iff]
    exact ⟨fun h => h.2.2, fun h => ⟨hbackup, hshown, h⟩⟩

def gallery : List Instruction := [.watch "gen/../notes.toml", .ignore "./gen/", .watch "gen/notes.toml"]

theorem relevant_exact_gallery :
    (instructed ".json" gallery).relevant "./gen/" = false ∧
    (instructed ".json" gallery).relevant (Path.join ["./gen/", "notes.toml"]) = false ∧
    (instructed ".json" gallery).relevant "notes.toml" = true := by
  obtain ⟨-, hhidden, hshown⟩ := relevant_exact ".json" gallery
  obtain ⟨hself, hbelow⟩ := hhidden "./gen/" (by simp [gallery])
  have hway : Descent "notes.toml" := ⟨by decide, by decide, by decide⟩
  have hgen : Path.cleanElements "./gen/" = ["gen"] := by decide
  have hnotes : Path.cleanElements "notes.toml" = ["notes.toml"] := by decide
  have hapart : ∀ dirPath, .ignore dirPath ∈ gallery →
      ¬ Under dirPath "notes.toml" ∧ ¬ Beyond dirPath "notes.toml" := by
    intro dirPath hin
    obtain rfl : dirPath = "./gen/" := by simpa [gallery] using hin
    constructor
    · intro hunder
      obtain ⟨-, names, -, helements⟩ := Path.under_iff.mp hunder
      rw [hgen, hnotes] at helements
      exact absurd (List.cons.inj helements).1 (by decide)
    · rintro ⟨ups, hups, -⟩
      rw [hgen] at hups
      exact absurd (List.cons.inj hups).1 (by decide)
  exact ⟨hself, hbelow (by decide) (by decide) _ hway,
    (hshown "notes.toml" (by decide) hapart).mpr (.inl ⟨"gen/../notes.toml", by simp [gallery], by decide⟩)⟩

/-- Neither the current directory nor the root hides what stands in it, and the parent directory hides a file that does
not stand in it. -/
theorem relevant_astray :
    (instructed ".json" [.ignore "."]).relevant (Path.join [".", "a.json"]) = true ∧
    (instructed ".json" [.ignore "/"]).relevant (Path.join ["/", "a.json"]) = true ∧
    (¬ Under ".." "../../a.json" ∧ (instructed ".json" [.ignore ".."]).relevant "../../a.json" = false) := by
  refine ⟨by decide, by decide, ?_, by decide⟩
  intro hunder
  obtain ⟨-, names, hnames, helements⟩ := Path.under_iff.mp hunder
  have hparent : Path.cleanElements ".." = [".."] := by decide
  have hpath : Path.cleanElements "../../a.json" = ["..", "..", "a.json"] := by decide
  rw [hparent, hpath] at helements
  obtain rfl := (List.cons.inj helements).2
  exact (hnames _ List.mem_cons_self).2.2 rfl

end Scope

end RpcBindings.Watch
