import Mathlib.Data.List.Basic
import RpcBindings.Path.Lexical
import RpcBindings.Proofs.Text

/-!
# Where paths lead

The elements of a path lead from one location to another: names go down, two dots go up, and empty elements and dots
stay. Cleaning a path does not change where it leads, and a clean path goes up before it goes down. Cleaning it a second
time changes nothing, so a clean path is a normal form: a root or none, then its elements.
-/

namespace RpcBindings.Path

def enter (loc : List Text) (element : Text) : List Text :=
  if element = [] ∨ element = "." then loc
  else if element = ".." then loc.dropLast
  else loc ++ [element]

def follow (loc elements : List Text) : List Text := elements.foldl enter loc

def IsName (element : Text) : Prop := element ≠ [] ∧ element ≠ "." ∧ element ≠ ".."

section

variable {loc : List Text} {element : Text}

theorem enter_of_skip (h : element = [] ∨ element = ".") : enter loc element = loc := if_pos h

theorem enter_up : enter loc ".." = loc.dropLast := rfl

theorem enter_of_isName (h : IsName element) : enter loc element = loc ++ [element] := by
  rw [enter, if_neg (not_or.mpr ⟨h.1, h.2.1⟩), if_neg h.2.2]

theorem not_prefix_enter {room : List Text} (h : ¬ room <+: loc) (hne : enter loc element ≠ room) :
    ¬ room <+: enter loc element := by
  intro hin
  rw [enter] at hin hne
  split at hin
  next => exact h hin
  next hskip =>
    rw [if_neg hskip] at hne
    split at hin
    next => exact h (hin.trans (List.dropLast_prefix _))
    next hup =>
      rw [if_neg hup] at hne
      rcases List.prefix_concat_iff.mp hin with heq | hin
      · exact hne heq.symm
      · exact h hin

theorem eq_of_enter_eq {other : Text} (h : enter loc element = enter loc other) (hother : IsName other) :
    element = other := by
  rw [enter_of_isName hother] at h
  by_cases hname : IsName element
  · rw [enter_of_isName hname] at h
    exact (List.cons.inj (List.append_cancel_left h)).1
  · have hlength := congrArg List.length h
    have hup : (enter loc element).length ≤ loc.length := by
      unfold enter
      split
      next => exact Nat.le_refl _
      next hskip =>
        split
        next => simp
        next hdots => exact absurd ⟨fun h => hskip (.inl h), fun h => hskip (.inr h), hdots⟩ hname
    rw [List.length_append, List.length_singleton] at hlength
    omega

theorem isName_of_length (h : 2 < element.length) : IsName element := by
  refine ⟨?_, ?_, ?_⟩ <;>
  · rintro rfl
    exact absurd h (by decide)

theorem follow_append (loc a b : List Text) : follow loc (a ++ b) = follow (follow loc a) b := List.foldl_append

theorem follow_concat (loc a : List Text) (element : Text) : follow loc (a ++ [element]) = enter (follow loc a) element :=
  List.foldl_append

theorem follow_names {names : List Text} (h : ∀ e ∈ names, IsName e) : follow loc names = loc ++ names := by
  induction names generalizing loc with
  | nil => exact (List.append_nil loc).symm
  | cons name names ih =>
    change follow (enter loc name) names = loc ++ name :: names
    rw [ih fun e he => h e (List.mem_cons_of_mem _ he), enter_of_isName (h name List.mem_cons_self), List.append_assoc,
      List.singleton_append]

end

/-! ## Texts of paths -/

section

variable {loc : List Text} {name : Text}

theorem follow_splitOn_append (hslash : slash ∉ name) (front : Text) :
    follow loc (Text.splitOn slash (front ++ slash :: name)) = enter (follow loc (Text.splitOn slash front)) name := by
  rw [Text.splitOn_append, Text.splitOn_of_not_mem hslash, follow_concat]

theorem follow_splitOn_slash (front : Text) :
    follow loc (Text.splitOn slash (front ++ [slash])) = follow loc (Text.splitOn slash front) :=
  follow_splitOn_append (List.not_mem_nil) front

end

/-! ## Cleaning -/

/-- What cleaning keeps, the last element first: names behind steps up, of which a path from the root has none. -/
def Kept (rooted : Bool) (kept : List Text) : Prop :=
  ∃ names ups, kept = names ++ List.replicate ups (".." : Text) ∧ (∀ e ∈ names, IsName e) ∧ (rooted = true → ups = 0)

theorem Kept.step {rooted : Bool} {kept : List Text} (h : Kept rooted kept) (element : Text) :
    Kept rooted (cleanStep rooted kept element) := by
  obtain ⟨names, ups, rfl, hnames, hups⟩ := h
  unfold cleanStep
  split
  next => exact ⟨names, ups, rfl, hnames, hups⟩
  next hskip =>
    split
    next hup =>
      subst hup
      -- a step up takes away the last name, and is kept itself only where no name is left
      cases names with
      | nil =>
        cases ups with
        | zero =>
          cases rooted with
          | true => exact ⟨[], 0, rfl, by simp, fun _ => rfl⟩
          | false => exact ⟨[], 1, rfl, by simp, by simp⟩
        | succ ups =>
          refine ⟨[], ups + 2, rfl, by simp, fun hr => ?_⟩
          cases hups hr
      | cons name names =>
        have hname := hnames name List.mem_cons_self
        simp only [List.cons_append, if_neg hname.2.2]
        exact ⟨names, ups, rfl, fun e he => hnames e (List.mem_cons_of_mem _ he), hups⟩
    next hup =>
      refine ⟨element :: names, ups, rfl, ?_, hups⟩
      intro e he
      rcases List.mem_cons.mp he with rfl | he
      · exact ⟨fun h => hskip (.inl h), fun h => hskip (.inr h), hup⟩
      · exact hnames e he

theorem Kept.run {rooted : Bool} {elements kept : List Text} (h : Kept rooted kept) :
    Kept rooted (elements.foldl (cleanStep rooted) kept) := by
  induction elements generalizing kept with
  | nil => exact h
  | cons element rest ih => exact ih (h.step element)

theorem Kept.start (rooted : Bool) : Kept rooted [] := ⟨[], 0, rfl, by simp, fun _ => rfl⟩

theorem follow_cleanStep {rooted : Bool} {loc kept : List Text} (hloc : rooted = true → loc = []) (h : Kept rooted kept)
    (element : Text) : follow loc (cleanStep rooted kept element).reverse = enter (follow loc kept.reverse) element := by
  unfold cleanStep
  split
  next hskip => rw [enter_of_skip hskip]
  next hskip =>
    split
    next hup =>
      subst hup
      obtain ⟨names, ups, rfl, hnames, hups⟩ := h
      cases names with
      | nil =>
        cases ups with
        | zero =>
          cases rooted with
          | true => rw [hloc rfl]; rfl
          | false => rfl
        | succ ups =>
          simp only [List.nil_append, List.replicate_succ, if_true, List.reverse_cons]
          rw [follow_concat]
      | cons name names =>
        have hname := hnames name List.mem_cons_self
        simp only [List.cons_append, if_neg hname.2.2, List.reverse_cons]
        rw [follow_concat, enter_of_isName hname, enter_up, List.dropLast_concat]
    next => rw [List.reverse_cons, follow_concat]

theorem follow_foldl_cleanStep {rooted : Bool} {loc elements kept : List Text} (hloc : rooted = true → loc = [])
    (h : Kept rooted kept) :
    follow loc (elements.foldl (cleanStep rooted) kept).reverse = follow (follow loc kept.reverse) elements := by
  induction elements generalizing kept with
  | nil => rfl
  | cons element rest ih =>
    rw [List.foldl_cons, ih (h.step element), follow_cleanStep hloc h]
    rfl

theorem follow_cleanElements {loc : List Text} {path : Text} (hloc : isAbsolute path = true → loc = []) :
    follow loc (cleanElements path) = follow loc (Text.splitOn slash path) :=
  follow_foldl_cleanStep hloc (Kept.start _)

theorem cleanStep_sublist (rooted : Bool) (kept : List Text) (element : Text) :
    List.Sublist (cleanStep rooted kept element) (element :: kept) := by
  unfold cleanStep
  split
  next => exact List.sublist_cons_self _ _
  next =>
    split
    next =>
      cases kept with
      | nil => cases rooted <;> simp
      | cons last rest =>
        simp only
        split
        next => exact List.Sublist.refl _
        next => exact (List.sublist_cons_self last rest).cons element
    next => exact List.Sublist.refl _

theorem foldl_cleanStep_sublist (rooted : Bool) (elements kept : List Text) :
    List.Sublist (elements.foldl (cleanStep rooted) kept) (elements.reverse ++ kept) := by
  induction elements generalizing kept with
  | nil => exact List.Sublist.refl _
  | cons element rest ih =>
    rw [List.foldl_cons, List.reverse_cons, List.append_assoc, List.singleton_append]
    exact (ih _).trans ((cleanStep_sublist rooted kept element).append_left _)

theorem cleanElements_sublist (path : Text) : List.Sublist (cleanElements path) (Text.splitOn slash path) := by
  have hkept := foldl_cleanStep_sublist (isAbsolute path) (Text.splitOn slash path) []
  rw [List.append_nil] at hkept
  exact List.sublist_reverse_iff.mp hkept

theorem slash_not_mem_cleanElements {path e : Text} (h : e ∈ cleanElements path) : slash ∉ e :=
  Text.not_mem_of_mem_splitOn ((cleanElements_sublist path).subset h)

theorem kept_cleanElements (path : Text) : Kept (isAbsolute path) (cleanElements path).reverse := by
  rw [cleanElements, List.reverse_reverse]
  exact (Kept.start _).run

theorem ne_nil_of_mem_cleanElements {path e : Text} (h : e ∈ cleanElements path) : e ≠ [] := by
  obtain ⟨names, ups, heq, hnames, -⟩ := kept_cleanElements path
  have hin := List.mem_reverse.mpr h
  rw [heq] at hin
  rcases List.mem_append.mp hin with hin | hin
  · exact (hnames e hin).1
  · rw [List.eq_of_mem_replicate hin]
    decide

/-! ## Clean paths -/

inductive Straight : List Text → Prop
  | names {elements : List Text} : (∀ e ∈ elements, IsName e) → Straight elements
  | up {elements : List Text} : Straight elements → Straight (".." :: elements)
  | skip {element : Text} {elements : List Text} : element = [] ∨ element = "." → Straight elements →
      Straight (element :: elements)

theorem straight_cleanElements (path : Text) : Straight (cleanElements path) := by
  obtain ⟨names, ups, hkept, hnames, -⟩ := kept_cleanElements path
  have heq : cleanElements path = List.replicate ups (".." : Text) ++ names.reverse := by
    rw [← List.reverse_reverse (cleanElements path), hkept]
    simp
  rw [heq]
  clear heq hkept
  induction ups with
  | zero => exact .names fun e he => hnames e (List.mem_reverse.mp (by simpa using he))
  | succ ups ih => exact .up ih

theorem join_cleanElements_eq_nil {path : Text} (h : Text.join [slash] (cleanElements path) = []) :
    cleanElements path = [] := by
  cases helements : cleanElements path with
  | nil => rfl
  | cons e rest =>
    have hne : e ≠ [] := ne_nil_of_mem_cleanElements (helements ▸ List.mem_cons_self)
    rw [helements] at h
    cases rest with
    | nil => exact absurd h hne
    | cons next rest => simp [Text.join, hne] at h

theorem splitOn_clean (path : Text) :
    Text.splitOn slash (clean path) =
      (if isAbsolute path then [([] : Text)] else []) ++
        (if cleanElements path = [] then [if isAbsolute path then ([] : Text) else "."] else cleanElements path) := by
  have hjoin : cleanElements path ≠ [] →
      Text.splitOn slash (Text.join [slash] (cleanElements path)) = cleanElements path := fun hne =>
    Text.splitOn_join hne fun e he => slash_not_mem_cleanElements he
  unfold clean
  by_cases habs : isAbsolute path = true
  · rw [if_pos habs, if_pos habs, if_pos habs, Text.splitOn_cons_self]
    by_cases hnil : cleanElements path = []
    · rw [if_pos hnil, hnil]
      rfl
    · rw [if_neg hnil, hjoin hnil]
      rfl
  · rw [if_neg habs, if_neg habs, if_neg habs]
    by_cases hnil : cleanElements path = []
    · rw [if_pos hnil, hnil]
      rfl
    · have hbody : Text.join [slash] (cleanElements path) ≠ [] := fun h => hnil (join_cleanElements_eq_nil h)
      rw [if_neg hnil, if_neg (by simpa using hbody), hjoin hnil]
      rfl

theorem straight_clean (path : Text) : Straight (Text.splitOn slash (clean path)) := by
  have hrest : Straight (if cleanElements path = [] then [if isAbsolute path then ([] : Text) else "."]
      else cleanElements path) := by
    split
    next =>
      refine .skip ?_ (.names (by simp))
      split <;> simp
    next => exact straight_cleanElements path
  rw [splitOn_clean]
  by_cases habs : isAbsolute path = true
  · rw [if_pos habs]
    exact .skip (.inl rfl) hrest
  · rw [if_neg habs]
    exact hrest

theorem follow_clean {loc : List Text} {path : Text} (hloc : isAbsolute path = true → loc = []) :
    follow loc (Text.splitOn slash (clean path)) = follow loc (Text.splitOn slash path) := by
  have hlead : follow loc (if isAbsolute path then [([] : Text)] else []) = loc := by split <;> rfl
  rw [← follow_cleanElements hloc, splitOn_clean, follow_append, hlead]
  split
  next hnil =>
    rw [hnil]
    refine enter_of_skip ?_
    split <;> simp
  next => rfl

theorem isAbsolute_clean (path : Text) : isAbsolute (clean path) = isAbsolute path := by
  by_cases habs : isAbsolute path = true
  · rw [habs, clean, if_pos habs]
    rfl
  · simp only [clean, if_neg habs, Bool.not_eq_true] at habs ⊢
    rw [habs]
    cases helements : cleanElements path with
    | nil => rfl
    | cons e rest =>
      have hin : e ∈ cleanElements path := helements ▸ List.mem_cons_self
      cases e with
      | nil => exact absurd rfl (ne_nil_of_mem_cleanElements hin)
      | cons b e =>
        have hb : b ≠ slash := fun h => slash_not_mem_cleanElements hin (h ▸ List.mem_cons_self)
        cases rest <;> simp [isAbsolute, Text.join, hb]

theorem clean_ne_nil (path : Text) : clean path ≠ [] := by
  simp only [clean]
  split
  next => simp
  next =>
    split
    next => decide
    next hbody => simpa using hbody

/-! ## A name in a directory -/

section

variable {dirPath name : Text} {loc : List Text}

theorem join_pair (hdir : dirPath ≠ []) (name : Text) : join [dirPath, name] = clean (dirPath ++ slash :: name) := by
  simp [join, hdir, Text.join]

theorem isAbsolute_append (hdir : dirPath ≠ []) (rest : Text) : isAbsolute (dirPath ++ rest) = isAbsolute dirPath := by
  cases dirPath with
  | nil => exact absurd rfl hdir
  | cons b t => rfl

theorem isAbsolute_of_not_mem (hslash : slash ∉ name) : isAbsolute name = false := by
  cases name with
  | nil => rfl
  | cons b rest =>
    have hb : b ≠ slash := fun heq => hslash (heq ▸ List.mem_cons_self)
    simp [isAbsolute, hb]

theorem isAbsolute_join (hdir : dirPath ≠ []) (name : Text) : isAbsolute (join [dirPath, name]) = isAbsolute dirPath := by
  rw [join_pair hdir, isAbsolute_clean, isAbsolute_append hdir]

theorem join_empty (name : Text) : join [[], name] = if name = [] then [] else clean name := by
  by_cases h : name = []
  · rw [h]
    rfl
  · simp [join, h, Text.join]

theorem follow_join (hslash : slash ∉ name) (hloc : isAbsolute dirPath = true → loc = []) :
    follow loc (Text.splitOn slash (join [dirPath, name])) = enter (follow loc (Text.splitOn slash dirPath)) name := by
  by_cases hdir : dirPath = []
  · subst hdir
    have hrelative : isAbsolute name = true → loc = [] := by simp [isAbsolute_of_not_mem hslash]
    rw [join_empty]
    split
    next hempty =>
      rw [hempty]
      rfl
    next =>
      rw [follow_clean hrelative, Text.splitOn_of_not_mem hslash]
      rfl
  · rw [join_pair hdir, follow_clean (by rwa [isAbsolute_append hdir]), follow_splitOn_append hslash]

theorem straight_join (hdir : dirPath ≠ []) (name : Text) : Straight (Text.splitOn slash (join [dirPath, name])) := by
  rw [join_pair hdir]
  exact straight_clean _

theorem straight_join_of_any (dirPath name : Text) : Straight (Text.splitOn slash (join [dirPath, name])) := by
  by_cases hdir : dirPath = []
  · rw [hdir, join_empty]
    split
    next => exact .skip (.inl rfl) (.names nofun)
    next => exact straight_clean name
  · exact straight_join hdir name

theorem isAbsolute_join_of_name (hslash : slash ∉ name) (dirPath : Text) :
    isAbsolute (join [dirPath, name]) = isAbsolute dirPath := by
  by_cases hdir : dirPath = []
  · rw [hdir, join_empty]
    split
    next => rfl
    next =>
      rw [isAbsolute_clean, isAbsolute_of_not_mem hslash]
      rfl
  · exact isAbsolute_join hdir name

def IsLead (lead : Text) : Prop := lead = [] ∨ ∃ front, lead = front ++ [slash]

theorem exists_lead (hdir : dirPath ≠ []) (hname : IsName name) (hslash : slash ∉ name) :
    ∃ lead, join [dirPath, name] = lead ++ name ∧ IsLead lead := by
  have helements : cleanElements (dirPath ++ slash :: name) =
      ((Text.splitOn slash dirPath).foldl (cleanStep (isAbsolute (dirPath ++ slash :: name))) []).reverse ++ [name] := by
    rw [cleanElements, Text.splitOn_append, Text.splitOn_of_not_mem hslash, List.foldl_append]
    simp [cleanStep, hname.1, hname.2.1, hname.2.2]
  rw [join_pair hdir]
  generalize ((Text.splitOn slash dirPath).foldl _ []).reverse = front at helements
  have hbody : ∃ lead, Text.join [slash] (front ++ [name]) = lead ++ name ∧ IsLead lead := by
    by_cases hfront : front = []
    · exact ⟨[], by rw [hfront]; rfl, .inl rfl⟩
    · exact ⟨Text.join [slash] front ++ [slash], Text.join_concat _ _ hfront, .inr ⟨_, rfl⟩⟩
  obtain ⟨lead, hlead, hends⟩ := hbody
  simp only [clean, helements, hlead]
  split
  next =>
    refine ⟨slash :: lead, rfl, .inr ?_⟩
    rcases hends with rfl | ⟨more, rfl⟩
    · exact ⟨[], rfl⟩
    · exact ⟨slash :: more, rfl⟩
  next =>
    rw [if_neg (by simp [hname.1])]
    exact ⟨lead, rfl, hends⟩

variable {lead : Text}

theorem lastElement_append (hlead : IsLead lead) (hslash : slash ∉ name) : lastElement (lead ++ name) = name := by
  have hname : ∀ b ∈ name.reverse, (b != slash) = true := by
    intro b hb
    simpa using fun heq : b = slash => hslash (heq ▸ List.mem_reverse.mp hb)
  have hfront : lead.reverse.takeWhile (· != slash) = [] := by
    rcases hlead with rfl | ⟨front, rfl⟩
    · rfl
    · simp
  rw [lastElement, List.reverse_append, List.takeWhile_append_of_pos hname, hfront, List.append_nil, List.reverse_reverse]

theorem base_append (hlead : IsLead lead) (hname : name ≠ []) (hslash : slash ∉ name) : base (lead ++ name) = name := by
  have htrim : (lead ++ name).reverse.dropWhile (· == slash) = (lead ++ name).reverse := by
    rw [List.reverse_append]
    cases hrev : name.reverse with
    | nil => exact absurd (List.reverse_eq_nil_iff.mp hrev) hname
    | cons b rest =>
      have hb : b ≠ slash := fun heq => hslash (List.mem_reverse.mp (hrev ▸ heq ▸ List.mem_cons_self))
      simp [hb]
  simp only [base, htrim, List.reverse_reverse]
  rw [if_neg (by simp [hname]), if_neg (by simp [hname]), lastElement_append hlead hslash]

theorem leading_append (hlead : IsLead lead) (hslash : slash ∉ name) : leading (lead ++ name) = lead := by
  rw [leading, lastElement_append hlead hslash]
  simp

theorem dir_ne_nil (path : Text) : dir path ≠ [] := clean_ne_nil (leading path)

theorem isAbsolute_lead (hlead : IsLead lead) (hslash : slash ∉ name) : isAbsolute (lead ++ name) = isAbsolute lead := by
  rcases hlead with rfl | ⟨front, rfl⟩
  · exact isAbsolute_of_not_mem hslash
  · exact isAbsolute_append (by simp) name

theorem isAbsolute_dir (hlead : IsLead lead) (hslash : slash ∉ name) :
    isAbsolute (dir (lead ++ name)) = isAbsolute (lead ++ name) := by
  rw [dir, isAbsolute_clean, leading_append hlead hslash, isAbsolute_lead hlead hslash]

end

/-! ## Clean paths are normal forms -/

theorem clean_congr {path other : Text} (habs : isAbsolute path = isAbsolute other)
    (helements : cleanElements path = cleanElements other) : clean path = clean other := by
  simp only [clean, habs, helements]

theorem cleanStep_of_isName {element : Text} (h : IsName element) (rooted : Bool) (kept : List Text) :
    cleanStep rooted kept element = element :: kept := by
  unfold cleanStep
  rw [if_neg (not_or.mpr ⟨h.1, h.2.1⟩), if_neg h.2.2]

-- The last element kept was kept because of what stood in front of it, so it is kept again.
theorem Kept.last {rooted : Bool} {element : Text} {kept : List Text} (h : Kept rooted (element :: kept)) :
    Kept rooted kept ∧ cleanStep rooted kept element = element :: kept := by
  obtain ⟨names, ups, heq, hnames, hups⟩ := h
  cases names with
  | nil =>
    cases ups with
    | zero => cases heq
    | succ ups =>
      obtain ⟨rfl, rfl⟩ := List.cons.inj heq
      have hrooted : rooted = false := by
        cases rooted with
        | true => cases hups rfl
        | false => rfl
      refine ⟨⟨[], ups, rfl, by simp, by simp [hrooted]⟩, ?_⟩
      cases ups with
      | zero => rw [hrooted]; rfl
      | succ ups => rfl
  | cons name names =>
    obtain ⟨rfl, rfl⟩ := List.cons.inj heq
    exact ⟨⟨names, ups, rfl, fun e he => hnames e (List.mem_cons_of_mem _ he), hups⟩,
      cleanStep_of_isName (hnames element List.mem_cons_self) _ _⟩

theorem Kept.foldl_cleanStep {rooted : Bool} {kept : List Text} (h : Kept rooted kept) :
    kept.reverse.foldl (cleanStep rooted) [] = kept := by
  induction kept with
  | nil => rfl
  | cons element kept ih =>
    obtain ⟨hkept, hstep⟩ := h.last
    rw [List.reverse_cons, List.foldl_append, ih hkept]
    exact hstep

theorem cleanElements_clean (path : Text) : cleanElements (clean path) = cleanElements path := by
  have hlead : (if isAbsolute path then [([] : Text)] else []).foldl (cleanStep (isAbsolute path)) [] = [] := by
    split <;> rfl
  rw [cleanElements, isAbsolute_clean, splitOn_clean, List.foldl_append, hlead]
  split
  next hnil =>
    rw [hnil]
    split <;> rfl
  next =>
    have hkept := (kept_cleanElements path).foldl_cleanStep
    rw [List.reverse_reverse] at hkept
    rw [hkept, List.reverse_reverse]

theorem clean_clean (path : Text) : clean (clean path) = clean path :=
  clean_congr (isAbsolute_clean path) (cleanElements_clean path)

theorem clean_join {way : Text} (h : way ≠ []) (dirPath : Text) : clean (join [dirPath, way]) = join [dirPath, way] := by
  by_cases hdir : dirPath = []
  · rw [hdir, join_empty, if_neg h, clean_clean]
  · rw [join_pair hdir, clean_clean]

/-! ## One element more -/

section

variable {name lead : Text}

theorem cleanElements_append (hlead : IsLead lead) (hname : IsName name) (hslash : slash ∉ name) :
    cleanElements (lead ++ name) = cleanElements lead ++ [name] := by
  rw [cleanElements, cleanElements, isAbsolute_lead hlead hslash]
  rcases hlead with rfl | ⟨front, rfl⟩
  · rw [List.nil_append, Text.splitOn_of_not_mem hslash]
    simp only [List.foldl_cons, List.foldl_nil, cleanStep_of_isName hname]
    rfl
  · -- the empty element behind the slash is passed over
    rw [List.append_assoc, List.singleton_append, Text.splitOn_append, Text.splitOn_append,
      Text.splitOn_of_not_mem hslash, List.foldl_append, List.foldl_append]
    simp only [List.foldl_cons, List.foldl_nil, cleanStep_of_isName hname, List.reverse_cons]
    rfl

theorem cleanElements_append_slash {path : Text} (h : path ≠ []) : cleanElements (path ++ [slash]) = cleanElements path := by
  rw [cleanElements, cleanElements, isAbsolute_append h, Text.splitOn_append, List.foldl_append]
  rfl

theorem exists_lead_of_any (hname : IsName name) (hslash : slash ∉ name) (dirPath : Text) :
    ∃ lead, join [dirPath, name] = lead ++ name ∧ IsLead lead := by
  by_cases hdir : dirPath = []
  · have helements : cleanElements name = [name] := cleanElements_append (.inl rfl) hname hslash
    refine ⟨[], ?_, .inl rfl⟩
    simp [hdir, join_empty, hname.1, clean, helements, isAbsolute_of_not_mem hslash]
  · exact exists_lead hdir hname hslash

theorem cleanElements_join (hname : IsName name) (hslash : slash ∉ name) (dirPath : Text) :
    cleanElements (join [dirPath, name]) = cleanElements dirPath ++ [name] := by
  by_cases hdir : dirPath = []
  · rw [hdir, join_empty, if_neg hname.1, cleanElements_clean]
    exact cleanElements_append (.inl rfl) hname hslash
  · have hlead : IsLead (dirPath ++ [slash]) := .inr ⟨dirPath, rfl⟩
    rw [join_pair hdir, cleanElements_clean, ← List.singleton_append, ← List.append_assoc,
      cleanElements_append hlead hname hslash, cleanElements_append_slash hdir]

theorem base_join (hname : IsName name) (hslash : slash ∉ name) (dirPath : Text) : base (join [dirPath, name]) = name := by
  obtain ⟨lead, hpath, hlead⟩ := exists_lead_of_any hname hslash dirPath
  rw [hpath, base_append hlead hname.1 hslash]

theorem dir_join (hname : IsName name) (hslash : slash ∉ name) (dirPath : Text) :
    dir (join [dirPath, name]) = clean dirPath := by
  obtain ⟨lead, hpath, hlead⟩ := exists_lead_of_any hname hslash dirPath
  have habs := isAbsolute_join_of_name hslash dirPath
  have helements := cleanElements_join hname hslash dirPath
  rw [hpath, isAbsolute_lead hlead hslash] at habs
  rw [hpath, cleanElements_append hlead hname hslash] at helements
  rw [hpath, dir, leading_append hlead hslash]
  exact clean_congr habs (List.append_cancel_right helements)

end

end RpcBindings.Path
