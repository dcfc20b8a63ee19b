import RpcBindings.Proofs.Alphabet
import RpcBindings.Proofs.Glyphs
import RpcBindings.Proofs.Identifiers

/-!
# Converted names

A converted name consists of words with one underscore between neighbours, and its words hold the letters and digits of
the name in their order, each in its small form. Converting a converted name again can only cut words in two: this
happens where a capital that has no small form looks like the start of a word, now that the letters around it are small.
-/

namespace RpcBindings.Naming

open Alphabet

/-! ## Characters of converted names -/

theorem isWordChar_underscore : isWordChar '_' = false := by decide

theorem isUpper_underscore : isUpper '_' = false := by decide

theorem isLower_underscore : isLower '_' = false := by decide

theorem ne_underscore_of_isWordChar {c : Char} (h : isWordChar c = true) : c ≠ '_' := by
  rintro rfl
  rw [isWordChar_underscore] at h
  cases h

theorem isWordChar_of_isUpper {c : Char} (h : isUpper c = true) : isWordChar c = true := by
  rw [isWordChar, isLetter_of_isUpper h, Bool.true_or]

theorem lower_or_isLower_of_isWordChar {c : Char} (h : isWordChar c = true) :
    lower c = c ∨ isLower (lower c) = true := by
  rcases Bool.or_eq_true _ _ ▸ h with h | h
  · exact lower_or_isLower h
  · exact .inl (lower_of_isDigit h)

theorem lower_lower {c : Char} (h : isWordChar c = true) : lower (lower c) = lower c := by
  rcases lower_or_isLower_of_isWordChar h with heq | hlower
  · rw [heq, heq]
  · exact lower_of_isLower hlower

theorem isWordChar_lower {c : Char} (h : isWordChar c = true) : isWordChar (lower c) = true := by
  rcases lower_or_isLower_of_isWordChar h with heq | hlower
  · rwa [heq]
  · rw [isWordChar, isLetter_of_isLower hlower, Bool.true_or]

theorem isUpper_lower {c : Char} (h : isWordChar c = true) :
    isUpper (lower c) = true ↔ isUpper c = true ∧ lower c = c := by
  rcases lower_or_isLower_of_isWordChar h with heq | hlower
  · simp [heq]
  · have hupper := isUpper_of_isLower hlower
    constructor
    · intro hin
      rw [hin] at hupper
      cases hupper
    · rintro ⟨hin, heq⟩
      rw [heq, hin] at hupper
      cases hupper

/-! ## Shape -/

theorem snakeFrom_filter (cs : List Char) : ∀ (before : Option Char) (started apart : Bool),
    (snakeFrom before started apart cs).filter (· != '_') = (cs.filter isWordChar).map lower := by
  induction cs with
  | nil => intro before started apart; rfl
  | cons c rest ih =>
    intro before started apart
    rw [snakeFrom, List.filter_cons]
    split_ifs with hword hapart
    · simp [ih, lower_ne_underscore hword]
    · simp [ih, lower_ne_underscore hword]
    · exact ih _ _ _

theorem snakeFrom_head? (cs : List Char) : ∀ (before : Option Char) (apart : Bool),
    (snakeFrom before false apart cs).head? ≠ some '_' := by
  induction cs with
  | nil => intro before apart h; cases h
  | cons c rest ih =>
    intro before apart
    rw [snakeFrom]
    split_ifs with hword hapart
    · simp at hapart
    · simpa using lower_ne_underscore hword
    · exact ih _ _

theorem snakeFrom_isChain (cs : List Char) : ∀ (before : Option Char) (started apart : Bool),
    (snakeFrom before started apart cs).IsChain fun a b => ¬ (a = '_' ∧ b = '_') := by
  induction cs with
  | nil => intro before started apart; exact .nil
  | cons c rest ih =>
    intro before started apart
    rw [snakeFrom]
    have htail : isWordChar c = true →
        (lower c :: snakeFrom (some c) true false rest).IsChain fun a b => ¬ (a = '_' ∧ b = '_') := by
      intro hword
      exact (ih _ _ _).cons fun _ _ h => lower_ne_underscore hword h.1
    split_ifs with hword hapart
    · exact List.isChain_cons_cons.mpr ⟨fun h => lower_ne_underscore hword h.2, htail hword⟩
    · exact htail hword
    · exact ih _ _ _

theorem snakeChars_eq_nil_iff (cs : List Char) : snakeChars cs = [] ↔ ∀ c ∈ cs, isWordChar c = false := by
  have hfilter := snakeFrom_filter cs none false false
  rw [← snakeChars] at hfilter
  constructor
  · intro h
    rw [h, List.filter_nil, eq_comm, List.map_eq_nil_iff, List.filter_eq_nil_iff] at hfilter
    simpa using hfilter
  · intro h
    have hnone : cs.filter isWordChar = [] := by simpa using h
    rw [hnone, List.map_nil, List.filter_eq_nil_iff] at hfilter
    -- nothing but underscores is left, and the last character is none
    rcases List.eq_nil_or_concat' (snakeChars cs) with hnil | ⟨ds, d, hds⟩
    · exact hnil
    · have hlast : (snakeChars cs).getLast? ≠ some '_' := snakeFrom_getLast? cs
      have hd : d = '_' := by simpa using hfilter d (by simp [hds])
      exact absurd (by simp [hds, hd]) hlast

/-! ## Bytes -/

theorem ofChar_underscore : Text.ofChar '_' = [95] := by decide

theorem underscore_not_mem_ofChar {c : Char} (h : c ≠ '_') : 95 ∉ Text.ofChar c :=
  fun hin => h (eq_underscore_of_mem_ofChar hin)

theorem ofChars_cons (c : Char) (cs : List Char) : Text.ofChars (c :: cs) = Text.ofChar c ++ Text.ofChars cs :=
  List.flatMap_cons

theorem ofChar_ne_nil (c : Char) : Text.ofChar c ≠ [] := by simp [Text.ofChar]

theorem ofChars_filter (cs : List Char) :
    (Text.ofChars cs).filter (· != 95) = Text.ofChars (cs.filter (· != '_')) := by
  induction cs with
  | nil => rfl
  | cons c cs ih =>
    rw [ofChars_cons, List.filter_append, ih]
    by_cases h : c = '_'
    · subst h
      rw [ofChar_underscore]
      rfl
    · have hall : (Text.ofChar c).filter (· != 95) = Text.ofChar c := by
        rw [List.filter_eq_self]
        intro b hb
        simpa using fun heq : b = 95 => underscore_not_mem_ofChar h (heq ▸ hb)
      rw [hall, List.filter_cons, if_pos (by simpa using h), ofChars_cons]

theorem ofChars_eq_nil_iff {cs : List Char} : Text.ofChars cs = [] ↔ cs = [] := by
  cases cs with
  | nil => simp [Text.ofChars]
  | cons c cs => simp [ofChars_cons, ofChar_ne_nil]

theorem head?_of_ofChars {cs : List Char} (h : (Text.ofChars cs).head? = some 95) : cs.head? = some '_' := by
  cases cs with
  | nil => cases h
  | cons c cs =>
    rw [ofChars_cons, List.head?_append_of_ne_nil _ (ofChar_ne_nil c)] at h
    rw [List.head?_cons, eq_underscore_of_mem_ofChar (List.mem_of_head? h)]

theorem ofChars_isChain {cs : List Char} (h : cs.IsChain fun a b => ¬ (a = '_' ∧ b = '_')) :
    (Text.ofChars cs).IsChain fun a b => ¬ (a = 95 ∧ b = 95) := by
  induction cs with
  | nil => exact .nil
  | cons c cs ih =>
    rw [ofChars_cons, List.isChain_append]
    refine ⟨?_, ih h.tail, ?_⟩
    · by_cases hc : c = '_'
      · subst hc
        rw [ofChar_underscore]
        exact .singleton _
      · have hall : (Text.ofChar c).Pairwise fun a b => ¬ (a = 95 ∧ b = 95) :=
          List.pairwise_iff_forall_sublist.mpr fun hsub hboth =>
            underscore_not_mem_ofChar hc (hboth.1 ▸ hsub.subset List.mem_cons_self)
        exact hall.isChain
    · rintro a ha b hb ⟨rfl, rfl⟩
      have hc : c = '_' := eq_underscore_of_mem_ofChar (List.mem_of_getLast? ha)
      exact h.rel_head? (head?_of_ofChars hb) ⟨hc, rfl⟩

/-- A converted name neither starts nor ends with an underscore and has no two in a row. Without its underscores it is the
letters and digits of the name in their order, each in its small form; and it is empty exactly if there are none. -/
theorem snakeCase_shape (name : Text) :
    (snakeCase name).head? ≠ some 95 ∧ (snakeCase name).getLast? ≠ some 95 ∧ ¬ [95, 95] <:+: snakeCase name ∧
      (snakeCase name).filter (· != 95) =
        Text.ofChars (((Text.runes name).filter fun c => isLetter c || isDigit c).map lower) ∧
      (snakeCase name = [] ↔ ∀ c ∈ Text.runes name, isLetter c = false ∧ isDigit c = false) := by
  refine ⟨fun h => ?_, snakeCase_getLast? name, fun h => ?_, ?_, ?_⟩
  · exact snakeFrom_head? _ _ _ (head?_of_ofChars h)
  · have hchain : (snakeCase name).IsChain _ := ofChars_isChain (snakeFrom_isChain (Text.runes name) none false false)
    obtain ⟨lead, tail, heq⟩ := h
    rw [← heq] at hchain
    exact (List.isChain_cons_cons.mp hchain.left_of_append.right_of_append).1 ⟨rfl, rfl⟩
  · rw [snakeCase, ofChars_filter, snakeChars, snakeFrom_filter]
    rfl
  · rw [snakeCase, ofChars_eq_nil_iff, snakeChars_eq_nil_iff]
    simp [isWordChar]

/-! ## Converting twice -/

/-- A property of each character that follows another one, together with both and with what comes behind. -/
def Throughout (P : Char → Char → List Char → Prop) (cs : List Char) : Prop :=
  ∀ lead p c rest, cs = lead ++ p :: c :: rest → P p c rest

theorem throughout_nil (P : Char → Char → List Char → Prop) : Throughout P [] := by
  intro lead p c rest h
  simp at h

theorem throughout_singleton (P : Char → Char → List Char → Prop) (c : Char) : Throughout P [c] := by
  intro lead p d rest h
  have hlength := congrArg List.length h
  simp only [List.length_append, List.length_cons, List.length_nil] at hlength
  omega

theorem throughout_cons {P : Char → Char → List Char → Prop} {p c : Char} {rest : List Char} :
    Throughout P (p :: c :: rest) ↔ P p c rest ∧ Throughout P (c :: rest) := by
  constructor
  · intro h
    exact ⟨h [] p c rest rfl, fun lead q d tail heq => h (p :: lead) q d tail (congrArg (p :: ·) heq)⟩
  · rintro ⟨hfirst, hrest⟩ lead q d tail heq
    cases lead with
    | nil =>
      cases heq
      exact hfirst
    | cons b lead => exact hrest lead q d tail (List.cons.inj heq).2

def Joined (p c : Char) (rest : List Char) : Prop := startsWord (some p) c rest = false

theorem joined_underscore_left (c : Char) (rest : List Char) : Joined '_' c rest := by
  have hdigit : isDigit '_' = false := by decide
  simp [Joined, startsWord, isLower_underscore, isUpper_underscore, hdigit]

theorem joined_underscore_right (p : Char) (rest : List Char) : Joined p '_' rest := by
  simp [Joined, startsWord, isUpper_underscore]

structure Converted (ds : List Char) : Prop where
  steady : ∀ d ∈ ds, d = '_' ∨ isWordChar d = true ∧ lower d = d
  last : ds.getLast? ≠ some '_'
  single : ds.IsChain fun a b => ¬ (a = '_' ∧ b = '_')

theorem converted_snakeFrom (before : Option Char) (started apart : Bool) (cs : List Char) :
    Converted (snakeFrom before started apart cs) where
  steady d hd := by
    rcases mem_snakeFrom hd with rfl | ⟨c, -, hword, rfl⟩
    · exact .inl rfl
    · exact .inr ⟨isWordChar_lower hword, lower_lower hword⟩
  last := snakeFrom_getLast? cs
  single := snakeFrom_isChain cs before started apart

theorem Converted.tail {p d : Char} {ds : List Char} (h : Converted (p :: d :: ds)) : Converted (d :: ds) where
  steady e he := h.steady e (List.mem_cons_of_mem p he)
  last := by
    have hlast := h.last
    rwa [List.getLast?_cons_cons] at hlast
  single := h.single.tail

/-- What a conversion makes of the rest of a converted row. An underscore is not written before the word behind it is
reached. -/
theorem snakeFrom_eq_iff (ds : List Char) : ∀ p, Converted (p :: ds) →
    (snakeFrom (some p) true (p == '_') ds = (if p = '_' then p :: ds else ds) ↔ Throughout Joined (p :: ds)) := by
  induction ds with
  | nil =>
    intro p h
    have hp : p ≠ '_' := by
      rintro rfl
      exact h.last rfl
    simp [snakeFrom, hp, throughout_singleton]
  | cons d ds ih =>
    intro p h
    have hrest := ih d h.tail
    rw [snakeFrom, throughout_cons, ← hrest]
    rcases h.steady d (by simp) with rfl | ⟨hword, hsteady⟩
    · have hp : p ≠ '_' := fun heq => (List.isChain_cons_cons.mp h.single).1 ⟨heq, rfl⟩
      simp [isWordChar_underscore, hp, joined_underscore_right]
    · have hd := ne_underscore_of_isWordChar hword
      rw [beq_false_of_ne hd]
      by_cases hp : p = '_'
      · subst hp
        simp [hword, hsteady, hd, joined_underscore_left]
      · by_cases hstarts : startsWord (some p) d ds = true
        · simp [hword, hp, hstarts, hd.symm, Joined]
        · simp [hword, hsteady, hd, hp, hstarts, Joined]

theorem snakeChars_eq_self_iff {ds : List Char} (h : Converted ds) (hhead : ds.head? ≠ some '_') :
    snakeChars ds = ds ↔ Throughout Joined ds := by
  cases ds with
  | nil => simp [snakeChars, snakeFrom, throughout_nil]
  | cons d ds =>
    have hd : d ≠ '_' := by simpa using hhead
    obtain ⟨hword, hsteady⟩ := (h.steady d List.mem_cons_self).resolve_left hd
    have hrest := snakeFrom_eq_iff ds d h
    rw [beq_false_of_ne hd, if_neg hd] at hrest
    rw [snakeChars, snakeFrom, if_pos hword, ← hrest]
    simp [hsteady]

def sinks (c : Char) : List Char → Bool
  | [] => false
  | n :: rest => isWordChar n && lower n != n && !startsWord (some c) n rest

/-- A capital without a small form that stands inside a word behind `p`, but seems to start one when the letters around
it have become small: `p` itself does, or `p` is another such capital and the letter that follows does. -/
def Resurfaces (p c : Char) (rest : List Char) : Prop :=
  isWordChar p = true ∧ isUpper c = true ∧ lower c = c ∧
    (lower p ≠ p ∧ ¬ (isUpper p = true ∧ smallFollows rest = true) ∨
      lower p = p ∧ isUpper p = true ∧ smallFollows rest = false ∧ sinks c rest = true)

instance (p c : Char) (rest : List Char) : Decidable (Resurfaces p c rest) := inferInstanceAs (Decidable (_ ∧ _))

theorem startsWord_iff {p c : Char} {rest : List Char} : startsWord (some p) c rest = true ↔
    isUpper c = true ∧ (isLower p = true ∨ isDigit p = true ∨ isUpper p = true ∧ smallFollows rest = true) := by
  simp [startsWord, or_assoc]

theorem smallFollows_apart (cs : List Char) : ∀ before, smallFollows (snakeFrom before true true cs) = false := by
  induction cs with
  | nil => intro before; rfl
  | cons c rest ih =>
    intro before
    rw [snakeFrom]
    split_ifs with hword hapart
    · exact isLower_underscore
    · simp at hapart
    · exact ih _

theorem smallFollows_snakeFrom {c : Char} {rest : List Char} (h : smallFollows rest = false) :
    smallFollows (snakeFrom (some c) true false rest) = sinks c rest := by
  cases rest with
  | nil => rfl
  | cons n rest =>
    rw [smallFollows] at h
    rw [snakeFrom, sinks]
    split_ifs with hword hstarts
    · have hstarts : startsWord (some c) n rest = true := by simpa using hstarts
      rw [hstarts, smallFollows, isLower_underscore]
      simp
    · have hstarts : startsWord (some c) n rest = false := by simpa using hstarts
      rw [hstarts, hword, smallFollows]
      rcases lower_or_isLower_of_isWordChar hword with heq | hlower
      · simpa [heq] using h
      · have hne : lower n ≠ n := by
          intro heq
          rw [heq] at hlower
          exact absurd hlower (Bool.eq_false_iff.mp h)
        simp [hlower, hne]
    · simp [smallFollows_apart, hword]

theorem joined_lower_iff {p c : Char} {rest : List Char} (hp : isWordChar p = true) (hc : isWordChar c = true)
    (h : Joined p c rest) :
    Joined (lower p) (lower c) (snakeFrom (some c) true false rest) ↔ ¬ Resurfaces p c rest := by
  rw [Joined, ← Bool.not_eq_true, startsWord_iff, not_and] at h
  rw [Joined, ← Bool.not_eq_true, startsWord_iff, isUpper_lower hc, isUpper_lower hp, not_iff_not, Resurfaces]
  by_cases hcapital : isUpper c = true ∧ lower c = c
  · have hinside := h hcapital.1
    rcases lower_or_isLower_of_isWordChar hp with heq | hlower
    · -- the letter in front stays as it is, so the one behind decides
      have hnext : isUpper p = true → smallFollows (snakeFrom (some c) true false rest) = sinks c rest := by
        intro hupper
        exact smallFollows_snakeFrom (by simp_all)
      grind
    · have hne : lower p ≠ p := by
        intro heq
        exact hinside (.inl (heq ▸ hlower))
      grind
  · grind

theorem not_resurfaces_of_startsWord {p c : Char} {rest : List Char} (h : startsWord (some p) c rest = true) :
    ¬ Resurfaces p c rest := by
  rintro ⟨-, -, -, hchange⟩
  obtain ⟨-, hp | hp | hp⟩ := startsWord_iff.mp h
  · have hsteady := lower_of_isLower hp
    have hupper := isUpper_of_isLower hp
    grind
  · have hsteady := lower_of_isDigit hp
    have hupper := isUpper_of_isDigit hp
    grind
  · grind

theorem not_resurfaces_of_apart {p c : Char} {rest : List Char} (h : isWordChar p = false ∨ isWordChar c = false) :
    ¬ Resurfaces p c rest := by
  rintro ⟨hp, hc, -, -⟩
  rw [hp, isWordChar_of_isUpper hc] at h
  simp at h

theorem throughout_joined_apart {d c : Char} {rest : List Char} :
    Throughout Joined (d :: '_' :: c :: rest) ↔ Throughout Joined (c :: rest) := by
  simp [throughout_cons, joined_underscore_left, joined_underscore_right]

def Sunk (cs : List Char) : Prop := Throughout (fun p c rest => ¬ Resurfaces p c rest) cs

theorem throughout_snakeFrom (cs : List Char) : ∀ p d,
    (isWordChar p = true → (Throughout Joined (lower p :: snakeFrom (some p) true false cs) ↔ Sunk (p :: cs))) ∧
    (isWordChar p = false → (Throughout Joined (d :: snakeFrom (some p) true true cs) ↔ Sunk (p :: cs))) := by
  induction cs with
  | nil => intro p d; simp [snakeFrom, Sunk, throughout_singleton]
  | cons c rest ih =>
    intro p d
    have hcons : Sunk (p :: c :: rest) ↔ ¬ Resurfaces p c rest ∧ Sunk (c :: rest) := throughout_cons
    rw [hcons]
    by_cases hc : isWordChar c = true
    · rw [← (ih c d).1 hc]
      refine ⟨fun hp => ?_, fun hp => ?_⟩
      · by_cases hstarts : startsWord (some p) c rest = true
        · simp [snakeFrom, hc, hstarts, throughout_joined_apart, not_resurfaces_of_startsWord hstarts]
        · have hjoined : Joined p c rest := Bool.eq_false_iff.mpr hstarts
          simp [snakeFrom, hc, hstarts, throughout_cons, joined_lower_iff hp hc hjoined]
      · simp [snakeFrom, hc, throughout_joined_apart, not_resurfaces_of_apart (.inl hp)]
    · have hc : isWordChar c = false := Bool.eq_false_iff.mpr hc
      refine ⟨fun hp => ?_, fun hp => ?_⟩
      · rw [← (ih c (lower p)).2 hc]
        simp [snakeFrom, hc, not_resurfaces_of_apart (.inr hc)]
      · rw [← (ih c d).2 hc]
        simp [snakeFrom, hc, not_resurfaces_of_apart (.inr hc)]

theorem throughout_snakeChars (cs : List Char) : Throughout Joined (snakeChars cs) ↔ Sunk cs := by
  -- what comes before the first letter or digit leaves no trace
  have hstart : ∀ before, Throughout Joined (snakeFrom before false false cs) ↔ Sunk cs := by
    induction cs with
    | nil => intro before; simp [snakeFrom, Sunk, throughout_nil]
    | cons c rest ih =>
      intro before
      by_cases hc : isWordChar c = true
      · rw [← (throughout_snakeFrom rest c c).1 hc]
        simp [snakeFrom, hc]
      · have hc : isWordChar c = false := Bool.eq_false_iff.mpr hc
        have hcons : Sunk (c :: rest) ↔ Sunk rest := by
          cases rest with
          | nil => simp [Sunk, throughout_nil, throughout_singleton]
          | cons d rest => simp [Sunk, throughout_cons, not_resurfaces_of_apart (.inl hc)]
        rw [hcons, ← ih (some c)]
        simp [snakeFrom, hc]
  exact hstart none

theorem snakeChars_snakeChars_iff (cs : List Char) : snakeChars (snakeChars cs) = snakeChars cs ↔ Sunk cs := by
  have hkept : snakeChars (snakeChars cs) = snakeChars cs ↔ Throughout Joined (snakeChars cs) :=
    snakeChars_eq_self_iff (converted_snakeFrom none false false cs) (snakeFrom_head? cs none false)
  rw [hkept, throughout_snakeChars]

theorem runes_snakeCase (name : Text) : Text.runes (snakeCase name) = snakeChars (Text.runes name) :=
  Text.runes_ofChars _

theorem snakeCase_snakeCase_iff (name : Text) :
    snakeCase (snakeCase name) = snakeCase name ↔ Sunk (Text.runes name) := by
  rw [← snakeChars_snakeChars_iff]
  constructor
  · intro h
    have hrunes := congrArg Text.runes h
    rwa [runes_snakeCase, runes_snakeCase] at hrunes
  · intro h
    rw [snakeCase, runes_snakeCase, h]
    rfl

theorem not_resurfaces_of_steady {p c : Char} {rest : List Char} (hp : isWordChar p = true → lower p = p)
    (hrest : ∀ n ∈ rest, isWordChar n = true → lower n = n) : ¬ Resurfaces p c rest := by
  rintro ⟨hword, -, -, ⟨hne, -⟩ | ⟨-, -, -, hsinks⟩⟩
  · exact hne (hp hword)
  · cases rest with
    | nil => cases hsinks
    | cons n rest =>
      have hn := hrest n List.mem_cons_self
      simp only [sinks, Bool.and_eq_true, bne_iff_ne] at hsinks
      exact hsinks.1.2 (hn hsinks.1.1)

/-- A name is converted for good by one conversion exactly if no capital without a small form stands inside a word where
it seems to start one in the converted name. So it is if every capital of the name has a small form. Two conversions are
always enough. -/
theorem snakeCase_twice (name : Text) :
    (snakeCase (snakeCase name) = snakeCase name ↔
      ∀ lead p c rest, Text.runes name = lead ++ p :: c :: rest → ¬ Resurfaces p c rest) ∧
    ((∀ c ∈ Text.runes name, isUpper c = true → lower c ≠ c) → snakeCase (snakeCase name) = snakeCase name) ∧
    snakeCase (snakeCase (snakeCase name)) = snakeCase (snakeCase name) := by
  refine ⟨snakeCase_snakeCase_iff name, fun h => ?_, ?_⟩
  · rw [snakeCase_snakeCase_iff]
    rintro lead p c rest heq ⟨-, hupper, hsteady, -⟩
    exact h c (by simp [heq]) hupper hsteady
  · rw [snakeCase_snakeCase_iff, runes_snakeCase]
    intro lead p c rest heq
    have hsteady : ∀ d ∈ snakeChars (Text.runes name), isWordChar d = true → lower d = d := by
      intro d hd hword
      have hconverted := (converted_snakeFrom none false false (Text.runes name)).steady d hd
      exact (hconverted.resolve_left (ne_underscore_of_isWordChar hword)).2
    rw [heq] at hsteady
    exact not_resurfaces_of_steady (hsteady p (by simp)) fun n hn => hsteady n (by simp [hn])

/-- The bold `A` of mathematics is a capital without a small form. It stands inside a word behind a plain `A`, and starts
one behind the small form of that. -/
theorem snakeCase_twice_bold :
    snakeCase (Text.ofString "A𝐀") = "a𝐀" ∧ snakeCase (Text.ofString "a𝐀") = "a_𝐀" ∧
      snakeCase (snakeCase (Text.ofString "A𝐀")) ≠ snakeCase (Text.ofString "A𝐀") := by
  decide +kernel

example : Resurfaces 'A' '𝐀' [] ∧ ¬ Resurfaces 'A' 'B' [] ∧ ¬ Resurfaces 'A' '𝐀' ['b'] := by decide +kernel

end RpcBindings.Naming
