import RpcBindings.Proofs.Glyphs
import RpcBindings.Template.Filter

/-!
# One line as a normal form

A part of a text that begins and ends between two glyphs is read as the glyphs that were read there. Trimming therefore
leaves a text that begins and ends with no blank, and so does joining such texts by blanks. Documentation in one line is
such a text without a line break, which is what makes it a normal form, and it can be taken from both sides of a line
break on their own.
-/

namespace RpcBindings

namespace Text

/-! ## Reading a part of a text -/

theorem continuation_append {value k n : Nat} {t : Text} (h : continuation value k t = some n) (rest : Text) :
    continuation value k (t ++ rest) = some n := by
  induction k generalizing value t with
  | zero => exact h
  | succ k ih =>
    obtain ⟨b, tail, rfl, hlow, hhigh, htail⟩ := continuation_succ h
    have hb : 0x80 ≤ b ∧ b < 0xC0 := ⟨UInt8.le_iff_toNat_le.mpr hlow, UInt8.lt_iff_toNat_lt.mpr hhigh⟩
    rw [List.cons_append, continuation, if_pos hb]
    exact ih htail

theorem charAt?_append {a : UInt8} {t : Text} {c : Char} {k : Nat} (h : charAt? a t = some (c, k)) (rest : Text) :
    charAt? a (t ++ rest) = some (c, k) := by
  unfold charAt? at h ⊢
  split at h
  next => cases h
  next bits k' least hlead =>
    split at h
    next => cases h
    next n hn =>
      simp only [continuation_append hn rest]
      exact h

theorem glyphsAfter_nil_eq (skip : Nat) (t : Text) : glyphsAfter [] skip t = glyphs (t.drop skip) := by
  induction t generalizing skip with
  | nil => cases skip <;> rfl
  | cons b t ih =>
    cases skip with
    | zero => rfl
    | succ skip => exact ih skip

theorem glyphs_of_char {a : UInt8} {t : Text} {c : Char} {k : Nat} (h : charAt? a t = some (c, k)) :
    glyphs (a :: t) = .char c :: glyphs (t.drop k) := by
  rw [glyphs, glyphsAfter, h]
  simp only
  rw [glyphsAfter_eq, glyphsAfter_nil_eq]
  rfl

theorem glyphs_of_stray {a : UInt8} {t : Text} (h : charAt? a t = none) : glyphs (a :: t) = .stray a :: glyphs t := by
  rw [glyphs, glyphsAfter, h]
  simp only
  rw [glyphsAfter_eq]
  rfl

theorem glyphs_tail {t : Text} {g : Glyph} {gs : List Glyph} (h : glyphs t = g :: gs) : glyphs (ofGlyphs gs) = gs := by
  cases t with
  | nil => cases h
  | cons a t =>
    cases hchar : charAt? a t with
    | none =>
      rw [glyphs_of_stray hchar, List.cons.injEq] at h
      rw [← h.2, ofGlyphs_glyphs]
    | some p =>
      rw [glyphs_of_char hchar, List.cons.injEq] at h
      rw [← h.2, ofGlyphs_glyphs]

theorem glyphs_back {t : Text} {front back : List Glyph} (h : glyphs t = front ++ back) :
    glyphs (ofGlyphs back) = back := by
  induction front generalizing t with
  | nil => rw [← List.nil_append back, ← h, ofGlyphs_glyphs]
  | cons g front ih => exact ih (glyphs_tail h)

theorem glyphs_front {t : Text} {front back : List Glyph} (h : glyphs t = front ++ back) :
    glyphs (ofGlyphs front) = front := by
  induction front generalizing t with
  | nil => rfl
  | cons g front ih =>
    have hfront := ih (glyphs_tail h)
    cases t with
    | nil => cases h
    | cons a t =>
      cases hchar : charAt? a t with
      | some p =>
        rw [glyphs_of_char hchar, List.cons_append, List.cons.injEq] at h
        obtain ⟨rfl, -⟩ := h
        rw [ofGlyphs, List.flatMap_cons, ← ofGlyphs]
        exact (glyphs_ofChar_append p.1 _).trans (congrArg _ hfront)
      | none =>
        rw [glyphs_of_stray hchar, List.cons_append, List.cons.injEq] at h
        obtain ⟨rfl, hrest⟩ := h
        have htext : t = ofGlyphs front ++ ofGlyphs back := by
          rw [← ofGlyphs_glyphs t, hrest, ofGlyphs, List.flatMap_append]
          rfl
        -- with less behind it the byte begins a character even less
        have hstray : charAt? a (ofGlyphs front) = none := by
          cases hfirst : charAt? a (ofGlyphs front) with
          | none => rfl
          | some p =>
            rw [htext, charAt?_append hfirst] at hchar
            cases hchar
        exact (glyphs_of_stray hstray).trans (congrArg _ hfront)

/-! ## Blank edges -/

def startsBlank (t : Text) : Bool := (glyphs t).head?.any glyphIsBlank

def endsBlank (t : Text) : Bool := (glyphs t).getLast?.any glyphIsBlank

theorem head?_dropWhile_blank (gs : List Glyph) : (gs.dropWhile glyphIsBlank).head?.any glyphIsBlank = false := by
  have hhead := List.head?_dropWhile_not glyphIsBlank gs
  cases h : (gs.dropWhile glyphIsBlank).head? with
  | none => rfl
  | some g => simpa [h] using hhead

theorem glyphs_trim (t : Text) : glyphs (trim t) = trimGlyphs (glyphs t) := by
  obtain ⟨back, hparts⟩ := exists_trimGlyphs_between (glyphs t)
  exact glyphs_front (glyphs_back hparts)

theorem startsBlank_trim (t : Text) : startsBlank (trim t) = false := by
  obtain ⟨back, hback⟩ := List.dropWhile_suffix glyphIsBlank (l := ((glyphs t).dropWhile glyphIsBlank).reverse)
  rw [startsBlank, glyphs_trim, trimGlyphs, List.head?_reverse]
  cases hkept : ((glyphs t).dropWhile glyphIsBlank).reverse.dropWhile glyphIsBlank with
  | nil => rfl
  | cons g gs =>
    have hlast := congrArg List.getLast? hback
    rw [hkept, List.getLast?_append_of_ne_nil _ (List.cons_ne_nil g gs), List.getLast?_reverse] at hlast
    rw [hlast]
    exact head?_dropWhile_blank (glyphs t)

theorem endsBlank_trim (t : Text) : endsBlank (trim t) = false := by
  rw [endsBlank, glyphs_trim, trimGlyphs, List.getLast?_reverse]
  exact head?_dropWhile_blank _

theorem dropWhile_blank_of_head? {gs : List Glyph} (h : gs.head?.any glyphIsBlank = false) :
    gs.dropWhile glyphIsBlank = gs := by
  cases gs with
  | nil => rfl
  | cons g gs =>
    have hg : glyphIsBlank g = false := h
    simp [hg]

theorem trim_eq_self {t : Text} (hstart : startsBlank t = false) (hend : endsBlank t = false) : trim t = t := by
  have hback : (glyphs t).reverse.head?.any glyphIsBlank = false := by rwa [List.head?_reverse]
  rw [trim, trimGlyphs, dropWhile_blank_of_head? hstart, dropWhile_blank_of_head? hback, List.reverse_reverse,
    ofGlyphs_glyphs]

structure Solid (t : Text) : Prop where
  ne_nil : t ≠ []
  start : startsBlank t = false
  finish : endsBlank t = false

theorem solid_trim {t : Text} (h : trim t ≠ []) : Solid (trim t) := ⟨h, startsBlank_trim t, endsBlank_trim t⟩

theorem glyphs_ne_nil {t : Text} (h : t ≠ []) : glyphs t ≠ [] := by
  intro hnone
  apply h
  rw [← ofGlyphs_glyphs t, hnone]
  rfl

theorem Solid.append {t u : Text} (ht : Solid t) (hu : Solid u) : Solid (t ++ " " ++ u) := by
  have hglyphs : glyphs (t ++ " " ++ u) = glyphs t ++ .char ' ' :: glyphs u :=
    glyphsAfter_append_ofChar ' ' u t 0 (Nat.zero_le _)
  obtain ⟨g, gs, hg⟩ := List.exists_cons_of_ne_nil (glyphs_ne_nil ht.ne_nil)
  refine ⟨?_, ?_, ?_⟩
  · simp [ht.ne_nil]
  · have hstart := ht.start
    rw [startsBlank, hg] at hstart
    rw [startsBlank, hglyphs, hg]
    exact hstart
  · rw [endsBlank, hglyphs, List.getLast?_append_of_ne_nil _ (List.cons_ne_nil _ _), List.getLast?_cons_of_ne_nil
      (glyphs_ne_nil hu.ne_nil)]
    exact hu.finish

theorem Solid.join {pieces : List Text} (hne : pieces ≠ []) (h : ∀ piece ∈ pieces, Solid piece) :
    Solid (Text.join " " pieces) := by
  induction pieces with
  | nil => exact absurd rfl hne
  | cons piece rest ih =>
    have hpiece := h piece List.mem_cons_self
    cases rest with
    | nil => exact hpiece
    | cons next rest => exact hpiece.append (ih (List.cons_ne_nil _ _) fun u hu => h u (List.mem_cons_of_mem _ hu))

end Text

namespace Naming

open Text

def filledLines (doc : Text) : List Text := ((splitWhere isLineBreak doc).map trim).filter fun line => !line.isEmpty

theorem oneLine_eq_join (doc : Text) : oneLine doc = join " " (filledLines doc) := rfl

theorem solid_of_mem_filledLines {doc line : Text} (h : line ∈ filledLines doc) : Solid line := by
  obtain ⟨hline, hfilled⟩ := List.mem_filter.mp h
  obtain ⟨piece, -, rfl⟩ := List.mem_map.mp hline
  exact solid_trim (by simpa using hfilled)

theorem filledLines_append {b : UInt8} (hb : isLineBreak b = true) (s t : Text) :
    filledLines (s ++ b :: t) = filledLines s ++ filledLines t := by
  rw [filledLines, splitWhere_append hb, List.map_append, List.filter_append]
  rfl

theorem filledLines_of_unbroken {line : Text} (h : ∀ b ∈ line, isLineBreak b = false) :
    filledLines line = if trim line = [] then [] else [trim line] := by
  rw [filledLines, splitWhere_of_none h]
  by_cases hempty : trim line = [] <;> simp [hempty]

theorem oneLine_eq_nil_iff {doc : Text} : oneLine doc = [] ↔ filledLines doc = [] := by
  constructor
  · intro h
    by_contra hne
    exact (Solid.join hne fun line hline => solid_of_mem_filledLines hline).ne_nil h
  · intro h
    rw [oneLine_eq_join, h]
    rfl

theorem solid_oneLine {doc : Text} (h : oneLine doc ≠ []) : Solid (oneLine doc) :=
  Solid.join (mt oneLine_eq_nil_iff.mpr h) fun _ hline => solid_of_mem_filledLines hline

theorem not_isLineBreak_of_mem_oneLine {doc : Text} {b : UInt8} (h : b ∈ oneLine doc) : isLineBreak b = false := by
  rcases of_mem_oneLine h with rfl | ⟨-, hb⟩
  · rfl
  · exact hb

theorem oneLine_of_unbroken {line : Text} (h : ∀ b ∈ line, isLineBreak b = false) : oneLine line = trim line := by
  rw [oneLine_eq_join, filledLines_of_unbroken h]
  split
  next hempty => exact hempty.symm
  next => rfl

theorem edges_oneLine (doc : Text) : startsBlank (oneLine doc) = false ∧ endsBlank (oneLine doc) = false := by
  by_cases h : oneLine doc = []
  · rw [h]
    exact ⟨rfl, rfl⟩
  · exact ⟨(solid_oneLine h).start, (solid_oneLine h).finish⟩

theorem trim_oneLine (doc : Text) : trim (oneLine doc) = oneLine doc :=
  trim_eq_self (edges_oneLine doc).1 (edges_oneLine doc).2

theorem oneLine_oneLine (doc : Text) : oneLine (oneLine doc) = oneLine doc :=
  (oneLine_of_unbroken fun _ hb => not_isLineBreak_of_mem_oneLine hb).trans (trim_oneLine doc)

theorem oneLine_append {b : UInt8} (hb : isLineBreak b = true) (s t : Text) :
    oneLine (s ++ [b] ++ t) =
      if oneLine s = [] then oneLine t else if oneLine t = [] then oneLine s else oneLine s ++ " " ++ oneLine t := by
  simp only [oneLine_eq_nil_iff]
  rw [oneLine_eq_join, List.append_assoc, List.singleton_append, filledLines_append hb]
  split
  next hs => rw [hs, List.nil_append, oneLine_eq_join]
  next hs =>
    split
    next ht => rw [ht, List.append_nil, oneLine_eq_join]
    next ht => exact join_append " " hs ht

theorem callFunction?_one_line (version t : Text) :
    Template.callFunction? version "one_line" [.text t] = some (.text (oneLine t)) := rfl

/-- Documentation in one line holds no line break and has no blank at its ends, so that making it one line again, as a
template does, changes nothing. The two sides of a line break are made one line on their own, and a text without line
breaks is trimmed: this says what the line is for every documentation. -/
theorem oneLine_canonical (s : Text) :
    (10 ∉ oneLine s ∧ 13 ∉ oneLine s) ∧
    (startsBlank (oneLine s) = false ∧ endsBlank (oneLine s) = false) ∧
    oneLine (oneLine s) = oneLine s ∧
    (∀ version, Template.callFunction? version "one_line" [.text (oneLine s)] = some (.text (oneLine s))) ∧
    (∀ t, oneLine (s ++ "\n" ++ t) =
      if oneLine s = [] then oneLine t else if oneLine t = [] then oneLine s else oneLine s ++ " " ++ oneLine t) ∧
    (∀ t, oneLine (s ++ "\r" ++ t) = oneLine (s ++ "\n" ++ t)) ∧
    ((∀ b ∈ s, isLineBreak b = false) → oneLine s = trim s) := by
  have hbreak (b : UInt8) (hb : isLineBreak b = true) : b ∉ oneLine s := by
    intro hin
    rw [not_isLineBreak_of_mem_oneLine hin] at hb
    cases hb
  refine ⟨⟨hbreak 10 rfl, hbreak 13 rfl⟩, edges_oneLine s, oneLine_oneLine s, fun version => ?_,
    fun t => oneLine_append rfl s t, fun t => ?_, oneLine_of_unbroken⟩
  · rw [callFunction?_one_line, oneLine_oneLine]
  · exact (oneLine_append rfl s t).trans (oneLine_append rfl s t).symm

/-- A stray byte between blanks is no blank, even if it could begin one. -/
theorem oneLine_canonical_stray :
    (∀ b ∈ ([0xC2, 0xA0, 0xC2, 32] : Text), isLineBreak b = false) ∧ oneLine [0xC2, 0xA0, 0xC2, 32] = [0xC2] := by
  have hunbroken : ∀ b ∈ ([0xC2, 0xA0, 0xC2, 32] : Text), isLineBreak b = false := by
    simp [isLineBreak]
  obtain ⟨-, -, -, -, -, -, htrim⟩ := oneLine_canonical [0xC2, 0xA0, 0xC2, 32]
  exact ⟨hunbroken, (htrim hunbroken).trans (by decide)⟩

end Naming

end RpcBindings
