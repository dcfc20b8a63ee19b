import RpcBindings.Check.Metadata
import RpcBindings.Proofs.Glyphs

/-!
# Lines that count

Which lines of a file count in a comparison is said here of the text alone. It is cut at its line feeds, each line loses
one carriage return at its end, and a line with the mark of metadata behind white space is left out. These are the lines
that a check compares.
-/

namespace RpcBindings.Text

/-! ## Trimming in front of a mark -/

def asciiGlyphs (t : Text) : List Glyph := t.map fun b => .char (Char.ofNat b.toNat)

theorem glyphs_append_of_ascii {t : Text} (h : ∀ b ∈ t, b < 0x80) (rest : Text) :
    glyphs (t ++ rest) = asciiGlyphs t ++ glyphs rest := by
  induction t with
  | nil => rfl
  | cons b t ih =>
    have hb : b < 0x80 := h b List.mem_cons_self
    have hvalid : b.toNat.isValidChar := .inl (Nat.lt_trans b.toNat_lt (by decide))
    have hchar : charAt? b (t ++ rest) = some (Char.ofNat b.toNat, 0) := by
      simp [charAt?, leadByte?, hb, continuation, hvalid]
    rw [List.cons_append, glyphs, glyphsAfter, hchar]
    simp only
    rw [glyphsAfter_eq, ← glyphs, ih fun b' hb' => h b' (List.mem_cons_of_mem b hb')]
    rfl

theorem trimGlyphs_append {lead : List Glyph} (hne : lead ≠ []) (hstart : lead.dropWhile glyphIsBlank = lead)
    (hend : lead.reverse.dropWhile glyphIsBlank = lead.reverse) (gs : List Glyph) :
    ∃ rest, trimGlyphs (lead ++ gs) = lead ++ rest := by
  have hleft : (lead ++ gs).dropWhile glyphIsBlank = lead ++ gs := by
    rw [List.dropWhile_append, hstart, if_neg (by simpa using hne)]
  rw [trimGlyphs, hleft, List.reverse_append, List.dropWhile_append]
  split
  next => exact ⟨[], by rw [hend, List.reverse_reverse, List.append_nil]⟩
  next => exact ⟨(gs.reverse.dropWhile glyphIsBlank).reverse, by rw [List.reverse_append, List.reverse_reverse]⟩

theorem trim_ofChars_append {blanks : List Char} (h : ∀ c ∈ blanks, Alphabet.isBlank c = true) (t : Text) :
    trim (ofChars blanks ++ t) = trim t := by
  have hglyphs : glyphs (ofChars blanks ++ t) = blanks.map .char ++ glyphs t := by
    induction blanks with
    | nil => rfl
    | cons c cs ih =>
      rw [ofChars, List.flatMap_cons, ← ofChars, List.append_assoc, glyphs_ofChar_append,
        ih fun c' hc' => h c' (List.mem_cons_of_mem c hc')]
      rfl
  have hblank : ∀ g ∈ blanks.map Glyph.char, glyphIsBlank g = true := List.forall_mem_map.mpr h
  rw [trim, hglyphs, trimGlyphs, List.dropWhile_append_of_pos hblank]
  rfl

theorem exists_trim_between (t : Text) :
    ∃ blanks back, (∀ c ∈ blanks, Alphabet.isBlank c = true) ∧ t = ofChars blanks ++ (trim t ++ back) := by
  have hchars : ∀ {gs : List Glyph}, (∀ g ∈ gs, glyphIsBlank g = true) →
      ∃ cs, (∀ c ∈ cs, Alphabet.isBlank c = true) ∧ ofGlyphs gs = ofChars cs := by
    intro gs h
    induction gs with
    | nil => exact ⟨[], by simp, rfl⟩
    | cons g gs ih =>
      obtain ⟨cs, hcs, htext⟩ := ih fun g' hg' => h g' (List.mem_cons_of_mem g hg')
      cases g with
      | stray b => exact absurd (h _ List.mem_cons_self) Bool.false_ne_true
      | char c =>
        refine ⟨c :: cs, List.forall_mem_cons.mpr ⟨h _ List.mem_cons_self, hcs⟩, ?_⟩
        rw [ofGlyphs, List.flatMap_cons, ← ofGlyphs, htext]
        rfl
  obtain ⟨blanks, hblanks, hfront⟩ := hchars fun g (hg : g ∈ (glyphs t).takeWhile glyphIsBlank) => List.mem_takeWhile_imp hg
  obtain ⟨back, hparts⟩ := exists_trimGlyphs_between (glyphs t)
  refine ⟨blanks, ofGlyphs back, hblanks, ?_⟩
  calc t = ofGlyphs ((glyphs t).takeWhile glyphIsBlank ++ (trimGlyphs (glyphs t) ++ back)) := by
        rw [← hparts, ofGlyphs_glyphs]
    _ = ofChars blanks ++ (trim t ++ ofGlyphs back) := by
        rw [ofGlyphs, List.flatMap_append, List.flatMap_append, ← hfront]
        rfl

end RpcBindings.Text

namespace RpcBindings.Check

/-! ## What counts -/

/-- A text cut at its line feeds. What follows the last one is a line if there is anything. -/
inductive LinesOf : Text → List Text → Prop where
  | none : LinesOf [] []
  | last {line : Text} : line ≠ [] → 10 ∉ line → LinesOf line [line]
  | cons {line rest : Text} {lines : List Text} : 10 ∉ line → LinesOf rest lines → LinesOf (line ++ 10 :: rest) (line :: lines)

/-- A line without a carriage return at its end. Of several only one goes. -/
def Stripped (line bare : Text) : Prop := line = bare ++ [13] ∨ line = bare ∧ ∀ front, line ≠ front ++ [13]

def IsMetadataLine (line : Text) : Prop :=
  ∃ blanks rest, (∀ c ∈ blanks, Alphabet.isBlank c = true) ∧ line = Text.ofChars blanks ++ ("// Generator version:" ++ rest)

inductive Counted : List Text → List Text → Prop where
  | nil : Counted [] []
  | keep {line bare : Text} {lines counted : List Text} : Stripped line bare → ¬ IsMetadataLine bare →
      Counted lines counted → Counted (line :: lines) (bare :: counted)
  | skip {line bare : Text} {lines counted : List Text} : Stripped line bare → IsMetadataLine bare →
      Counted lines counted → Counted (line :: lines) counted

def Counts (content : Text) (counted : List Text) : Prop := ∃ lines, LinesOf content lines ∧ Counted lines counted

def Differ (found want : Text) : Prop :=
  ∃ counted counted', Counts found counted ∧ Counts want counted' ∧ counted ≠ counted'

/-! ## What is compared -/

theorem isMetadata_append (rest : Text) : isMetadata (metadataMark ++ rest) = true := by
  have hmark : Text.ofGlyphs (Text.asciiGlyphs metadataMark) = metadataMark := by decide
  have hbytes : (metadataMark.all fun b => decide (b < 0x80)) = true := by decide
  have hascii : ∀ b ∈ metadataMark, b < 0x80 := fun b hb => of_decide_eq_true (List.all_eq_true.mp hbytes b hb)
  obtain ⟨gs, hgs⟩ := @Text.trimGlyphs_append (Text.asciiGlyphs metadataMark) (by decide) (by decide) (by decide)
    (Text.glyphs rest)
  rw [isMetadata, Text.trim, Text.glyphs_append_of_ascii hascii, hgs, Text.startsWith, List.isPrefixOf_iff_prefix,
    Text.ofGlyphs, List.flatMap_append, ← Text.ofGlyphs, hmark]
  exact List.prefix_append _ _

theorem isMetadata_iff {line : Text} : isMetadata line = true ↔ IsMetadataLine line := by
  constructor
  · intro h
    obtain ⟨rest, hrest⟩ := List.isPrefixOf_iff_prefix.mp h
    obtain ⟨blanks, back, hblanks, hline⟩ := Text.exists_trim_between line
    refine ⟨blanks, rest ++ back, hblanks, ?_⟩
    rw [← hrest, List.append_assoc] at hline
    exact hline
  · rintro ⟨blanks, rest, hblanks, rfl⟩
    rw [isMetadata, Text.trim_ofChars_append hblanks]
    exact isMetadata_append rest

theorem stripped_iff {line bare : Text} : Stripped line bare ↔ bare = Text.dropReturn line := by
  unfold Text.dropReturn
  split
  next hlast =>
    obtain ⟨front, rfl⟩ := List.getLast?_eq_some_iff.mp hlast
    simp [Stripped, eq_comm]
  next hlast =>
    have hnone : ∀ front, line ≠ front ++ [13] := fun front heq => hlast (by rw [heq, List.getLast?_concat])
    simp [Stripped, hnone, eq_comm]

theorem LinesOf.eq_lines {t : Text} {lines : List Text} (h : LinesOf t lines) : lines = Text.lines t := by
  induction h with
  | none => rfl
  | @last line hne hfeed =>
    rw [Text.lines, Text.splitOn_of_not_mem hfeed]
    simp [hne]
  | cons hfeed _ ih => rw [Text.lines_append, Text.splitOn_of_not_mem hfeed, ← ih, List.singleton_append]

theorem exists_linesOf (t : Text) : ∃ lines, LinesOf t lines := by
  induction t with
  | nil => exact ⟨[], .none⟩
  | cons b t ih =>
    obtain ⟨lines, h⟩ := ih
    by_cases hb : b = 10
    · subst hb
      exact ⟨[] :: lines, @LinesOf.cons [] _ _ List.not_mem_nil h⟩
    · -- a byte that is no line feed goes to the first line
      have hfeed {line : Text} (hline : 10 ∉ line) : 10 ∉ b :: line := List.not_mem_cons_of_ne_of_not_mem (Ne.symm hb) hline
      cases h with
      | none => exact ⟨_, .last (List.cons_ne_nil b []) (hfeed List.not_mem_nil)⟩
      | last _ hline => exact ⟨_, .last (List.cons_ne_nil b _) (hfeed hline)⟩
      | cons hline hrest => exact ⟨_, @LinesOf.cons (b :: _) _ _ (hfeed hline) hrest⟩

theorem counted_iff {lines counted : List Text} :
    Counted lines counted ↔ counted = (lines.map Text.dropReturn).filter fun line => !isMetadata line := by
  induction lines generalizing counted with
  | nil =>
    constructor
    · rintro ⟨⟩
      rfl
    · rintro rfl
      exact .nil
  | cons line lines ih =>
    rw [List.map_cons, List.filter_cons]
    constructor
    · intro h
      cases h with
      | keep hbare hmark hrest =>
        rw [← stripped_iff.mp hbare, if_pos (by simpa [← isMetadata_iff] using hmark), ih.mp hrest]
      | skip hbare hmark hrest =>
        rw [← stripped_iff.mp hbare, if_neg (by simpa [← isMetadata_iff] using hmark), ih.mp hrest]
    · rintro rfl
      have hbare : Stripped line (Text.dropReturn line) := stripped_iff.mpr rfl
      split
      next hmark => exact .keep hbare (by simpa [← isMetadata_iff] using hmark) (ih.mpr rfl)
      next hmark => exact .skip hbare (by simpa [← isMetadata_iff] using hmark) (ih.mpr rfl)

theorem counts_iff {content : Text} {counted : List Text} : Counts content counted ↔ counted = significantLines content := by
  rw [significantLines, ← counted_iff]
  constructor
  · rintro ⟨lines, hlines, hcounted⟩
    rwa [← hlines.eq_lines]
  · intro h
    obtain ⟨lines, hlines⟩ := exists_linesOf content
    exact ⟨lines, hlines, by rwa [hlines.eq_lines]⟩

theorem differ_iff {found want : Text} : Differ found want ↔ significantLines found ≠ significantLines want := by
  constructor
  · rintro ⟨counted, counted', hfound, hwant, hne⟩
    rwa [← counts_iff.mp hfound, ← counts_iff.mp hwant]
  · exact fun hne => ⟨_, _, counts_iff.mpr rfl, counts_iff.mpr rfl, hne⟩

end RpcBindings.Check
