import RpcBindings.Format.Toml
import RpcBindings.Proofs.Arms
import RpcBindings.Toml.Document

/-!
# Written scalars are read back

A text is written as a literal string, or with escapes where it holds a quote or a control character. Either form is read
as the text that was written, if the text is UTF-8. Numbers of 64 bits and truth values are read back as well.
-/

namespace RpcBindings

/-! ## Characters and their bytes -/

namespace Text

theorem toNat_eq_of_mem_ofChar {c : Char} {b : UInt8} (hb : b ∈ ofChar c) (hlow : b.toNat < 128) : c.toNat = b.toNat := by
  have hval : c.val.toNat = c.toNat := rfl
  simp only [ofChar, String.utf8EncodeChar, hval] at hb
  split_ifs at hb <;> simp only [List.mem_cons, List.not_mem_nil, or_false, ← UInt8.toNat_inj, UInt8.toNat_ofNat'] at hb
  all_goals omega

theorem ofChar_of_lt {c : Char} (h : c.toNat < 128) : ofChar c = [UInt8.ofNat c.toNat] := by
  have hval : c.val.toNat = c.toNat := rfl
  rw [ofChar, String.utf8EncodeChar]
  simp only [hval]
  rw [if_pos (by omega)]

theorem ofChar_ofNat {b : UInt8} (h : b.toNat < 128) : ofChar (Char.ofNat b.toNat) = [b] := by
  have hcode : (Char.ofNat b.toNat).toNat = b.toNat := toNat_ofNat_of_isValidChar (.inl (by omega))
  rw [ofChar_of_lt (by omega), hcode, UInt8.ofNat_toNat]

theorem glyphs_ofChars_append (cs : List Char) (rest : Text) :
    glyphs (ofChars cs ++ rest) = cs.map Glyph.char ++ glyphs rest := by
  induction cs with
  | nil => rfl
  | cons c cs ih =>
    rw [ofChars, List.flatMap_cons, ← ofChars, List.append_assoc, glyphs_ofChar_append, ih, List.map_cons, List.cons_append]

theorem ofGlyphs_map_char (cs : List Char) : ofGlyphs (cs.map Glyph.char) = ofChars cs := by
  rw [ofGlyphs, List.flatMap_map]
  rfl

theorem glyphs_of_isUtf8 {t : Text} (h : isUtf8 t = true) : glyphs t = (runes t).map Glyph.char := by
  have hchar : ∀ g ∈ glyphs t, Glyph.char g.rune = g := by
    intro g hg
    have hg := List.all_eq_true.mp h g hg
    cases g with
    | char c => rfl
    | stray b => cases hg
  rw [runes, List.map_map]
  exact (List.map_id (glyphs t)).symm.trans (List.map_congr_left fun g hg => (hchar g hg).symm)

theorem ofChars_runes {t : Text} (h : isUtf8 t = true) : ofChars (runes t) = t := by
  rw [← ofGlyphs_map_char, ← glyphs_of_isUtf8 h, ofGlyphs_glyphs]

end Text

/-! ## Strings -/

namespace Toml

variable {e : Edition}

theorem basic_cons {b : UInt8} (hquote : b ≠ 34) (hback : b ≠ 92) (hline : b ≠ 10) (read rest : Text) :
    basic e read (b :: rest) = basic e (b :: read) rest := by
  rw [basic.eq_def]
  split
  all_goals simp_all

theorem basic_append {plain : Text} (h : ∀ b ∈ plain, b ≠ 34 ∧ b ≠ 92 ∧ b ≠ 10) (read rest : Text) :
    basic e read (plain ++ rest) = basic e (plain.reverse ++ read) rest := by
  induction plain generalizing read with
  | nil => rfl
  | cons b plain ih =>
    obtain ⟨hquote, hback, hline⟩ := h b List.mem_cons_self
    rw [List.cons_append, basic_cons hquote hback hline, ih fun x hx => h x (List.mem_cons_of_mem _ hx),
      List.reverse_cons, List.append_assoc, List.singleton_append]

theorem basic_short {letter b : UInt8} (hletter : letter ≠ 117 ∧ letter ≠ 85 ∧ letter ≠ 120)
    (h : escaped? letter = some b) (read rest : Text) :
    basic e read (92 :: letter :: rest) = basic e (b :: read) rest := by
  rw [basic.eq_def]
  split
  case h_7 hother heq => exact (hother letter rest (List.cons.inj heq).1.symm (List.cons.inj heq).2.symm).elim
  all_goals simp_all

theorem basic_unit {n : Nat} (hn : n < 128) (read rest : Text) :
    basic e read (92 :: 117 :: (Text.hex true 4 n ++ rest)) = basic e ((Text.ofChar (Char.ofNat n)).reverse ++ read) rest := by
  have hnumber : ∀ n < 128, hexNumber? (Text.hex true 4 n) = some n := by decide
  have hbytes : charBytes? n = some (Text.ofChar (Char.ofNat n)) := if_pos (.inl (by omega))
  obtain ⟨a, b, c, d, hdigits⟩ : ∃ a b c d, Text.hex true 4 n = [a, b, c, d] := ⟨_, _, _, _, rfl⟩
  have hread := hnumber n hn
  rw [hdigits] at hread ⊢
  rw [basic.eq_def]
  simp only [List.cons_append, List.nil_append, hread, Option.bind_some, hbytes]

theorem basic_tomlEscape (c : Char) (read rest : Text) :
    basic e read (Format.tomlEscape c ++ rest) = basic e ((Text.ofChar c).reverse ++ read) rest := by
  have hshort : ∀ (letter : UInt8) (n : Nat), letter ≠ 117 ∧ letter ≠ 85 ∧ letter ≠ 120 → c.toNat = n → n < 128 →
      escaped? letter = some (UInt8.ofNat n) →
      basic e read (92 :: letter :: rest) = basic e ((Text.ofChar c).reverse ++ read) rest := by
    intro letter n hletter hc hn hescaped
    rw [basic_short hletter hescaped, Text.ofChar_of_lt (hc ▸ hn), hc]
    rfl
  unfold Format.tomlEscape
  split
  next h => exact hshort 92 92 (by decide) h (by decide) rfl
  next h => exact hshort 34 34 (by decide) h (by decide) rfl
  next h => exact hshort 98 8 (by decide) h (by decide) rfl
  next h => exact hshort 116 9 (by decide) h (by decide) rfl
  next h => exact hshort 110 10 (by decide) h (by decide) rfl
  next h => exact hshort 102 12 (by decide) h (by decide) rfl
  next h => exact hshort 114 13 (by decide) h (by decide) rfl
  next hback hquote _ _ hline _ _ =>
    split
    next hcontrol =>
      have hunit := @basic_unit e c.toNat (by omega) read rest
      rwa [Char.ofNat_toNat] at hunit
    next =>
      refine basic_append (fun b hb => ⟨?_, ?_, ?_⟩) read rest
      · rintro rfl
        exact hquote (Text.toNat_eq_of_mem_ofChar hb (by decide))
      · rintro rfl
        exact hback (Text.toNat_eq_of_mem_ofChar hb (by decide))
      · rintro rfl
        exact hline (Text.toNat_eq_of_mem_ofChar hb (by decide))

theorem basic_escaped (cs : List Char) (read rest : Text) :
    basic e read (cs.flatMap Format.tomlEscape ++ 34 :: rest) = some (read.reverse ++ Text.ofChars cs, rest) := by
  induction cs generalizing read with
  | nil =>
    rw [List.flatMap_nil, List.nil_append, basic.eq_def]
    exact congrArg (fun t => some (t, rest)) (List.append_nil _).symm
  | cons c cs ih =>
    rw [List.flatMap_cons, List.append_assoc, basic_tomlEscape, ih, List.reverse_append, List.reverse_reverse,
      List.append_assoc]
    rfl

theorem head_tomlEscape (c : Char) : ∃ b rest, Format.tomlEscape c = b :: rest ∧ b ≠ 34 := by
  unfold Format.tomlEscape
  split
  case h_8 _ _ hquote _ _ _ _ _ =>
    split
    next => exact ⟨92, _, rfl, by decide⟩
    next =>
      obtain ⟨b, tail, hbytes, -⟩ := Text.charAt?_ofChar c []
      refine ⟨b, tail, hbytes, ?_⟩
      rintro rfl
      exact hquote (Text.toNat_eq_of_mem_ofChar (hbytes ▸ List.mem_cons_self) (by decide))
  all_goals exact ⟨92, _, rfl, by decide⟩

theorem string?_basic {b : UInt8} (hb : b ≠ 34) (rest : Text) : string? e (34 :: b :: rest) = basic e [] (b :: rest) := by
  rw [string?]
  intro more h
  exact hb (List.cons.inj h).1

theorem string?_literal {t rest : Text} (h : ∀ b ∈ t, b ≠ 39 ∧ b ≠ 10) (hrest : rest.head? ≠ some 39) :
    string? e (39 :: (t ++ 39 :: rest)) = some (t, rest) := by
  have htake : (t ++ 39 :: rest).takeWhile (fun b => b != 39 && b != 10) = t := by
    rw [List.takeWhile_append_of_pos fun b hb => by simp [h b hb], List.takeWhile_cons_of_neg (by decide), List.append_nil]
  have hliteral : literal (t ++ 39 :: rest) = some (t, rest) := by
    unfold literal
    simp only [htake, List.drop_left]
  rw [← hliteral, string?]
  intro more hmore
  cases t with
  | nil =>
    rw [List.nil_append, List.cons.injEq] at hmore
    exact hrest (by rw [hmore.2]; rfl)
  | cons b t => exact (h b List.mem_cons_self).1 (List.cons.inj hmore).1

/-- A text is read back from its string. -/
theorem string?_tomlString {t : Text} (h : Text.isUtf8 t = true) (rest : Text) :
    string? e (Format.tomlString t ++ 10 :: rest) = some (t, 10 :: rest) := by
  unfold Format.tomlString
  split
  next hescape =>
    have hquote : Text.ofString "\"" = [34] := by decide
    rw [Text.glyphs_of_isUtf8 h, List.flatMap_map, hquote]
    change string? e (34 :: ((Text.runes t).flatMap Format.tomlEscape) ++ [34] ++ 10 :: rest) = _
    rw [List.append_assoc, List.cons_append, List.singleton_append]
    cases hrunes : Text.runes t with
    | nil => simp [hrunes] at hescape
    | cons c cs =>
      -- the first byte behind the opening quote is no quote, so that the string is not one in triple quotes
      obtain ⟨b, tail, hhead, hb⟩ := head_tomlEscape c
      have hbody : (c :: cs).flatMap Format.tomlEscape ++ 34 :: 10 :: rest =
          b :: (tail ++ cs.flatMap Format.tomlEscape ++ 34 :: 10 :: rest) := by
        rw [List.flatMap_cons, hhead, List.cons_append, List.cons_append]
      rw [hbody, string?_basic hb, ← hbody, basic_escaped, List.reverse_nil, List.nil_append, ← hrunes, Text.ofChars_runes h]
  next hplain =>
    have hquote : Text.ofString "'" = [39] := by decide
    rw [hquote, List.append_assoc, List.append_assoc, List.singleton_append, List.singleton_append]
    refine string?_literal (fun b hb => ?_) (by simp)
    rw [← Text.ofChars_runes h] at hb
    obtain ⟨c, hc, hb⟩ := List.mem_flatMap.mp hb
    have hkeep : Format.needsEscape c = false := by
      rw [Bool.not_eq_true, List.any_eq_false] at hplain
      simpa using hplain c hc
    constructor
    · rintro rfl
      have hcode := Text.toNat_eq_of_mem_ofChar hb (by decide)
      obtain rfl : c = '\'' := Char.toNat_inj.mp hcode
      exact absurd hkeep (by decide)
    · rintro rfl
      have hcode := Text.toNat_eq_of_mem_ofChar hb (by decide)
      obtain rfl : c = '\n' := Char.toNat_inj.mp hcode
      exact absurd hkeep (by decide)

/-! ## Words -/

theorem ofNat_ne_nil (n : Nat) : Text.ofNat n ≠ [] := by simp [Text.ofNat]

theorem eq_zero_of_head? {n : Nat} (h : (Text.ofNat n).head? = some 48) : n = 0 := by
  induction n using Nat.strongRecOn with
  | ind n ih =>
    by_cases hsmall : n < 10
    · have hdigit : ∀ n < 10, (Text.ofNat n).head? = some 48 → n = 0 := by decide
      exact hdigit n hsmall h
    · have hsplit : Text.ofNat n = Text.ofNat (n / 10) ++ [(n % 10).digitChar.toNat.toUInt8] := by
        rw [Text.ofNat, Nat.toDigits_of_base_le (by decide) (by omega), List.map_append]
        rfl
      rw [hsplit, List.head?_append_of_ne_nil _ (ofNat_ne_nil _)] at h
      have hzero := ih (n / 10) (by omega) h
      omega

theorem plainDigits?_ofNat (n : Nat) : plainDigits? Text.isDigit (Text.ofNat n) = some (Text.ofNat n) := by
  have hline : (95 : UInt8) ∉ Text.ofNat n := fun h => absurd (Text.isDigit_of_mem_ofNat h) (by decide)
  have hdigits : (Text.ofNat n).all Text.isDigit = true :=
    List.all_eq_true.mpr fun b hb => Text.isDigit_of_mem_ofNat hb
  unfold plainDigits?
  simp [Text.splitOn_of_not_mem hline, hdigits, ofNat_ne_nil n]

theorem wholeDigits?_ofNat (n : Nat) : wholeDigits? (Text.ofNat n) = some (Text.ofNat n) := by
  unfold wholeDigits?
  rw [plainDigits?_ofNat]
  split
  next more hdigits =>
    have hzero := eq_zero_of_head? (n := n) (by rw [Option.some.inj hdigits]; rfl)
    rw [hzero] at hdigits
    cases hdigits
  next => rfl

theorem splitSign_ofNat (n : Nat) : splitSign (Text.ofNat n) = (false, false, Text.ofNat n) := by
  unfold splitSign
  split
  next h => exact absurd (Text.isDigit_of_mem_ofNat (h ▸ List.mem_cons_self)) (by decide)
  next h => exact absurd (Text.isDigit_of_mem_ofNat (h ▸ List.mem_cons_self)) (by decide)
  next => rfl

theorem integer?_decimal {t : Text} (h : ∀ b ∈ [120, 111, 98], b ∉ t) :
    integer? t = (wholeDigits? (splitSign t).2.2).bind fun ds =>
      inRange? (if (splitSign t).2.1 then -(Text.decimalValue ds : Int) else (Text.decimalValue ds : Int)) := by
  unfold integer?
  split
  next => exact absurd (List.mem_cons_of_mem _ List.mem_cons_self) (h 120 (by decide))
  next => exact absurd (List.mem_cons_of_mem _ List.mem_cons_self) (h 111 (by decide))
  next => exact absurd (List.mem_cons_of_mem _ List.mem_cons_self) (h 98 (by decide))
  next => rfl

theorem integer?_ofInt (n : Int) : integer? (Text.ofInt n) = inRange? n := by
  have hletters : ∀ b ∈ [120, 111, 98], b ∉ Text.ofInt n := by
    intro b hb
    simp only [List.mem_cons, List.not_mem_nil, or_false] at hb
    rcases hb with rfl | rfl | rfl <;> exact Text.not_mem_ofInt (by decide) n
  rw [integer?_decimal hletters]
  cases n with
  | ofNat n =>
    rw [Text.ofInt, splitSign_ofNat]
    simp only [wholeDigits?_ofNat, Option.bind_some, Text.decimalValue_ofNat, Bool.false_eq_true, if_false]
    rfl
  | negSucc n =>
    have hsign : splitSign (Text.ofInt (.negSucc n)) = (true, true, Text.ofNat (n + 1)) := rfl
    simp only [hsign, wholeDigits?_ofNat, Option.bind_some, Text.decimalValue_ofNat, if_true]
    rfl

theorem word_append {w : Text} (h : w.all isWord = true) (rest : Text) : word (w ++ 10 :: rest) = w := by
  have hfirst : (w ++ 10 :: rest).takeWhile isWord = w := by
    rw [List.takeWhile_append_of_pos (List.all_eq_true.mp h), List.takeWhile_cons_of_neg (by decide), List.append_nil]
  unfold word
  simp only [hfirst, List.drop_left]
  rfl

theorem value_word {b : UInt8} {t : Text} (hb : b ≠ 34 ∧ b ≠ 39 ∧ b ≠ 91 ∧ b ≠ 123) (fuel : Nat) :
    value e (fuel + 1) (b :: t) =
      (wordScalar? e (word (b :: t))).map fun x => (x, (b :: t).drop (word (b :: t)).length) := by
  rw [value]
  all_goals simp_all

theorem value_of_word {w : Text} {x : Expr} (hw : w.all isWord = true) (h : wordScalar? e w = some x) (hne : w ≠ [])
    (fuel : Nat) (rest : Text) : value e (fuel + 1) (w ++ 10 :: rest) = some (x, 10 :: rest) := by
  obtain ⟨b, tail, rfl⟩ := List.exists_cons_of_ne_nil hne
  have hb : b ≠ 34 ∧ b ≠ 39 ∧ b ≠ 91 ∧ b ≠ 123 := by
    have hword : isWord b = true := List.all_eq_true.mp hw b List.mem_cons_self
    refine ⟨?_, ?_, ?_, ?_⟩ <;> rintro rfl <;> exact absurd hword (by decide)
  rw [List.cons_append, value_word hb, ← List.cons_append, word_append hw, h, Option.map_some, List.drop_left]

theorem value_of_string {b : UInt8} {t s rest : Text} (hb : b = 34 ∨ b = 39) (h : string? e (b :: t) = some (s, rest))
    (fuel : Nat) : value e (fuel + 1) (b :: t) = some (.text s, rest) := by
  rcases hb with rfl | rfl <;> rw [value, h, Option.map_some]

theorem head_tomlString (t : Text) : ∃ b rest, Format.tomlString t = b :: rest ∧ (b = 34 ∨ b = 39) := by
  unfold Format.tomlString
  split
  next => exact ⟨34, _, rfl, .inl rfl⟩
  next => exact ⟨39, _, rfl, .inr rfl⟩

/-! ## Scalars -/

inductive Leaf : Format.Tree → Value → Prop
  | text {t : Text} (h : Text.isUtf8 t = true) : Leaf (.text t) (.text t)
  | number {n : Int} (h : inRange? n = some n) : Leaf (.number n) (.integer n)
  | bool (b : Bool) : Leaf (.bool b) (.bool b)

def scalarExpr : Value → Expr
  | .text t => .text t
  | .integer n => .integer n
  | .float x => .float x
  | .bool b => .bool b
  | .moment m => .moment m
  | .array _ => .array []
  | .table _ => .inline []

theorem value?_scalarExpr {tree : Format.Tree} {v : Value} (h : Leaf tree v) : (scalarExpr v).value? = some v := by
  cases h <;> simp [scalarExpr, Expr.value?]

theorem value_tomlScalar {tree : Format.Tree} {v : Value} (h : Leaf tree v) (fuel : Nat) (rest : Text) :
    value e (fuel + 1) (Format.tomlScalar tree ++ 10 :: rest) = some (scalarExpr v, 10 :: rest) := by
  cases h with
  | @text t h =>
    obtain ⟨b, tail, hhead, hb⟩ := head_tomlString t
    have hread := string?_tomlString (e := e) h rest
    rw [hhead, List.cons_append] at hread
    rw [Format.tomlScalar, hhead, List.cons_append, value_of_string hb hread, scalarExpr]
  | @number n h =>
    have hword : (Text.ofInt n).all isWord = true := by
      rw [List.all_eq_true]
      intro b hb
      rcases Text.of_mem_ofInt hb with rfl | hb
      · decide
      · simp [isWord, isBareKey, hb]
    have hne : Text.ofInt n ≠ [] := by
      cases n with
      | ofNat n => exact ofNat_ne_nil n
      | negSucc n => exact List.cons_ne_nil _ _
    have hletter : (101 : UInt8) ∉ Text.ofInt n := Text.not_mem_ofInt (by decide) n
    have htrue : Text.ofInt n ≠ Text.ofString "true" := fun heq => hletter (heq ▸ by decide)
    have hfalse : Text.ofInt n ≠ Text.ofString "false" := fun heq => hletter (heq ▸ by decide)
    have hscalar : wordScalar? e (Text.ofInt n) = some (.integer n) := by
      unfold wordScalar?
      simp only [if_neg htrue, if_neg hfalse, integer?_ofInt, h]
    exact value_of_word hword hscalar hne fuel rest
  | bool b =>
    cases b with
    | true => exact value_of_word (w := "true") (by decide) rfl (by decide) fuel rest
    | false => exact value_of_word (w := "false") (by decide) rfl (by decide) fuel rest

theorem head_tomlScalar {tree : Format.Tree} {v : Value} (h : Leaf tree v) :
    ∃ b rest, Format.tomlScalar tree = b :: rest ∧ isBlank b = false := by
  cases h with
  | @text t h =>
    obtain ⟨b, rest, hhead, hb⟩ := head_tomlString t
    exact ⟨b, rest, hhead, by rcases hb with rfl | rfl <;> decide⟩
  | @number n h =>
    cases n with
    | ofNat n =>
      obtain ⟨b, rest, hhead⟩ := List.exists_cons_of_ne_nil (ofNat_ne_nil n)
      have hdigit : Text.isDigit b = true := Text.isDigit_of_mem_ofNat (hhead ▸ List.mem_cons_self)
      refine ⟨b, rest, hhead, ?_⟩
      rw [Bool.eq_false_iff]
      intro hblank
      rw [isBlank, Bool.or_eq_true, beq_iff_eq, beq_iff_eq] at hblank
      rcases hblank with rfl | rfl <;> exact absurd hdigit (by decide)
    | negSucc n => exact ⟨45, _, rfl, by decide⟩
  | bool b => cases b <;> exact ⟨_, _, rfl, by decide⟩

/-! ## Characters of a document -/

def Clean (t : Text) : Prop :=
  ∃ cs, t = Text.ofChars cs ∧ ∀ c ∈ cs, c = '\t' ∨ c = '\n' ∨ 0x20 ≤ c.toNat ∧ c.toNat ≠ 0x7F

namespace Clean

variable {t u : Text}

theorem append (ht : Clean t) (hu : Clean u) : Clean (t ++ u) := by
  obtain ⟨cs, rfl, hcs⟩ := ht
  obtain ⟨ds, rfl, hds⟩ := hu
  refine ⟨cs ++ ds, by simp [Text.ofChars], fun c hc => ?_⟩
  exact (List.mem_append.mp hc).elim (hcs c) (hds c)

theorem flatMap {α : Type} {l : List α} {f : α → Text} (h : ∀ a ∈ l, Clean (f a)) : Clean (l.flatMap f) := by
  induction l with
  | nil => exact ⟨[], rfl, fun c hc => absurd hc List.not_mem_nil⟩
  | cons a l ih => exact (h a List.mem_cons_self).append (ih fun x hx => h x (List.mem_cons_of_mem _ hx))

theorem ofChar {c : Char} (h : 0x20 ≤ c.toNat ∧ c.toNat ≠ 0x7F) : Clean (Text.ofChar c) :=
  ⟨[c], by simp [Text.ofChars], fun d hd => by rw [List.mem_singleton.mp hd]; exact .inr (.inr h)⟩

theorem of_printable (h : t.all (fun b => 32 ≤ b.toNat && b.toNat < 127) = true) : Clean t := by
  have hflat : t = t.flatMap fun b => [b] := by simp
  rw [hflat]
  refine flatMap fun b hb => ?_
  have hrange : 32 ≤ b.toNat ∧ b.toNat < 127 := by
    have hb := List.all_eq_true.mp h b hb
    simpa using hb
  have hcode : (Char.ofNat b.toNat).toNat = b.toNat := Text.toNat_ofNat_of_isValidChar (.inl (by omega))
  rw [← Text.ofChar_ofNat (by omega)]
  exact ofChar (by omega)

theorem newline : Clean [10] := ⟨['\n'], by decide, fun c hc => .inr (.inl (List.mem_singleton.mp hc))⟩

theorem allowed (h : Clean t) : Toml.allowed (Text.glyphs t) = true := by
  obtain ⟨cs, rfl, hcs⟩ := h
  have hglyphs : Text.glyphs (Text.ofChars cs) = cs.map Glyph.char := by
    have happend := Text.glyphs_ofChars_append cs []
    rwa [List.append_nil, show Text.glyphs [] = [] from rfl, List.append_nil] at happend
  rw [hglyphs]
  clear hglyphs
  induction cs with
  | nil => rfl
  | cons c cs ih =>
    have hc := hcs c List.mem_cons_self
    have hreturn : c ≠ '\r' := by
      rintro rfl
      revert hc
      decide
    rw [List.map_cons, Toml.allowed, ih fun d hd => hcs d (List.mem_cons_of_mem _ hd)]
    · rcases hc with rfl | rfl | hc
      · rfl
      · rfl
      · simp [hc]
    · exact hreturn

theorem tomlEscape (c : Char) : Clean (Format.tomlEscape c) := by
  unfold Format.tomlEscape
  split
  case h_8 =>
    split
    next hcontrol =>
      have hhex : ∀ n < 128, ("\\u" ++ Text.hex true 4 n).all (fun b => 32 ≤ b.toNat && b.toNat < 127) = true := by decide
      exact of_printable (hhex c.toNat (by omega))
    next hplain => exact ofChar (by omega)
  all_goals exact of_printable (by decide)

theorem tomlString (h : Text.isUtf8 t = true) : Clean (Format.tomlString t) := by
  unfold Format.tomlString
  split
  next =>
    rw [Text.glyphs_of_isUtf8 h, List.flatMap_map]
    exact ((of_printable (by decide)).append (flatMap fun c _ => tomlEscape c)).append (of_printable (by decide))
  next hplain =>
    have hclean : Clean t := by
      refine ⟨Text.runes t, (Text.ofChars_runes h).symm, fun c hc => ?_⟩
      rw [Bool.not_eq_true, List.any_eq_false] at hplain
      have hkeep := hplain c hc
      simp only [Format.needsEscape, Bool.or_eq_true, Bool.and_eq_true, beq_iff_eq, decide_eq_true_eq, bne_iff_ne, not_or,
        not_and, not_not] at hkeep
      by_cases hlow : c.toNat < 0x20
      · exact .inl (hkeep.1.2 hlow)
      · exact .inr (.inr ⟨by omega, hkeep.2⟩)
    exact ((of_printable (by decide)).append hclean).append (of_printable (by decide))

theorem tomlScalar {tree : Format.Tree} {v : Value} (h : Leaf tree v) : Clean (Format.tomlScalar tree) := by
  cases h with
  | text h => exact tomlString h
  | @number n h =>
    refine of_printable (List.all_eq_true.mpr fun b hb => ?_)
    rcases Text.of_mem_ofInt hb with rfl | hb
    · decide
    · simp only [Text.isDigit, Bool.and_eq_true, decide_eq_true_eq, UInt8.le_iff_toNat_le, UInt8.reduceToNat] at hb
      simp only [Bool.and_eq_true, decide_eq_true_eq]
      omega
  | bool b => cases b <;> exact of_printable (by decide)

end Clean

end Toml

end RpcBindings
