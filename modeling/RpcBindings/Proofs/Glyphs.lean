import Mathlib.Data.List.Basic
import RpcBindings.Naming
import RpcBindings.Proofs.Text

/-!
# Reading characters loses nothing

The glyphs of a text write the text again, byte by byte, and a row of characters is read back from what it writes.
Trimming takes glyphs off the ends, so every byte of a trimmed text stood in the text. Documentation in one line
therefore holds no line break, and no byte that neither the documentation nor a blank has.
-/

namespace RpcBindings

namespace Text

theorem continuation_succ {value k n : Nat} {t : Text} (h : continuation value (k + 1) t = some n) :
    ∃ b rest, t = b :: rest ∧ 128 ≤ b.toNat ∧ b.toNat < 192 ∧
      continuation (64 * value + (b.toNat - 128)) k rest = some n := by
  cases t with
  | nil => cases h
  | cons b rest =>
    rw [continuation] at h
    split at h
    next hb => exact ⟨b, rest, rfl, UInt8.le_iff_toNat_le.mp hb.1, UInt8.lt_iff_toNat_lt.mp hb.2, h⟩
    next => cases h

theorem toNat_ofNat_of_isValidChar {n : Nat} (h : n.isValidChar) : (Char.ofNat n).val.toNat = n := by
  rw [Char.ofNat, dif_pos h]
  rfl

theorem ofNat_eq_of_eq_toNat {n : Nat} {b : UInt8} (h : n = b.toNat) : UInt8.ofNat n = b := by
  rw [h, UInt8.ofNat_toNat]

theorem leadByte?_cases {a : UInt8} {bits k least : Nat} (h : leadByte? a = some (bits, k, least)) :
    (k = 0 ∧ a.toNat < 128 ∧ bits = a.toNat) ∨
    (k = 1 ∧ 192 ≤ a.toNat ∧ bits = a.toNat - 192 ∧ bits < 32 ∧ least = 128) ∨
    (k = 2 ∧ 224 ≤ a.toNat ∧ bits = a.toNat - 224 ∧ bits < 16 ∧ least = 2048) ∨
    (k = 3 ∧ 240 ≤ a.toNat ∧ bits = a.toNat - 240 ∧ bits < 8 ∧ least = 65536) := by
  unfold leadByte? at h
  simp only [UInt8.lt_iff_toNat_lt, UInt8.reduceToNat] at h
  split_ifs at h <;> grind

/-- A lead byte and its continuation bytes are how the value they give is written, unless it has a shorter form. -/
theorem bytes_of_continuation {a : UInt8} {bits k least n : Nat} {rest : Text}
    (hlead : leadByte? a = some (bits, k, least)) (hn : continuation bits k rest = some n) (hleast : least ≤ n)
    (hvalid : n.isValidChar) : String.utf8EncodeChar (Char.ofNat n) = a :: rest.take k := by
  have hmax : n < 1114112 := by
    rcases hvalid with h | h
    · omega
    · exact h.2
  simp only [String.utf8EncodeChar, toNat_ofNat_of_isValidChar hvalid]
  rcases leadByte?_cases hlead with ⟨hk, ha, hbits⟩ | ⟨hk, ha, hbits, hlt, hl⟩ | ⟨hk, ha, hbits, hlt, hl⟩ |
    ⟨hk, ha, hbits, hlt, hl⟩
  · subst hk
    obtain rfl : bits = n := Option.some.inj hn
    rw [if_pos (by omega), ofNat_eq_of_eq_toNat hbits, List.take_zero]
  · subst hk
    obtain ⟨b, rest, rfl, hb, hb', hn⟩ := continuation_succ hn
    simp only [continuation, Option.some.injEq] at hn
    have ha : UInt8.ofNat (n / 64 % 32 + 192) = a := ofNat_eq_of_eq_toNat (by omega)
    have hb : UInt8.ofNat (n % 64 + 128) = b := ofNat_eq_of_eq_toNat (by omega)
    rw [if_neg (by omega), if_pos (by omega), ha, hb]
    rfl
  · subst hk
    obtain ⟨b, rest, rfl, hb, hb', hn⟩ := continuation_succ hn
    obtain ⟨c, rest, rfl, hc, hc', hn⟩ := continuation_succ hn
    simp only [continuation, Option.some.injEq] at hn
    have ha : UInt8.ofNat (n / 4096 % 16 + 224) = a := ofNat_eq_of_eq_toNat (by omega)
    have hb : UInt8.ofNat (n / 64 % 64 + 128) = b := ofNat_eq_of_eq_toNat (by omega)
    have hc : UInt8.ofNat (n % 64 + 128) = c := ofNat_eq_of_eq_toNat (by omega)
    rw [if_neg (by omega), if_neg (by omega), if_pos (by omega), ha, hb, hc]
    rfl
  · subst hk
    obtain ⟨b, rest, rfl, hb, hb', hn⟩ := continuation_succ hn
    obtain ⟨c, rest, rfl, hc, hc', hn⟩ := continuation_succ hn
    obtain ⟨d, rest, rfl, hd, hd', hn⟩ := continuation_succ hn
    simp only [continuation, Option.some.injEq] at hn
    have ha : UInt8.ofNat (n / 262144 % 8 + 240) = a := ofNat_eq_of_eq_toNat (by omega)
    have hb : UInt8.ofNat (n / 4096 % 64 + 128) = b := ofNat_eq_of_eq_toNat (by omega)
    have hc : UInt8.ofNat (n / 64 % 64 + 128) = c := ofNat_eq_of_eq_toNat (by omega)
    have hd : UInt8.ofNat (n % 64 + 128) = d := ofNat_eq_of_eq_toNat (by omega)
    rw [if_neg (by omega), if_neg (by omega), if_neg (by omega), ha, hb, hc, hd]
    rfl

theorem bytes_of_charAt? {a : UInt8} {rest : Text} {c : Char} {k : Nat} (h : charAt? a rest = some (c, k)) :
    String.utf8EncodeChar c = a :: rest.take k := by
  unfold charAt? at h
  split at h
  next => cases h
  next bits k' least hlead =>
    split at h
    next => cases h
    next n hn =>
      split at h
      next hvalid =>
        obtain ⟨rfl, rfl⟩ := Prod.mk.inj (Option.some.inj h)
        exact bytes_of_continuation hlead hn hvalid.1 hvalid.2
      next => cases h

theorem ofGlyphs_glyphsAfter (t : Text) : ∀ skip, ofGlyphs (glyphsAfter [] skip t) = t.drop skip := by
  induction t with
  | nil => intro skip; simp [glyphsAfter, ofGlyphs]
  | cons a rest ih =>
    intro skip
    cases skip with
    | succ skip => exact ih skip
    | zero =>
      rw [glyphsAfter]
      split
      next c k hchar =>
        rw [glyphsAfter_eq, ofGlyphs, List.flatMap_append]
        change [Glyph.char c].flatMap Glyph.bytes ++ ofGlyphs (glyphsAfter [] k rest) = _
        rw [ih k, List.flatMap_singleton, Glyph.bytes, bytes_of_charAt? hchar, List.cons_append, List.take_append_drop]
        rfl
      next =>
        rw [glyphsAfter_eq, ofGlyphs, List.flatMap_append]
        change [Glyph.stray a].flatMap Glyph.bytes ++ ofGlyphs (glyphsAfter [] 0 rest) = _
        rw [ih 0]
        rfl

theorem ofGlyphs_glyphs (t : Text) : ofGlyphs (glyphs t) = t := ofGlyphs_glyphsAfter t 0

/-! ## Reading what was written -/

theorem toNat_ofNat_of_lt {n : Nat} (h : n < 256) : (UInt8.ofNat n).toNat = n := by
  rw [UInt8.toNat_ofNat', Nat.mod_eq_of_lt h]

theorem leadByte?_ofNat {n : Nat} (h : n < 256) : leadByte? (UInt8.ofNat n) =
    if n < 128 then some (n, 0, 0)
    else if n < 192 then none
    else if n < 224 then some (n - 192, 1, 128)
    else if n < 240 then some (n - 224, 2, 2048)
    else if n < 248 then some (n - 240, 3, 65536)
    else none := by
  simp only [leadByte?, UInt8.lt_iff_toNat_lt, UInt8.reduceToNat, toNat_ofNat_of_lt h]

theorem continuation_cons (value k n : Nat) (rest : Text) :
    continuation value (k + 1) (UInt8.ofNat (n % 64 + 128) :: rest) = continuation (64 * value + n % 64) k rest := by
  have hb : (UInt8.ofNat (n % 64 + 128)).toNat = n % 64 + 128 := toNat_ofNat_of_lt (by omega)
  simp only [continuation, UInt8.le_iff_toNat_le, UInt8.lt_iff_toNat_lt, UInt8.reduceToNat, hb]
  rw [if_pos (by omega), Nat.add_sub_cancel]

theorem charAt?_of_lead {c : Char} {a : UInt8} {rest : Text} {bits k least : Nat}
    (hlead : leadByte? a = some (bits, k, least)) (hvalue : continuation bits k rest = some c.toNat)
    (hleast : least ≤ c.toNat) : charAt? a rest = some (c, k) := by
  have hvalid : c.toNat.isValidChar := c.valid
  simp [charAt?, hlead, hvalue, hleast, hvalid]

theorem charAt?_ofChar (c : Char) (rest : Text) :
    ∃ a tail, ofChar c = a :: tail ∧ charAt? a (tail ++ rest) = some (c, tail.length) := by
  have hmax : c.toNat < 1114112 := by
    have hvalid : c.toNat.isValidChar := c.valid
    rcases hvalid with h | h <;> omega
  have hval : c.val.toNat = c.toNat := rfl
  simp only [ofChar, String.utf8EncodeChar, hval]
  split_ifs with hone htwo hthree
  · have hlead : leadByte? (UInt8.ofNat c.toNat) = some (c.toNat, 0, 0) := by
      rw [leadByte?_ofNat (by omega), if_pos (by omega)]
    exact ⟨_, _, rfl, charAt?_of_lead hlead rfl (Nat.zero_le _)⟩
  · have hlead : leadByte? (UInt8.ofNat (c.toNat / 64 % 32 + 192)) = some (c.toNat / 64, 1, 128) := by
      rw [leadByte?_ofNat (by omega), if_neg (by omega), if_neg (by omega), if_pos (by omega)]
      simp only [Option.some.injEq, Prod.mk.injEq, and_true]
      omega
    have hvalue : continuation (c.toNat / 64) 1 (UInt8.ofNat (c.toNat % 64 + 128) :: rest) = some c.toNat := by
      rw [continuation_cons, continuation, Option.some.injEq]
      omega
    exact ⟨_, _, rfl, charAt?_of_lead hlead hvalue (by omega)⟩
  · have hlead : leadByte? (UInt8.ofNat (c.toNat / 4096 % 16 + 224)) = some (c.toNat / 4096, 2, 2048) := by
      rw [leadByte?_ofNat (by omega), if_neg (by omega), if_neg (by omega), if_neg (by omega), if_pos (by omega)]
      simp only [Option.some.injEq, Prod.mk.injEq, and_true]
      omega
    have hvalue : continuation (c.toNat / 4096) 2 (UInt8.ofNat (c.toNat / 64 % 64 + 128) ::
        UInt8.ofNat (c.toNat % 64 + 128) :: rest) = some c.toNat := by
      rw [continuation_cons, continuation_cons, continuation, Option.some.injEq]
      omega
    exact ⟨_, _, rfl, charAt?_of_lead hlead hvalue (by omega)⟩
  · have hlead : leadByte? (UInt8.ofNat (c.toNat / 262144 % 8 + 240)) = some (c.toNat / 262144, 3, 65536) := by
      rw [leadByte?_ofNat (by omega), if_neg (by omega), if_neg (by omega), if_neg (by omega), if_neg (by omega),
        if_pos (by omega)]
      simp only [Option.some.injEq, Prod.mk.injEq, and_true]
      omega
    have hvalue : continuation (c.toNat / 262144) 3 (UInt8.ofNat (c.toNat / 4096 % 64 + 128) ::
        UInt8.ofNat (c.toNat / 64 % 64 + 128) :: UInt8.ofNat (c.toNat % 64 + 128) :: rest) = some c.toNat := by
      rw [continuation_cons, continuation_cons, continuation_cons, continuation, Option.some.injEq]
      omega
    exact ⟨_, _, rfl, charAt?_of_lead hlead hvalue (by omega)⟩

theorem glyphsAfter_skip (lead rest : Text) (read : List Glyph) :
    glyphsAfter read lead.length (lead ++ rest) = glyphsAfter read 0 rest := by
  induction lead with
  | nil => rfl
  | cons b lead ih => exact ih

theorem glyphs_ofChar_append (c : Char) (rest : Text) : glyphs (ofChar c ++ rest) = .char c :: glyphs rest := by
  obtain ⟨a, tail, hbytes, hchar⟩ := charAt?_ofChar c rest
  rw [hbytes, List.cons_append, glyphs, glyphsAfter, hchar]
  simp only
  rw [glyphsAfter_skip, glyphsAfter_eq]
  rfl

theorem runes_ofChars (cs : List Char) : runes (ofChars cs) = cs := by
  induction cs with
  | nil => rfl
  | cons c cs ih =>
    rw [runes] at ih
    rw [ofChars, List.flatMap_cons, ← ofChars, runes, glyphs_ofChar_append, List.map_cons, ih, Glyph.rune]

/-! ## Reading across a character -/

theorem le_length_of_continuation {k : Nat} : ∀ {value n : Nat} {t : Text}, continuation value k t = some n →
    k ≤ t.length := by
  induction k with
  | zero => exact fun _ => Nat.zero_le _
  | succ k ih =>
    intro value n t h
    obtain ⟨b, rest, rfl, -, -, hrest⟩ := continuation_succ h
    exact Nat.succ_le_succ (ih hrest)

theorem le_length_of_charAt? {a : UInt8} {rest : Text} {c : Char} {k : Nat} (h : charAt? a rest = some (c, k)) :
    k ≤ rest.length := by
  unfold charAt? at h
  split at h
  next => cases h
  next bits k' least hlead =>
    split at h
    next => cases h
    next n hn =>
      split at h
      next =>
        obtain ⟨-, rfl⟩ := Prod.mk.inj (Option.some.inj h)
        exact le_length_of_continuation hn
      next => cases h

/-- The first byte of a character continues no other one. -/
theorem continuation_append_ofChar (c : Char) (rest t : Text) : ∀ value k : Nat,
    continuation value k (t ++ ofChar c ++ rest) = continuation value k t := by
  obtain ⟨a, tail, hbytes, hchar⟩ := charAt?_ofChar c rest
  have hfirst : a.toNat < 128 ∨ 192 ≤ a.toNat := by
    unfold charAt? at hchar
    split at hchar
    next => cases hchar
    next bits k least hlead =>
      rcases leadByte?_cases hlead with h | h | h | h <;> omega
  rw [List.append_assoc, hbytes]
  induction t with
  | nil =>
    intro value k
    cases k with
    | zero => rfl
    | succ k =>
      have hrefused : ¬ (0x80 ≤ a ∧ a < 0xC0) := by
        simp only [UInt8.le_iff_toNat_le, UInt8.lt_iff_toNat_lt, UInt8.reduceToNat]
        omega
      simp only [List.nil_append, List.cons_append, continuation, if_neg hrefused]
  | cons b t ih =>
    intro value k
    cases k with
    | zero => rfl
    | succ k => rw [List.cons_append, continuation, continuation, ih]

theorem glyphsAfter_append_ofChar (c : Char) (rest t : Text) : ∀ skip ≤ t.length,
    glyphsAfter [] skip (t ++ ofChar c ++ rest) = glyphsAfter [] skip t ++ .char c :: glyphs rest := by
  induction t with
  | nil =>
    intro skip hskip
    obtain rfl : skip = 0 := Nat.le_zero.mp hskip
    exact glyphs_ofChar_append c rest
  | cons a t ih =>
    intro skip hskip
    cases skip with
    | succ skip => exact ih skip (Nat.le_of_succ_le_succ hskip)
    | zero =>
      have hchar : charAt? a (t ++ ofChar c ++ rest) = charAt? a t := by
        simp only [charAt?, continuation_append_ofChar]
      rw [List.cons_append, List.cons_append, glyphsAfter, glyphsAfter, hchar]
      cases h : charAt? a t with
      | none =>
        simp only
        rw [glyphsAfter_eq, glyphsAfter_eq t, ih 0 (Nat.zero_le _), List.append_assoc]
      | some p =>
        simp only
        rw [glyphsAfter_eq, glyphsAfter_eq t, ih p.2 (le_length_of_charAt? h), List.append_assoc]

theorem runes_append_ofChar (t rest : Text) (c : Char) :
    runes (t ++ ofChar c ++ rest) = runes t ++ c :: runes rest := by
  rw [runes, glyphs, glyphsAfter_append_ofChar c rest t 0 (Nat.zero_le _), List.map_append]
  rfl

/-! ## Trimming and joining -/

theorem exists_trimGlyphs_between (gs : List Glyph) :
    ∃ back, gs = gs.takeWhile glyphIsBlank ++ (trimGlyphs gs ++ back) := by
  obtain ⟨back, hback⟩ := List.dropWhile_suffix glyphIsBlank (l := (gs.dropWhile glyphIsBlank).reverse)
  refine ⟨back.reverse, ?_⟩
  rw [trimGlyphs, ← List.reverse_append, hback, List.reverse_reverse, List.takeWhile_append_dropWhile]

theorem mem_of_mem_trim {t : Text} {b : UInt8} (h : b ∈ trim t) : b ∈ t := by
  obtain ⟨g, hg, hb⟩ := List.mem_flatMap.mp h
  rw [trimGlyphs, List.mem_reverse] at hg
  have hleft := List.mem_reverse.mp ((List.dropWhile_sublist _).subset hg)
  rw [← ofGlyphs_glyphs t]
  exact List.mem_flatMap.mpr ⟨g, (List.dropWhile_sublist _).subset hleft, hb⟩

theorem mem_of_mem_join {sep : Text} {pieces : List Text} {b : UInt8} (h : b ∈ join sep pieces) :
    b ∈ sep ∨ ∃ piece ∈ pieces, b ∈ piece := by
  induction pieces with
  | nil => cases h
  | cons piece rest ih =>
    cases rest with
    | nil => exact .inr ⟨piece, List.mem_cons_self, h⟩
    | cons next rest =>
      rw [join_cons_cons, List.mem_append, List.mem_append] at h
      rcases h with (h | h) | h
      · exact .inr ⟨piece, List.mem_cons_self, h⟩
      · exact .inl h
      · refine (ih h).imp_right fun hin => ?_
        obtain ⟨x, hx, hb⟩ := hin
        exact ⟨x, List.mem_cons_of_mem _ hx, hb⟩

end Text

theorem Naming.of_mem_oneLine {doc : Text} {b : UInt8} (h : b ∈ oneLine doc) :
    b = 32 ∨ b ∈ doc ∧ isLineBreak b = false := by
  rcases Text.mem_of_mem_join h with hb | ⟨piece, hpiece, hb⟩
  · exact .inl (List.mem_singleton.mp hb)
  · obtain ⟨line, hline, rfl⟩ := List.mem_map.mp (List.mem_of_mem_filter hpiece)
    exact .inr (Text.of_mem_splitWhere hline b (Text.mem_of_mem_trim hb))

end RpcBindings
