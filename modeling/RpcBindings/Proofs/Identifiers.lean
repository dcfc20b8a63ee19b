import Mathlib.Data.List.Nodup
import RpcBindings.Naming
import RpcBindings.Proofs.Naming

/-!
# When two names meet in one identifier

Escaping changes keywords only and never yields a keyword. So two names have one identifier only if one of them is a
keyword and the other is its escaped form. Names in snake case are never such a form: they hold no `#` and do not end in
an underscore.
-/

namespace RpcBindings.Naming

theorem isKeyword_iff {name : Text} : isKeyword name = true ↔ name ∈ keywords := List.contains_iff_mem

theorem isKeyword_of_path {name : Text} (h : name ∈ pathKeywords) : isKeyword name = true := by
  rw [isKeyword_iff, keywords]
  simp only [pathKeywords, List.mem_cons, List.not_mem_nil, or_false] at h
  rcases h with rfl | rfl | rfl | rfl <;> exact List.mem_map_of_mem (by simp)

theorem keyword_plain : ∀ name ∈ keywords, 35 ∉ name ∧ name.getLast? ≠ some 95 := by decide +kernel

theorem identifier_of_isKeyword {name : Text} (h : isKeyword name = true) :
    identifier name = if pathKeywords.contains name then name ++ [95] else [114, 35] ++ name := by
  have hunderscore : Text.ofString "_" = [95] := by decide
  have hraw : Text.ofString "r#" = [114, 35] := by decide
  rw [identifier, hunderscore, hraw, if_pos h]

theorem escaped_form {name : Text} (h : isKeyword name = true) :
    35 ∈ identifier name ∨ (identifier name).getLast? = some 95 := by
  rw [identifier_of_isKeyword h]
  split
  · exact .inr List.getLast?_concat
  · exact .inl (by simp)

theorem not_isKeyword_identifier {name : Text} (h : isKeyword name = true) : isKeyword (identifier name) = false := by
  by_contra hkeyword
  obtain ⟨hsign, hlast⟩ := keyword_plain _ (isKeyword_iff.mp (Bool.not_eq_false _ ▸ hkeyword))
  exact (escaped_form h).elim hsign hlast

theorem identifier_injective_keywords {a b : Text} (ha : isKeyword a = true) (hb : isKeyword b = true)
    (h : identifier a = identifier b) : a = b := by
  -- only the raw form holds a `#`, so both keywords are escaped in one way
  have hsign : ∀ c d : Text, isKeyword c = true → c ++ [95] ≠ [114, 35] ++ d := by
    intro c d hc heq
    have hin : (35 : UInt8) ∈ c ++ [95] := by simp [heq]
    exact (keyword_plain c (isKeyword_iff.mp hc)).1 (by simpa using hin)
  rw [identifier_of_isKeyword ha, identifier_of_isKeyword hb] at h
  split_ifs at h
  · exact List.append_cancel_right h
  · exact absurd h (hsign a b ha)
  · exact absurd h.symm (hsign b a hb)
  · exact List.append_cancel_left h

theorem identifier_of_not_isKeyword {name : Text} (h : isKeyword name = false) : identifier name = name := by
  have hpath : pathKeywords.contains name = false := by
    rw [← Bool.not_eq_true, List.contains_iff_mem]
    intro hin
    rw [isKeyword_of_path hin] at h
    cases h
  rw [identifier, hpath, h]
  rfl

theorem length_lt_of_isKeyword {name : Text} (h : isKeyword name = true) : name.length < (identifier name).length := by
  rw [identifier_of_isKeyword h]
  split <;>
    · simp only [List.length_append, List.length_cons, List.length_nil]
      omega

theorem length_le_identifier (name : Text) : name.length ≤ (identifier name).length := by
  cases h : isKeyword name with
  | true => exact Nat.le_of_lt (length_lt_of_isKeyword h)
  | false => exact Nat.le_of_eq (congrArg List.length (identifier_of_not_isKeyword h).symm)

theorem identifier_eq_self_iff {name : Text} : identifier name = name ↔ isKeyword name = false := by
  refine ⟨fun h => ?_, identifier_of_not_isKeyword⟩
  by_contra hkeyword
  have hlt := length_lt_of_isKeyword (Bool.not_eq_false _ ▸ hkeyword)
  rw [h] at hlt
  omega

theorem identifier_identifier (name : Text) : identifier (identifier name) = identifier name := by
  cases h : isKeyword name with
  | true => exact identifier_of_not_isKeyword (not_isKeyword_identifier h)
  | false => rw [identifier_of_not_isKeyword h, identifier_of_not_isKeyword h]

/-- Two names have one identifier only if they are equal or one is the escaped form of the other. -/
theorem identifier_eq_iff {a b : Text} :
    identifier a = identifier b ↔ a = b ∨ (isKeyword a = true ∧ b = identifier a) ∨ (isKeyword b = true ∧ a = identifier b) := by
  constructor
  · intro h
    cases ha : isKeyword a with
    | false =>
      rw [identifier_of_not_isKeyword ha] at h
      cases hb : isKeyword b with
      | false => exact .inl (h.trans (identifier_of_not_isKeyword hb))
      | true => exact .inr (.inr ⟨rfl, h⟩)
    | true =>
      cases hb : isKeyword b with
      | false => exact .inr (.inl ⟨rfl, (identifier_of_not_isKeyword hb).symm.trans h.symm⟩)
      | true => exact .inl (identifier_injective_keywords ha hb h)
  · rintro (rfl | ⟨-, rfl⟩ | ⟨-, rfl⟩)
    · rfl
    · exact (identifier_identifier a).symm
    · exact identifier_identifier b

theorem nodup_map_identifier_iff {names : List Text} :
    (names.map identifier).Nodup ↔ names.Nodup ∧ ∀ k ∈ names, isKeyword k = true → identifier k ∉ names := by
  constructor
  · intro h
    have hinj := List.inj_on_of_nodup_map h
    refine ⟨h.of_map, fun k hk hkeyword hin => ?_⟩
    have hsame : identifier k = k := hinj hin hk (identifier_identifier k)
    rw [identifier_eq_self_iff.mp hsame] at hkeyword
    cases hkeyword
  · rintro ⟨hnodup, hapart⟩
    refine List.Nodup.map_on (fun a ha b hb hab => ?_) hnodup
    rcases identifier_eq_iff.mp hab with rfl | ⟨hkeyword, rfl⟩ | ⟨hkeyword, rfl⟩
    · rfl
    · exact absurd hb (hapart a ha hkeyword)
    · exact absurd ha (hapart b hb hkeyword)

/-! ## Names in snake case -/

theorem snakeFrom_getLast? (cs : List Char) : ∀ {before : Option Char} {started apart : Bool},
    (snakeFrom before started apart cs).getLast? ≠ some '_' := by
  induction cs with
  | nil => intro before started apart h; cases h
  | cons c rest ih =>
    intro before started apart
    have htail : isWordChar c = true →
        (Alphabet.lower c :: snakeFrom (some c) true false rest).getLast? ≠ some '_' := by
      intro hword h
      rw [List.getLast?_cons] at h
      cases hrest : (snakeFrom (some c) true false rest).getLast? with
      | none => simp [hrest, lower_ne_underscore hword] at h
      | some d =>
        rw [hrest] at h
        exact ih (hrest.trans h)
    simp only [snakeFrom]
    split_ifs with hword happart
    · rw [List.getLast?_cons_cons]
      exact htail hword
    · exact htail hword
    · exact ih

theorem eq_underscore_of_mem_ofChar {c : Char} (h : 95 ∈ Text.ofChar c) : c = '_' := by
  have hval : c.val.toNat = c.toNat := rfl
  have hcode : c.toNat = '_'.toNat := by
    simp only [Text.ofChar, String.utf8EncodeChar, hval] at h
    split_ifs at h <;> simp only [List.mem_cons, List.not_mem_nil, or_false, ← UInt8.toNat_inj, UInt8.toNat_ofNat'] at h
    · have hsmall : c.toNat < 256 := by omega
      simpa [Nat.mod_eq_of_lt hsmall, eq_comm] using h
    -- every byte of a longer encoding has its highest bit set
    all_goals
      have hbyte : UInt8.toNat 95 = 95 := rfl
      omega
  exact Char.toNat_inj.mp hcode

theorem snakeCase_getLast? (name : Text) : (snakeCase name).getLast? ≠ some 95 := by
  intro h
  have hlast : (snakeChars (Text.runes name)).getLast? ≠ some '_' := snakeFrom_getLast? _
  rcases List.eq_nil_or_concat' (snakeChars (Text.runes name)) with hnil | ⟨cs, c, hcs⟩
  · simp [snakeCase, hnil, Text.ofChars] at h
  · have hsnake : snakeCase name = Text.ofChars cs ++ Text.ofChar c := by
      simp [snakeCase, hcs, Text.ofChars]
    have hne : Text.ofChar c ≠ [] := by
      simp [Text.ofChar]
    rw [hsnake, List.getLast?_append_of_ne_nil _ hne] at h
    refine hlast ?_
    rw [hcs, List.getLast?_concat, eq_underscore_of_mem_ofChar (List.mem_of_getLast? h)]

theorem snakeCase_ne_escaped (name : Text) {k : Text} (hk : isKeyword k = true) : snakeCase name ≠ identifier k := by
  intro h
  rcases escaped_form hk with hsign | hlast
  · exact not_mem_snakeCase (by decide) name (h ▸ hsign)
  · exact snakeCase_getLast? name (h ▸ hlast)

theorem functionName_eq_iff {a b : Text} : functionName a = functionName b ↔ snakeCase a = snakeCase b := by
  rw [functionName, functionName, identifier_eq_iff]
  refine ⟨fun h => ?_, .inl⟩
  rcases h with h | ⟨hkeyword, h⟩ | ⟨hkeyword, h⟩
  · exact h
  · exact absurd h (snakeCase_ne_escaped b hkeyword)
  · exact absurd h (snakeCase_ne_escaped a hkeyword)

end RpcBindings.Naming
