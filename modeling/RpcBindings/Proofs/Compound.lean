import RpcBindings.Proofs.Snake

/-!
# Converted names and their parts

A name with a separator in it is converted part by part: what stands on one side of the separator does not depend on the
other side, and an underscore takes its place if there is a word on both sides. Converted names become identifiers by
escaping keywords. No converted name looks like an escaped one, so names that differ after conversion stay different.
-/

namespace RpcBindings

namespace Naming

open Alphabet

/-! ## Converting across a separator -/

theorem snakeFrom_unstarted (before : Option Char) (cs : List Char) : snakeFrom before false false cs = snakeChars cs := by
  cases cs with
  | nil => rfl
  | cons c rest => simp [snakeChars, snakeFrom]

section

variable {c : Char} (hc : isWordChar c = false)

include hc

theorem isLower_of_separator : isLower c = false := by
  cases h : isLower c with
  | false => rfl
  | true => simp [isWordChar, isLetter_of_isLower h] at hc

theorem startsWord_after_separator (d : Char) (rest : List Char) : startsWord (some c) d rest = false := by
  have hdigit : isDigit c = false := (Bool.or_eq_false_iff.mp hc).2
  have hupper : isUpper c = false := by
    cases h : isUpper c with
    | false => rfl
    | true => simp [isWordChar_of_isUpper h] at hc
  simp [startsWord, isLower_of_separator hc, hdigit, hupper]

theorem startsWord_before_separator (before : Option Char) (d : Char) (cs ds : List Char) :
    startsWord before d (cs ++ c :: ds) = startsWord before d cs := by
  have hfollows : smallFollows (cs ++ c :: ds) = smallFollows cs := by
    cases cs with
    | nil => exact isLower_of_separator hc
    | cons b cs => rfl
  cases before with
  | none => rfl
  | some p => rw [startsWord, startsWord, hfollows]

/-- Behind a separator a conversion begins anew. What was written before it decides on an underscore and nothing else. -/
theorem snakeFrom_after_separator (started : Bool) (ds : List Char) :
    snakeFrom (some c) started started ds =
      if started = true ∧ snakeChars ds ≠ [] then '_' :: snakeChars ds else snakeChars ds := by
  induction ds generalizing c with
  | nil => simp [snakeFrom, snakeChars]
  | cons d rest ih =>
    rw [snakeChars, snakeFrom, snakeFrom]
    cases hd : isWordChar d with
    | true => cases started <;> simp [startsWord_after_separator hc]
    | false => simp [ih hd, snakeFrom_unstarted]

theorem snakeFrom_append_separator (cs ds : List Char) : ∀ (before : Option Char) (started apart : Bool),
    snakeFrom before started apart (cs ++ c :: ds) = snakeFrom before started apart cs ++
      if (started || cs.any isWordChar) = true ∧ snakeChars ds ≠ [] then '_' :: snakeChars ds
      else snakeChars ds := by
  induction cs with
  | nil =>
    intro before started apart
    simp [snakeFrom, hc, snakeFrom_after_separator hc]
  | cons d rest ih =>
    intro before started apart
    rw [List.cons_append, snakeFrom, snakeFrom, startsWord_before_separator hc]
    cases hd : isWordChar d with
    | true =>
      -- whether or not an underscore stands before it, something is written now
      by_cases hapart : ((apart || startsWord before d rest) && started) = true
      · simp [hapart, ih, hd]
      · simp [hapart, ih, hd]
    | false => simp [ih, hd]

theorem snakeChars_append_separator (cs ds : List Char) :
    snakeChars (cs ++ c :: ds) =
      if snakeChars cs = [] then snakeChars ds
      else if snakeChars ds = [] then snakeChars cs
      else snakeChars cs ++ '_' :: snakeChars ds := by
  have happend := snakeFrom_append_separator hc cs ds none false false
  rw [← snakeChars, ← snakeChars] at happend
  have hword : cs.any isWordChar = true ↔ snakeChars cs ≠ [] := by
    rw [Ne, snakeChars_eq_nil_iff]
    simp
  simp only [happend, Bool.false_or, hword]
  by_cases hcs : snakeChars cs = []
  · simp [hcs]
  · by_cases hds : snakeChars ds = []
    · simp [hcs, hds]
    · simp [hcs, hds]

end

theorem ofChars_append (cs ds : List Char) : Text.ofChars (cs ++ ds) = Text.ofChars cs ++ Text.ofChars ds :=
  List.flatMap_append

theorem snakeCase_separated (s t : Text) (c : Char) (hletter : isLetter c = false) (hdigit : isDigit c = false) :
    snakeCase (s ++ Text.ofChar c ++ t) =
      if snakeCase s = [] then snakeCase t
      else if snakeCase t = [] then snakeCase s
      else snakeCase s ++ "_" ++ snakeCase t := by
  have hc : isWordChar c = false := Bool.or_eq_false_iff.mpr ⟨hletter, hdigit⟩
  have hunderscore : Text.ofString "_" = Text.ofChar '_' := rfl
  simp only [snakeCase, Text.runes_append_ofChar, snakeChars_append_separator hc, ofChars_eq_nil_iff, hunderscore]
  by_cases hs : snakeChars (Text.runes s) = []
  · rw [if_pos hs, if_pos hs]
  · by_cases ht : snakeChars (Text.runes t) = []
    · rw [if_neg hs, if_neg hs, if_pos ht, if_pos ht]
    · rw [if_neg hs, if_neg hs, if_neg ht, if_neg ht, ofChars_append, ofChars_cons, List.append_assoc]

theorem snakeCase_separated_euro :
    isLetter '€' = false ∧ isDigit '€' = false ∧
      snakeCase (Text.ofString "aHTTPServer" ++ [0xE2, 0x82]) = "a_http_server" ∧
      snakeCase (0xAC :: Text.ofString "URLs9X") = "ur_ls9_x" ∧
      snakeCase (Text.ofString "aHTTPServer" ++ [0xE2, 0x82] ++ Text.ofChar '€' ++ 0xAC :: Text.ofString "URLs9X") =
        "a_http_server_ur_ls9_x" := by
  obtain ⟨hletter, hdigit, hs, ht⟩ : isLetter '€' = false ∧ isDigit '€' = false ∧
      snakeCase (Text.ofString "aHTTPServer" ++ [0xE2, 0x82]) = "a_http_server" ∧
      snakeCase (0xAC :: Text.ofString "URLs9X") = "ur_ls9_x" := by decide +kernel
  refine ⟨hletter, hdigit, hs, ht, ?_⟩
  rw [snakeCase_separated _ _ '€' hletter hdigit, hs, ht]
  decide

/-! ## Escaping converted names -/

theorem isKeyword_identifier (name : Text) : isKeyword (identifier name) = false := by
  cases h : isKeyword name with
  | true => exact not_isKeyword_identifier h
  | false => rwa [identifier_of_not_isKeyword h]

theorem identifier_eq_nil_iff {name : Text} : identifier name = [] ↔ name = [] := by
  constructor
  · intro h
    have hlength := length_le_identifier name
    rw [h, List.length_nil, Nat.le_zero] at hlength
    exact List.length_eq_zero_iff.mp hlength
  · rintro rfl
    rfl

theorem identifier_eq_raw_iff {name k : Text} (hsign : 35 ∉ name) :
    identifier name = "r#" ++ k ↔ k = name ∧ isKeyword name = true ∧ name ∉ pathKeywords := by
  have hraw : Text.ofString "r#" = [114, 35] := by decide
  rw [hraw]
  cases hkeyword : isKeyword name with
  | false =>
    rw [identifier_of_not_isKeyword hkeyword]
    refine iff_of_false (fun h => hsign ?_) (by simp)
    rw [h]
    simp
  | true =>
    rw [identifier_of_isKeyword hkeyword]
    by_cases hpath : name ∈ pathKeywords
    · rw [if_pos (List.contains_iff_mem.mpr hpath)]
      refine iff_of_false (fun h => hsign ?_) (by simp [hpath])
      have hin : (35 : UInt8) ∈ name ++ [95] := by simp [h]
      simpa using hin
    · rw [if_neg (mt List.contains_iff_mem.mp hpath), List.append_right_inj]
      simp [hpath, eq_comm]

theorem snakeCase_mem_pathKeywords_iff (name : Text) :
    snakeCase name ∈ pathKeywords ↔ snakeCase name ∈ [("self" : Text), "super", "crate"] := by
  have hcapital : snakeCase name ≠ "Self" := by
    intro h
    have hin : (83 : UInt8) ∈ snakeCase name := by
      rw [h]
      decide
    exact not_mem_snakeCase (by decide) name hin
  simp only [pathKeywords, List.mem_cons, hcapital, false_or]

/-- Escaping keeps converted names apart. The identifier of a converted name is no keyword, and it is empty only if the
name holds no letter or digit. It is a raw one exactly if the converted name is a keyword that has a raw form. -/
theorem identifier_snakeCase_exact :
    (∀ a b, identifier (snakeCase a) = identifier (snakeCase b) ↔ snakeCase a = snakeCase b) ∧
    ∀ a, (identifier (snakeCase a) ≠ [] ↔ ∃ c ∈ Text.runes a, isLetter c = true ∨ isDigit c = true) ∧
      isKeyword (identifier (snakeCase a)) = false ∧
      ((∃ k, isKeyword k = true ∧ identifier (snakeCase a) = "r#" ++ k) ↔
        isKeyword (snakeCase a) = true ∧ snakeCase a ∉ [("self" : Text), "super", "crate"]) := by
  refine ⟨fun a b => functionName_eq_iff, fun a => ⟨?_, isKeyword_identifier _, ?_⟩⟩
  · rw [Ne, identifier_eq_nil_iff, snakeCase, ofChars_eq_nil_iff, snakeChars_eq_nil_iff]
    simp only [isWordChar, not_forall, Bool.not_eq_false, Bool.or_eq_true, exists_prop]
  · have hsign : 35 ∉ snakeCase a := not_mem_snakeCase (by decide) a
    simp only [identifier_eq_raw_iff hsign, snakeCase_mem_pathKeywords_iff]
    constructor
    · rintro ⟨k, -, rfl, hraw⟩
      exact hraw
    · intro hraw
      exact ⟨snakeCase a, hraw.1, rfl, hraw⟩

-- escaping alone would let two names meet, but only one of them is a converted name
example : identifier "self" = identifier "self_" ∧ snakeCase (Text.ofString "self_") = "self" := by decide +kernel

end Naming

end RpcBindings
