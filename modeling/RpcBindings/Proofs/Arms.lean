import RpcBindings.Proofs.Identifiers
import RpcBindings.Proofs.Remarks

/-!
# The arms of a generated enumeration

The block of an enumeration holds two matches, one from its members to their values and one from values to members. The
first arm that fits decides, so the two functions can be said in terms of the members. Where the names hold no line feed
and no equals sign, the arms can be read from the lines of the block just as they were written.
-/

namespace RpcBindings

theorem Text.decimalValue_ofNat (n : Nat) : decimalValue (ofNat n) = n := by
  have hvalue : ∀ (cs : List Char) (k : Nat), (∀ c ∈ cs, c.isDigit = true) →
      (cs.map fun c => c.toNat.toUInt8).foldl (fun n b => 10 * n + (b.toNat - 48)) k = Nat.ofDigitChars 10 cs k := by
    intro cs
    induction cs with
    | nil => exact fun k _ => rfl
    | cons c cs ih =>
      intro k h
      have hbyte : c.toNat.toUInt8.toNat = c.toNat := by
        have hhigh : c.toNat ≤ 57 := (Char.isDigit_iff_toNat.mp (h c List.mem_cons_self)).2
        rw [Nat.toUInt8_eq, UInt8.toNat_ofNat']
        omega
      rw [List.map_cons, List.foldl_cons, hbyte, Nat.ofDigitChars_cons]
      exact ih _ fun c' hc' => h c' (List.mem_cons_of_mem _ hc')
  rw [decimalValue, ofNat, hvalue _ 0 fun c hc => Nat.isDigit_of_mem_toDigits (by decide) (by decide) hc]
  exact Nat.ofDigitChars_toDigits (by decide) (by decide)

theorem Text.of_mem_ofInt {b : UInt8} {i : Int} (h : b ∈ ofInt i) : b = 45 ∨ isDigit b = true := by
  cases i with
  | ofNat n => exact .inr (isDigit_of_mem_ofNat h)
  | negSucc n =>
    rcases List.mem_append.mp h with h | h
    · exact .inl (List.mem_singleton.mp h)
    · exact .inr (isDigit_of_mem_ofNat h)

theorem Text.not_mem_ofInt {b : UInt8} (hb : b ≠ 45 ∧ isDigit b = false) (i : Int) : b ∉ ofInt i := by
  intro h
  rcases of_mem_ofInt h with h | h
  · exact hb.1 h
  · rw [hb.2] at h
    cases h

theorem Naming.not_mem_identifier {b : UInt8} {name : Text} (hb : b ∉ Text.ofString "r#_") (h : b ∉ name) :
    b ∉ identifier name := by
  have htail : Text.ofString "r#_" = Text.ofString "r#" ++ Text.ofString "_" := rfl
  rw [htail, List.mem_append, not_or] at hb
  unfold identifier
  split
  next => simp [h, hb]
  next =>
    split
    next => simp [h, hb]
    next => exact h

namespace Render

open Binding Template

/-! ## Reading -/

structure Arm where
  pattern : Text
  result : Text
  deriving DecidableEq

namespace Arm

def line (a : Arm) : Text := "            " ++ a.pattern ++ " => " ++ a.result ++ ","

def read? (line : Text) : Option Arm :=
  (Text.cut? 61 line).bind fun cut =>
    let arm : Arm := ⟨(cut.1.drop 12).dropLast, (cut.2.drop 2).dropLast⟩
    if arm.line = line then some arm else none

theorem line_eq (a : Arm) :
    a.line = List.replicate 12 32 ++ a.pattern ++ [32, 61, 62, 32] ++ a.result ++ [44] := rfl

theorem read?_line {a : Arm} (h : 61 ∉ a.pattern) : read? a.line = some a := by
  -- the first equals sign is that of the arrow
  have hcut : Text.cut? 61 a.line = some (List.replicate 12 32 ++ a.pattern ++ [32], [62, 32] ++ a.result ++ [44]) := by
    apply Text.cut?_eq_some_iff.mpr
    simp [line_eq, h]
  rw [read?, hcut]
  simp

theorem mapM_read? {arms : List Arm} (h : ∀ a ∈ arms, 61 ∉ a.pattern) : (arms.map line).mapM read? = some arms := by
  induction arms with
  | nil => rfl
  | cons a arms ih =>
    have hrest := ih fun b hb => h b (List.mem_cons_of_mem _ hb)
    rw [List.map_cons, List.mapM_cons, read?_line (h a List.mem_cons_self), hrest]
    rfl

end Arm

def literal? (t : Text) : Option Int32 :=
  if t ≠ [] ∧ t.all Text.isDigit ∧ Text.decimalValue t ≤ 2147483647 then some (Int32.ofNat (Text.decimalValue t))
  else none

def reply? (t : Text) : Option (Option Text) :=
  let inner := (t.drop 5).dropLast
  if t = "None" then some none
  else if t = "Some(" ++ inner ++ ")" then some (some inner)
  else none

def value? (arms : List Arm) (member : Text) : Option Int32 :=
  (arms.find? fun a => a.pattern == member).bind fun a => literal? a.result

def fromValue? (arms : List Arm) (v : Int32) : Option (Option Text) :=
  (arms.find? fun a => a.pattern == Text.ofString "_" || literal? a.pattern == some v).bind fun a => reply? a.result

def matchSelf : Text := passage ["        match *self ⦃"]

def matchValue : Text := passage ["        match value ⦃"]

def matchEnd : Text := passage ["        ⦄"]

def matchLines (opening : Text) (arms : List Arm) : List Text := opening :: arms.map Arm.line ++ [matchEnd]

/-- The arms of the match that a line opens. -/
def arms? (opening block : Text) : Option (List Arm) :=
  (((Text.splitOn 10 block).dropWhile (· != opening)).tail.takeWhile (· != matchEnd)).mapM Arm.read?

theorem literal?_ofInt {v : Int32} (h : 0 ≤ v.toInt) : literal? (Text.ofInt v.toInt) = some v := by
  obtain ⟨n, hn⟩ := Int.eq_ofNat_of_zero_le h
  have hlt := v.toInt_lt
  have hne : Text.ofNat n ≠ [] := by simp [Text.ofNat]
  have hall : (Text.ofNat n).all Text.isDigit = true := List.all_eq_true.mpr fun b hb => Text.isDigit_of_mem_ofNat hb
  have hle : Text.decimalValue (Text.ofNat n) ≤ 2147483647 := by
    rw [Text.decimalValue_ofNat]
    omega
  have hvalue : Int32.ofNat n = v := by
    apply Int32.toInt_inj.mp
    rw [Int32.toInt_ofNat_of_lt (by omega), hn]
  rw [hn]
  change literal? (Text.ofNat n) = some v
  rw [literal?, if_pos ⟨hne, hall, hle⟩, Text.decimalValue_ofNat, hvalue]

theorem reply?_some (p : Text) : reply? ("Some(" ++ p ++ ")") = some (some p) := by
  have hopen : Text.ofString "Some(" = [83, 111, 109, 101, 40] := rfl
  have hclose : Text.ofString ")" = [41] := rfl
  have hnone : Text.ofString "None" = [78, 111, 110, 101] := rfl
  simp [reply?, hopen, hclose, hnone]

/-! ## The lines of a block -/

def memberPath (e : EnumDef) (m : EnumMember) : Text := Naming.identifier e.name ++ "::" ++ Naming.identifier m.name

def valueArm (e : EnumDef) (m : EnumMember) : Arm := ⟨memberPath e m, Text.ofInt m.value.toInt⟩

def memberArm (e : EnumDef) (m : EnumMember) : Arm := ⟨Text.ofInt m.value.toInt, "Some(" ++ memberPath e m ++ ")"⟩

def otherArm : Arm := ⟨"_", "None"⟩

def valueArms (e : EnumDef) : List Arm := e.values.map (valueArm e)

def memberArms (e : EnumDef) : List Arm := e.values.map (memberArm e) ++ [otherArm]

def headLines (e : EnumDef) : List Text :=
  [] :: (if e.doc.isEmpty then [] else [Text.ofString "/// " ++ Naming.oneLine e.doc]) ++
    ["#[derive(" ++ enumTraits ++ ")]", "pub enum " ++ Naming.identifier e.name ++ passage [" ⦃"]] ++
    e.values.map (fun m => ("    " : Text) ++ Naming.identifier m.name ++ ",") ++
    [passage ["⦄"], [], "impl " ++ Naming.identifier e.name ++ passage [" ⦃"],
     passage ["    /// Wire value of this member."], passage ["    pub fn value(&self) -> i32 ⦃"]]

def middleLines : List Text :=
  [passage ["    ⦄"], passage [""], passage ["    /// Member for a wire value, None when the value is unknown."],
   passage ["    #[allow(unreachable_patterns)]"], passage ["    pub fn from_value(value: i32) -> Option<Self> ⦃"]]

theorem passage_cons_cons (line next : String) (lines : List String) :
    passage (line :: next :: lines) = passage [line] ++ 10 :: passage (next :: lines) := by
  simp [passage, Text.join_cons_cons]

theorem flatten_memberRow (m : EnumMember) : (memberRow id (Naming.identifier m.name)).flatten =
    10 :: (Text.ofString "    " ++ Naming.identifier m.name ++ Text.ofString ",") := by
  have hmargin : Text.ofString "\n    " = 10 :: Text.ofString "    " := rfl
  simp [memberRow, hmargin]

theorem flatten_valueRow (e : EnumDef) (m : EnumMember) :
    (valueRow id (Naming.identifier e.name) (Naming.identifier m.name) (Text.ofInt m.value.toInt)).flatten =
      10 :: (valueArm e m).line := by
  have hmargin : Text.ofString "\n            " = 10 :: Text.ofString "            " := rfl
  simp [valueRow, valueArm, memberPath, Arm.line, hmargin]

theorem flatten_patternRow (e : EnumDef) (m : EnumMember) :
    (patternRow id (Naming.identifier e.name) (Naming.identifier m.name) (Text.ofInt m.value.toInt)).flatten =
      10 :: (memberArm e m).line := by
  have hmargin : Text.ofString "\n            " = 10 :: Text.ofString "            " := rfl
  have hopen : Text.ofString " => Some(" = Text.ofString " => " ++ Text.ofString "Some(" := rfl
  have hclose : Text.ofString ")," = Text.ofString ")" ++ Text.ofString "," := rfl
  simp [patternRow, memberArm, memberPath, Arm.line, hmargin, hopen, hclose]

theorem enumBlock_lines (e : EnumDef) :
    ∃ rest, enumBlock e = (headLines e ++ matchLines matchSelf (valueArms e) ++ middleLines ++
      matchLines matchValue (memberArms e)).flatMap (10 :: ·) ++ 10 :: rest := by
  have hremark : commented "\n/// " e.doc =
      (if e.doc.isEmpty then [] else [Text.ofString "/// " ++ Naming.oneLine e.doc]).flatMap (10 :: ·) := by
    have hmark : Text.ofString "\n/// " = 10 :: Text.ofString "/// " := rfl
    unfold commented
    split
    next => rfl
    next => simp [hmark]
  have hderive : Text.ofString "\n#[derive(" = 10 :: Text.ofString "#[derive(" := rfl
  have hpub : Text.ofString ")]\npub " = Text.ofString ")]" ++ 10 :: Text.ofString "pub " := rfl
  have henum : Text.ofString "pub enum " = Text.ofString "pub " ++ Text.ofString "enum" ++ Text.ofString " " := rfl
  have hbreak : Text.ofString "\n" = [10] := rfl
  have hempty : passage [""] = [] := rfl
  have himpl : passage ["impl "] = "impl " := by rfl
  have hother : passage ["            _ => None,"] = otherArm.line := by rfl
  -- what follows the second match is left as it stands
  refine ⟨passage ["    ⦄", "⦄", "", "impl RPCEncodable for "] ++
    ((enumRow id (Naming.identifier e.name) [] [] []).drop 9).flatten, ?_⟩
  simp only [enumBlock, Item.text, Item.ofEnum, Item.members, typeRow, enumRow, List.flatMap_map, flatten_memberRow,
    flatten_valueRow, flatten_patternRow, hremark, hderive, hpub, hbreak, id, headLines, middleLines, matchLines,
    matchSelf, matchValue, matchEnd, valueArms, memberArms, passage_cons_cons, hempty, himpl, hother, henum, List.drop]
  -- a step by definition alone would have the literals evaluated
  simp -implicitDefEqProofs [List.flatMap_map]

/-! ## Breaking a block into its lines -/

def Legible (e : EnumDef) : Prop := ∀ name ∈ e.name :: e.values.map (·.name), 10 ∉ name ∧ 61 ∉ name

def isBound (line : Text) : Bool := line.startsWith "        " && line.getLast? != some 44

theorem Arm.not_mem_line {a : Arm} (hpattern : 10 ∉ a.pattern) (hresult : 10 ∉ a.result) : 10 ∉ a.line := by
  simp [Arm.line_eq, hpattern, hresult]

theorem isBound_comma (t : Text) : isBound (t ++ ",") = false := by
  have hcomma : Text.ofString "," = [44] := rfl
  simp [isBound, hcomma]

theorem isBound_arms {arms : List Arm} : ∀ l ∈ arms.map Arm.line, isBound l = false := by
  intro l hl
  obtain ⟨a, -, rfl⟩ := List.mem_map.mp hl
  exact isBound_comma _

theorem isBound_passage {cs : List Char} {b : Bool} (h : isBound (cs.flatMap meant) = b) :
    isBound (passage [String.ofList cs]) = b := by
  rw [passage_singleton]
  exact h

theorem not_mem_passage {cs : List Char} (h : 10 ∉ cs.flatMap meant) : 10 ∉ passage [String.ofList cs] := by
  rw [passage_singleton]
  exact h

theorem isBound_matchSelf : isBound matchSelf = true := isBound_passage rfl

theorem isBound_matchValue : isBound matchValue = true := isBound_passage rfl

theorem isBound_matchEnd : isBound matchEnd = true := isBound_passage rfl

theorem isBound_headLines (e : EnumDef) : ∀ l ∈ headLines e, isBound l = false := by
  intro l hl
  simp only [headLines, List.mem_append, List.mem_cons, List.mem_map, List.not_mem_nil, or_false] at hl
  rcases hl with (((rfl | hremark) | rfl | rfl) | ⟨m, -, rfl⟩) | rfl | rfl | rfl | rfl | rfl
  · rfl
  · split at hremark
    next => cases hremark
    next =>
      rw [List.mem_singleton.mp hremark]
      rfl
  · rfl
  · rfl
  · exact isBound_comma _
  · rfl
  · rfl
  · rfl
  · rfl
  · rfl

theorem isBound_middleLines : ∀ l ∈ middleLines, isBound l = false := by
  simp only [middleLines, List.forall_mem_cons]
  exact ⟨isBound_passage rfl, isBound_passage rfl, isBound_passage rfl, isBound_passage rfl, isBound_passage rfl,
    List.forall_mem_nil _⟩

theorem not_mem_middleLines : ∀ l ∈ middleLines, 10 ∉ l := by
  simp only [middleLines, List.forall_mem_cons]
  exact ⟨not_mem_passage (by decide), not_mem_passage (by decide), not_mem_passage (by decide),
    not_mem_passage (by decide), not_mem_passage (by decide), List.forall_mem_nil _⟩

theorem not_mem_of_isBound {t : Text} {ls : List Text} (ht : isBound t = true) (h : ∀ l ∈ ls, isBound l = false) :
    t ∉ ls := by
  intro hin
  rw [h t hin] at ht
  cases ht

theorem splitOn_lines {ls : List Text} (h : ∀ l ∈ ls, 10 ∉ l) (rest : Text) :
    Text.splitOn 10 (ls.flatMap (10 :: ·) ++ 10 :: rest) = [] :: ls ++ Text.splitOn 10 rest := by
  cases ls with
  | nil => exact Text.splitOn_cons_self 10 rest
  | cons l ls =>
    have hjoin : (l :: ls).flatMap (10 :: ·) = 10 :: Text.join [10] (l :: ls) := by
      rw [Text.join_cons, List.flatMap_cons]
      rfl
    rw [hjoin, List.cons_append, Text.splitOn_cons_self, Text.splitOn_append, Text.splitOn_join (List.cons_ne_nil _ _) h]
    rfl

theorem between_eq {opening closing : Text} {before body after : List Text} (hbefore : opening ∉ before)
    (hbody : closing ∉ body) :
    ((before ++ opening :: body ++ closing :: after).dropWhile (· != opening)).tail.takeWhile (· != closing) = body := by
  have hskip : ∀ l ∈ before, (l != opening) = true := by
    intro l hl
    exact bne_iff_ne.mpr (ne_of_mem_of_not_mem hl hbefore)
  have htake : ∀ l ∈ body, (l != closing) = true := by
    intro l hl
    exact bne_iff_ne.mpr (ne_of_mem_of_not_mem hl hbody)
  rw [List.append_assoc, List.dropWhile_append_of_pos hskip]
  simp [List.takeWhile_append_of_pos htake]

section

variable {e : EnumDef} (h : Legible e)

include h

theorem Legible.not_mem_identifier {b : UInt8} (hb : b = 10 ∨ b = 61) {name : Text}
    (hname : name ∈ e.name :: e.values.map (·.name)) : b ∉ Naming.identifier name := by
  rcases hb with rfl | rfl
  · exact Naming.not_mem_identifier (by decide) (h name hname).1
  · exact Naming.not_mem_identifier (by decide) (h name hname).2

theorem Legible.not_mem_name {b : UInt8} (hb : b = 10 ∨ b = 61) : b ∉ Naming.identifier e.name :=
  h.not_mem_identifier hb List.mem_cons_self

theorem Legible.not_mem_member {b : UInt8} (hb : b = 10 ∨ b = 61) {m : EnumMember} (hm : m ∈ e.values) :
    b ∉ Naming.identifier m.name :=
  h.not_mem_identifier hb (List.mem_cons_of_mem _ (List.mem_map.mpr ⟨m, hm, rfl⟩))

theorem Legible.not_mem_memberPath {b : UInt8} (hb : b = 10 ∨ b = 61) {m : EnumMember} (hm : m ∈ e.values) :
    b ∉ memberPath e m := by
  have hcolons : b ∉ Text.ofString "::" := by
    rcases hb with rfl | rfl <;> decide
  simp [memberPath, h.not_mem_name hb, h.not_mem_member hb hm, hcolons]

theorem Legible.not_mem_headLines : ∀ l ∈ headLines e, 10 ∉ l := by
  intro l hl
  simp only [headLines, List.mem_append, List.mem_cons, List.mem_map, List.not_mem_nil, or_false] at hl
  have hname := h.not_mem_name (.inl rfl)
  have hbrace : 10 ∉ passage [" ⦃"] := by decide
  rcases hl with (((rfl | hremark) | rfl | rfl) | ⟨m, hm, rfl⟩) | rfl | rfl | rfl | rfl | rfl
  · exact List.not_mem_nil
  · split at hremark
    next => cases hremark
    next =>
      have hmark : 10 ∉ Text.ofString "/// " := by decide
      rw [List.mem_singleton.mp hremark]
      simp [hmark, not_mem_oneLine]
  · decide
  · have hpub : 10 ∉ Text.ofString "pub enum " := by decide
    simp [hpub, hname, hbrace]
  · have hmargin : 10 ∉ Text.ofString "    " := by decide
    have hcomma : 10 ∉ Text.ofString "," := by decide
    simp [hmargin, hcomma, h.not_mem_member (.inl rfl) hm]
  · decide
  · exact List.not_mem_nil
  · have himpl : 10 ∉ Text.ofString "impl " := by decide
    simp [himpl, hname, hbrace]
  · exact not_mem_passage (by decide)
  · exact not_mem_passage (by decide)

theorem Legible.not_mem_valueArms : ∀ l ∈ matchLines matchSelf (valueArms e), 10 ∉ l := by
  intro l hl
  simp only [matchLines, valueArms, List.map_map, List.mem_append, List.mem_cons, List.mem_map, List.not_mem_nil,
    or_false] at hl
  rcases hl with (rfl | ⟨m, hm, rfl⟩) | rfl
  · exact not_mem_passage (by decide)
  · exact Arm.not_mem_line (h.not_mem_memberPath (.inl rfl) hm) (Text.not_mem_ofInt (by decide) _)
  · exact not_mem_passage (by decide)

theorem Legible.not_mem_memberArms : ∀ l ∈ matchLines matchValue (memberArms e), 10 ∉ l := by
  intro l hl
  simp only [matchLines, memberArms, List.map_append, List.map_map, List.map_cons, List.map_nil, List.mem_append,
    List.mem_cons, List.mem_map, List.not_mem_nil, or_false] at hl
  rcases hl with (rfl | ⟨m, hm, rfl⟩ | rfl) | rfl
  · exact not_mem_passage (by decide)
  · have hopen : 10 ∉ Text.ofString "Some(" := by decide
    have hclose : 10 ∉ Text.ofString ")" := by decide
    apply Arm.not_mem_line (Text.not_mem_ofInt (by decide) _)
    simp [memberArm, hopen, hclose, h.not_mem_memberPath (.inl rfl) hm]
  · exact Arm.not_mem_line (by decide) (by decide)
  · exact not_mem_passage (by decide)

theorem Legible.splitOn_enumBlock : ∃ rest, Text.splitOn 10 (enumBlock e) =
    [] :: (headLines e ++ matchLines matchSelf (valueArms e) ++ middleLines ++ matchLines matchValue (memberArms e)) ++
      rest := by
  obtain ⟨rest, hblock⟩ := enumBlock_lines e
  refine ⟨Text.splitOn 10 rest, ?_⟩
  rw [hblock]
  apply splitOn_lines
  intro l hl
  simp only [List.mem_append] at hl
  rcases hl with ((hl | hl) | hl) | hl
  · exact h.not_mem_headLines l hl
  · exact h.not_mem_valueArms l hl
  · exact not_mem_middleLines l hl
  · exact h.not_mem_memberArms l hl

theorem Legible.arms?_matchSelf : arms? matchSelf (enumBlock e) = some (valueArms e) := by
  obtain ⟨rest, hlines⟩ := h.splitOn_enumBlock
  have hsplit : Text.splitOn 10 (enumBlock e) = ([] :: headLines e) ++ matchSelf :: (valueArms e).map Arm.line ++
      matchEnd :: (middleLines ++ matchLines matchValue (memberArms e) ++ rest) := by
    rw [hlines]
    simp [matchLines]
  rw [arms?, hsplit, between_eq, Arm.mapM_read?]
  · intro a ha
    obtain ⟨m, hm, rfl⟩ := List.mem_map.mp ha
    exact h.not_mem_memberPath (.inr rfl) hm
  · apply not_mem_of_isBound isBound_matchSelf
    intro l hl
    rcases List.mem_cons.mp hl with rfl | hl
    · rfl
    · exact isBound_headLines e l hl
  · exact not_mem_of_isBound isBound_matchEnd isBound_arms

theorem Legible.arms?_matchValue : arms? matchValue (enumBlock e) = some (memberArms e) := by
  obtain ⟨rest, hlines⟩ := h.splitOn_enumBlock
  have hsplit : Text.splitOn 10 (enumBlock e) =
      ([] :: headLines e ++ matchLines matchSelf (valueArms e) ++ middleLines) ++
        matchValue :: (memberArms e).map Arm.line ++ matchEnd :: rest := by
    rw [hlines]
    simp [matchLines]
  rw [arms?, hsplit, between_eq, Arm.mapM_read?]
  · intro a ha
    rcases List.mem_append.mp ha with ha | ha
    · obtain ⟨m, -, rfl⟩ := List.mem_map.mp ha
      exact Text.not_mem_ofInt (by decide) _
    · rw [List.mem_singleton.mp ha]
      decide
  · -- both openings can open a match, so they are told apart by their texts
    have hnil : matchValue ≠ [] := by decide
    have hself : matchValue ≠ matchSelf := by decide
    have hend : matchValue ≠ matchEnd := by decide
    have hhead : matchValue ∉ headLines e := not_mem_of_isBound isBound_matchValue (isBound_headLines e)
    have hmiddle : matchValue ∉ middleLines := not_mem_of_isBound isBound_matchValue isBound_middleLines
    have harms : matchValue ∉ (valueArms e).map Arm.line := not_mem_of_isBound isBound_matchValue isBound_arms
    simp only [matchLines, List.mem_append, List.mem_cons, List.not_mem_nil, hnil, hhead, hself, harms, hend, hmiddle,
      or_self, not_false_eq_true]
  · exact not_mem_of_isBound isBound_matchEnd isBound_arms

end

/-! ## The two functions -/

section

variable {e : EnumDef} (hnonneg : ∀ m ∈ e.values, 0 ≤ m.value.toInt)

include hnonneg

theorem value?_valueArms (p : Text) :
    value? (valueArms e) p = (e.values.find? fun m => memberPath e m == p).map (·.value) := by
  rw [value?, valueArms, List.find?_map]
  cases hfind : e.values.find? ((fun a : Arm => a.pattern == p) ∘ valueArm e) with
  | none => exact congrArg (Option.map EnumMember.value) hfind.symm
  | some m =>
    have hliteral := literal?_ofInt (hnonneg m (List.mem_of_find?_eq_some hfind))
    exact hliteral.trans (congrArg (Option.map EnumMember.value) hfind.symm)

theorem fromValue?_memberArms (v : Int32) :
    fromValue? (memberArms e) v = some ((e.values.find? fun m => m.value == v).map (memberPath e)) := by
  have htest : e.values.find? ((fun a : Arm => a.pattern == Text.ofString "_" || literal? a.pattern == some v) ∘
      memberArm e) = e.values.find? fun m => m.value == v := by
    rw [← List.head?_filter, ← List.head?_filter]
    refine congrArg List.head? (List.filter_congr fun m hm => ?_)
    have hother : (Text.ofInt m.value.toInt == Text.ofString "_") = false := by
      apply beq_eq_false_iff_ne.mpr
      intro heq
      have hin : 95 ∈ Text.ofString "_" := by decide
      rw [← heq] at hin
      exact Text.not_mem_ofInt (by decide) _ hin
    have hliteral := literal?_ofInt (hnonneg m hm)
    simp [memberArm, hother, hliteral]
  rw [fromValue?, memberArms, List.find?_append, List.find?_map, htest]
  cases e.values.find? fun m => m.value == v with
  | none => rfl
  | some m => exact reply?_some (memberPath e m)

end

end Render

end RpcBindings
