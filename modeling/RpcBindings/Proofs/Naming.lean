import Mathlib.Data.List.Basic
import RpcBindings.Naming

/-!
# The bytes of converted names

A converted name is made of small letters, digits and underscores. The small form of a letter is an ASCII character only
if it is a small ASCII letter, so a converted name holds no ASCII sign that has a meaning in paths or in types.
-/

namespace RpcBindings

namespace Alphabet

theorem Shift.apply_cases (l : List Shift) (n : Nat) :
    Shift.apply l n = n ∨ ∃ s ∈ l, s.domain.covers n = true ∧ Shift.apply l n = (Int.ofNat n + s.distance).toNat := by
  induction l with
  | nil => exact .inl rfl
  | cons s rest ih =>
    simp only [Shift.apply]
    split_ifs with hbelow hcovers
    · exact .inl rfl
    · exact .inr ⟨s, List.mem_cons_self, hcovers, rfl⟩
    · rcases ih with h | ⟨s', hs', hcovers', h⟩
      · exact .inl h
      · exact .inr ⟨s', List.mem_cons_of_mem s hs', hcovers', h⟩

/-- Where the table of small forms leads: to code points of characters, and from beyond ASCII to `i`, `k` or beyond
ASCII. -/
theorem shifts_range : ∀ s ∈ shifts,
    (0 ≤ s.domain.first + s.distance) ∧
    (s.domain.last + s.distance < 0xD800 ∨ 0xE000 ≤ s.domain.first + s.distance) ∧
    s.domain.last + s.distance < 0x110000 ∧
    (s.domain.last < 128 ∨ 128 ≤ s.domain.first + s.distance ∨
      s.domain.first = s.domain.last ∧
        (s.domain.first + s.distance = 105 ∨ s.domain.first + s.distance = 107)) := by
  decide +kernel

theorem Shift.apply_isValidChar {n : Nat} (h : n.isValidChar) : (Shift.apply shifts n).isValidChar := by
  rcases Shift.apply_cases shifts n with heq | ⟨s, hs, hcovers, heq⟩
  · rwa [heq]
  · obtain ⟨hnonneg, hgap, hbound, -⟩ := shifts_range s hs
    simp only [Stretch.covers, Bool.and_eq_true, decide_eq_true_eq] at hcovers
    rw [heq]
    unfold Nat.isValidChar
    simp only [Int.ofNat_eq_natCast]
    omega

theorem lower_toNat (c : Char) : (lower c).toNat = Shift.apply shifts c.toNat := by
  have hvalid : (Shift.apply shifts c.toNat).isValidChar := Shift.apply_isValidChar c.valid
  rw [lower, Char.ofNat, dif_pos hvalid]
  rfl

theorem lower_ascii : ∀ n < 128, (Stretch.anyCovers letters n || Stretch.anyCovers digits n) = true →
    97 ≤ Shift.apply shifts n ∧ Shift.apply shifts n ≤ 122 ∨ 48 ≤ Shift.apply shifts n ∧ Shift.apply shifts n ≤ 57 := by
  decide +kernel

end Alphabet

namespace Naming

open Alphabet

theorem lower_wordChar {c : Char} (h : isWordChar c = true) :
    128 ≤ (lower c).toNat ∨ 97 ≤ (lower c).toNat ∧ (lower c).toNat ≤ 122 ∨
      48 ≤ (lower c).toNat ∧ (lower c).toNat ≤ 57 := by
  rw [lower_toNat]
  by_cases hascii : c.toNat < 128
  · exact .inr (lower_ascii c.toNat hascii h)
  · rcases Shift.apply_cases shifts c.toNat with heq | ⟨s, hs, hcovers, heq⟩
    · rw [heq]
      omega
    · obtain ⟨-, -, -, hrange⟩ := shifts_range s hs
      simp only [Stretch.covers, Bool.and_eq_true, decide_eq_true_eq] at hcovers
      rw [heq]
      simp only [Int.ofNat_eq_natCast]
      omega

theorem lower_ne_underscore {c : Char} (h : isWordChar c = true) : lower c ≠ '_' := by
  intro heq
  have hrange := lower_wordChar h
  rw [heq] at hrange
  revert hrange
  decide

def isPlainByte (b : UInt8) : Bool :=
  128 ≤ b.toNat || (97 ≤ b.toNat && b.toNat ≤ 122) || (48 ≤ b.toNat && b.toNat ≤ 57) || b.toNat == 95

theorem isPlainByte_of_mem_ofChar {c : Char} {b : UInt8} (hb : b ∈ Text.ofChar c)
    (hc : 128 ≤ c.toNat ∨ 97 ≤ c.toNat ∧ c.toNat ≤ 122 ∨ 48 ≤ c.toNat ∧ c.toNat ≤ 57 ∨ c.toNat = 95) :
    isPlainByte b = true := by
  have hval : c.val.toNat = c.toNat := rfl
  simp only [Text.ofChar, String.utf8EncodeChar, hval] at hb
  split_ifs at hb <;> simp only [List.mem_cons, List.not_mem_nil, or_false] at hb
  · subst hb
    simp only [isPlainByte, UInt8.toNat_ofNat', Bool.or_eq_true, Bool.and_eq_true, decide_eq_true_eq, beq_iff_eq]
    omega
  all_goals
    -- every byte of a longer encoding has its highest bit set
    rcases hb with rfl | rfl | rfl | rfl <;>
      simp only [isPlainByte, UInt8.toNat_ofNat', Bool.or_eq_true, Bool.and_eq_true, decide_eq_true_eq, beq_iff_eq] <;>
      omega

theorem mem_snakeFrom {cs : List Char} : ∀ {before : Option Char} {started apart : Bool} {d : Char},
    d ∈ snakeFrom before started apart cs → d = '_' ∨ ∃ c ∈ cs, isWordChar c = true ∧ d = lower c := by
  induction cs with
  | nil => intro before started apart d h; cases h
  | cons c rest ih =>
    intro before started apart d h
    have hrest : ∀ {before started apart}, d ∈ snakeFrom before started apart rest →
        d = '_' ∨ ∃ c' ∈ c :: rest, isWordChar c' = true ∧ d = lower c' := fun hd =>
      (ih hd).imp id fun ⟨c', hc', hrest⟩ => ⟨c', List.mem_cons_of_mem c hc', hrest⟩
    simp only [snakeFrom] at h
    split_ifs at h with hword hapart
    · rcases List.mem_cons.mp h with rfl | h
      · exact .inl rfl
      · rcases List.mem_cons.mp h with rfl | h
        · exact .inr ⟨c, List.mem_cons_self, hword, rfl⟩
        · exact hrest h
    · rcases List.mem_cons.mp h with rfl | h
      · exact .inr ⟨c, List.mem_cons_self, hword, rfl⟩
      · exact hrest h
    · exact hrest h

theorem isPlainByte_of_mem_snakeCase {name : Text} {b : UInt8} (h : b ∈ snakeCase name) : isPlainByte b = true := by
  obtain ⟨d, hd, hb⟩ := List.mem_flatMap.mp h
  refine isPlainByte_of_mem_ofChar hb ?_
  rcases mem_snakeFrom hd with rfl | ⟨c, -, hword, rfl⟩
  · decide
  · rcases lower_wordChar hword with h | h | h
    · exact .inl h
    · exact .inr (.inl h)
    · exact .inr (.inr (.inl h))

theorem not_mem_snakeCase {b : UInt8} (hb : isPlainByte b = false) (name : Text) : b ∉ snakeCase name := by
  intro hin
  rw [isPlainByte_of_mem_snakeCase hin] at hb
  cases hb

end Naming

end RpcBindings
