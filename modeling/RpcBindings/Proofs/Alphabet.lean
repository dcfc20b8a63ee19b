import Mathlib.Data.List.Chain
import RpcBindings.Proofs.Naming

/-!
# How the tables of characters lie to each other

A set of code points is written as a number whose bits are its members, so that two tables are compared by one operation
on numbers. Small letters and capitals are letters. No small letter and no digit is a capital, or has a small form other
than itself; and where a letter has one, that form is a small letter.
-/

namespace RpcBindings.Alphabet

namespace Stretch

def bitsBelow (s : Stretch) : (count : Nat) → Nat
  | 0 => 0
  | n + 1 => if s.covers (s.first + n) then s.bitsBelow n ||| 1 <<< (s.first + n) else s.bitsBelow n

def bits (s : Stretch) : Nat :=
  if s.step = 1 then (1 <<< (s.last + 1 - s.first) - 1) <<< s.first else s.bitsBelow (s.last + 1 - s.first)

theorem covers_iff {s : Stretch} {n : Nat} :
    s.covers n = true ↔ s.first ≤ n ∧ n ≤ s.last ∧ (n - s.first) % s.step = 0 := by
  simp [covers, and_assoc]

theorem first_le_of_covers {s : Stretch} {n : Nat} (h : s.covers n = true) : s.first ≤ n := by
  rw [covers_iff] at h
  exact h.1

theorem testBit_bitsBelow (s : Stretch) (count n : Nat) :
    (s.bitsBelow count).testBit n = true ↔ n < s.first + count ∧ s.covers n = true := by
  induction count with
  | zero =>
    simp only [bitsBelow, Nat.zero_testBit, Nat.add_zero, Bool.false_eq_true, false_iff, covers_iff]
    omega
  | succ k ih =>
    -- the last place is either the one asked for, or it makes no difference
    have hlast : n < s.first + (k + 1) ↔ n < s.first + k ∨ s.first + k = n := by omega
    rw [bitsBelow, hlast]
    split
    next hcovers =>
      rw [Nat.testBit_or, Bool.or_eq_true, ih, Nat.one_shiftLeft, Nat.testBit_two_pow, decide_eq_true_eq]
      grind
    next hcovers =>
      rw [ih]
      grind

theorem testBit_bits (s : Stretch) (n : Nat) : s.bits.testBit n = true ↔ s.covers n = true := by
  unfold bits
  split
  next hstep =>
    rw [Nat.testBit_shiftLeft, Nat.one_shiftLeft, Nat.testBit_two_pow_sub_one, covers_iff, hstep, Nat.mod_one]
    simp only [Bool.and_eq_true, decide_eq_true_eq, and_true]
    omega
  next =>
    rw [testBit_bitsBelow, and_iff_right_iff_imp, covers_iff]
    omega

def members : List Stretch → Nat
  | [] => 0
  | s :: rest => s.bits ||| members rest

theorem testBit_members (l : List Stretch) (n : Nat) :
    (members l).testBit n = true ↔ ∃ s ∈ l, s.covers n = true := by
  induction l with
  | nil => simp [members]
  | cons s rest ih => simp [members, ih, testBit_bits]

theorem testBit_of_anyCovers {l : List Stretch} {n : Nat} (h : anyCovers l n = true) : (members l).testBit n = true := by
  rw [testBit_members]
  induction l with
  | nil => cases h
  | cons s rest ih =>
    rw [anyCovers] at h
    split at h
    next => cases h
    next =>
      rcases Bool.or_eq_true _ _ ▸ h with h | h
      · exact ⟨s, List.mem_cons_self, h⟩
      · obtain ⟨t, ht, hcovers⟩ := ih h
        exact ⟨t, List.mem_cons_of_mem s ht, hcovers⟩

theorem anyCovers_of_mem {l : List Stretch} (hl : l.Pairwise fun s t => s.first ≤ t.first) {t : Stretch} (ht : t ∈ l)
    {n : Nat} (h : t.covers n = true) : anyCovers l n = true := by
  induction l with
  | nil => cases ht
  | cons s rest ih =>
    have hfirst : t.first ≤ n := first_le_of_covers h
    rw [List.pairwise_cons] at hl
    rw [anyCovers]
    rcases List.mem_cons.mp ht with rfl | ht
    · rw [if_neg (by omega), h, Bool.true_or]
    · have hle : s.first ≤ t.first := hl.1 t ht
      rw [if_neg (by omega), ih hl.2 ht, Bool.or_true]

theorem testBit_of_subset {l l' : List Stretch} (hl : l ⊆ l') {n : Nat} (h : anyCovers l n = true) :
    (members l').testBit n = true := by
  obtain ⟨s, hs, hcovers⟩ := (testBit_members l n).mp (testBit_of_anyCovers h)
  exact (testBit_members l' n).mpr ⟨s, hl hs, hcovers⟩

theorem not_testBit_of_apart {l : List Stretch} {bits n : Nat} (hapart : bits &&& members l = 0)
    (hn : bits.testBit n = true) : ¬ (members l).testBit n = true := by
  intro hin
  have hbit := congrArg (Nat.testBit · n) hapart
  simp [hn, hin] at hbit

theorem anyCovers_eq_false {l l' : List Stretch} (hl : l ⊆ l') {bits n : Nat} (hapart : bits &&& members l' = 0)
    (hn : bits.testBit n = true) : anyCovers l n = false := by
  by_contra h
  exact not_testBit_of_apart hapart hn (testBit_of_subset hl (Bool.not_eq_false _ ▸ h))

theorem anyCovers_of_testBit {l : List Stretch} (hl : (l.map first).IsChain (· ≤ ·)) {bits n : Nat}
    (hin : bits &&& members l = bits) (hn : bits.testBit n = true) : anyCovers l n = true := by
  rw [← hin, Nat.testBit_and, Bool.and_eq_true, testBit_members] at hn
  obtain ⟨-, t, ht, hcovers⟩ := hn
  exact anyCovers_of_mem (List.pairwise_map.mp (List.isChain_iff_pairwise.mp hl)) ht hcovers

end Stretch

namespace Shift

def movedBits (set : Nat) (s : Shift) : Nat :=
  match s.distance with
  | .ofNat d => (set &&& s.domain.bits) <<< d
  | .negSucc d => (set &&& s.domain.bits) >>> (d + 1)

def allMovedBits (set : Nat) : List Shift → Nat
  | [] => 0
  | s :: rest => s.movedBits set ||| allMovedBits set rest

theorem testBit_movedBits {set : Nat} {s : Shift} {n : Nat} (hset : set.testBit n = true)
    (hcovers : s.domain.covers n = true) (hdown : 0 ≤ n + s.distance) :
    (s.movedBits set).testBit (n + s.distance).toNat = true := by
  have hboth : (set &&& s.domain.bits).testBit n = true := by
    rw [Nat.testBit_and, hset, (s.domain.testBit_bits n).mpr hcovers]
    rfl
  unfold movedBits
  split
  next d hd =>
    have hplace : (n + s.distance).toNat = n + d := by
      rw [hd, Int.ofNat_eq_natCast]
      omega
    rw [hplace, Nat.testBit_shiftLeft, Nat.add_sub_cancel, hboth]
    simp
  next d hd =>
    have hplace : d + 1 + (n + s.distance).toNat = n := by
      rw [Int.negSucc_eq] at hd
      omega
    rw [Nat.testBit_shiftRight, hplace, hboth]

theorem testBit_allMovedBits {set k : Nat} {l : List Shift} {s : Shift} (hs : s ∈ l)
    (h : (s.movedBits set).testBit k = true) : (allMovedBits set l).testBit k = true := by
  induction l with
  | nil => cases hs
  | cons t rest ih =>
    rw [allMovedBits, Nat.testBit_or, Bool.or_eq_true]
    rcases List.mem_cons.mp hs with rfl | hs
    · exact .inl h
    · exact .inr (ih hs)

def domains : List Stretch := shifts.map (·.domain)

theorem apply_of_apart {l : List Stretch} (hl : domains ⊆ l) {bits n : Nat} (hapart : bits &&& Stretch.members l = 0)
    (hn : bits.testBit n = true) : apply shifts n = n := by
  rcases apply_cases shifts n with h | ⟨s, hs, hcovers, -⟩
  · exact h
  · have hin := (Stretch.testBit_members l n).mpr ⟨s.domain, hl (List.mem_map_of_mem hs), hcovers⟩
    exact absurd hin (Stretch.not_testBit_of_apart hapart hn)

end Shift

open Stretch Shift

/-- How the tables lie to each other. Roman numerals and letters in circles have small forms too, but neither they nor
these are letters. -/
theorem tables_fit :
    (∀ table ∈ [letters, smalls], (table.map first).IsChain (· ≤ ·)) ∧
    members (smalls ++ capitals) &&& members letters = members (smalls ++ capitals) ∧
    members (smalls ++ digits) &&& members (capitals ++ domains) = 0 ∧
    allMovedBits (members letters) shifts &&& members smalls = allMovedBits (members letters) shifts := by
  decide +kernel

theorem tables_ascending : ∀ table ∈ [letters, smalls], (table.map first).IsChain (· ≤ ·) := tables_fit.1

theorem cased_letters : members (smalls ++ capitals) &&& members letters = members (smalls ++ capitals) := tables_fit.2.1

theorem smalls_digits_apart : members (smalls ++ digits) &&& members (capitals ++ domains) = 0 := tables_fit.2.2.1

theorem moved_smalls :
    allMovedBits (members letters) shifts &&& members smalls = allMovedBits (members letters) shifts := tables_fit.2.2.2

section

variable {c : Char}

theorem isLetter_of_isLower (h : isLower c = true) : isLetter c = true :=
  anyCovers_of_testBit (tables_ascending letters (by simp)) cased_letters
    (testBit_of_subset (List.subset_append_left _ _) h)

theorem isLetter_of_isUpper (h : isUpper c = true) : isLetter c = true :=
  anyCovers_of_testBit (tables_ascending letters (by simp)) cased_letters
    (testBit_of_subset (List.subset_append_right _ _) h)

theorem isUpper_of_isLower (h : isLower c = true) : isUpper c = false :=
  anyCovers_eq_false (List.subset_append_left _ _) smalls_digits_apart
    (testBit_of_subset (List.subset_append_left _ _) h)

theorem isUpper_of_isDigit (h : isDigit c = true) : isUpper c = false :=
  anyCovers_eq_false (List.subset_append_left _ _) smalls_digits_apart
    (testBit_of_subset (List.subset_append_right _ _) h)

theorem lower_of_apply (h : Shift.apply shifts c.toNat = c.toNat) : lower c = c :=
  Char.toNat_inj.mp ((lower_toNat c).trans h)

theorem lower_of_isLower (h : isLower c = true) : lower c = c :=
  lower_of_apply (apply_of_apart (List.subset_append_right _ _) smalls_digits_apart
    (testBit_of_subset (List.subset_append_left _ _) h))

theorem lower_of_isDigit (h : isDigit c = true) : lower c = c :=
  lower_of_apply (apply_of_apart (List.subset_append_right _ _) smalls_digits_apart
    (testBit_of_subset (List.subset_append_right _ _) h))

theorem lower_or_isLower (h : isLetter c = true) : lower c = c ∨ isLower (lower c) = true := by
  rcases apply_cases shifts c.toNat with heq | ⟨s, hs, hcovers, heq⟩
  · exact .inl (lower_of_apply heq)
  · right
    have hdown : 0 ≤ (c.toNat : Int) + s.distance := by
      have hfirst := first_le_of_covers hcovers
      have hrange := (shifts_range s hs).1
      omega
    have hmoved := testBit_movedBits (testBit_of_anyCovers h) hcovers hdown
    rw [isLower, lower_toNat, heq]
    exact anyCovers_of_testBit (tables_ascending smalls (by simp)) moved_smalls (testBit_allMovedBits hs hmoved)

end

end RpcBindings.Alphabet
