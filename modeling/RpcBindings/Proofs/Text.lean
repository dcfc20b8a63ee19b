import Mathlib.Data.List.TakeWhile
import RpcBindings.Text.Basic

/-!
# Cutting and joining texts

Facts on the operations that take texts apart. Cutting at a byte gives the one way to write a text as a beginning
without that byte, the byte, and the rest.
-/

namespace RpcBindings.Text

theorem takeWhile_append_cons {sep : UInt8} {lead rest : Text} (h : sep ∉ lead) :
    (lead ++ sep :: rest).takeWhile (· != sep) = lead ∧ (lead ++ sep :: rest).dropWhile (· != sep) = sep :: rest := by
  have hlead : ∀ b ∈ lead, (b != sep) = true := by
    intro b hb
    simpa using fun heq : b = sep => h (heq ▸ hb)
  constructor
  · rw [List.takeWhile_append_of_pos hlead]
    simp
  · rw [List.dropWhile_append_of_pos hlead]
    simp

theorem cut?_eq_some_iff {sep : UInt8} {t lead rest : Text} :
    cut? sep t = some (lead, rest) ↔ t = lead ++ sep :: rest ∧ sep ∉ lead := by
  constructor
  · intro h
    unfold cut? at h
    split at h
    next => cases h
    next b tail hdrop =>
      obtain ⟨rfl, rfl⟩ : t.takeWhile (· != sep) = lead ∧ tail = rest := by simpa using h
      have hb : b = sep := by
        have hhead := List.head?_dropWhile_not (· != sep) t
        rw [hdrop] at hhead
        simpa using hhead
      refine ⟨?_, fun hin => ?_⟩
      · subst hb
        rw [← hdrop, List.takeWhile_append_dropWhile]
      · simpa using List.mem_takeWhile_imp hin
  · rintro ⟨rfl, hlead⟩
    simp [cut?, takeWhile_append_cons hlead]

theorem cut?_eq_none {sep : UInt8} {t : Text} (h : sep ∉ t) : cut? sep t = none := by
  cases hcut : cut? sep t with
  | none => rfl
  | some parts =>
    obtain ⟨lead, rest⟩ := parts
    rw [cut?_eq_some_iff] at hcut
    exact absurd (by simp [hcut]) h

/-! ## Cutting at every occurrence -/

theorem splitWhere_cons {p : UInt8 → Bool} {b : UInt8} {t piece : Text} {rest : List Text}
    (h : splitWhere p t = piece :: rest) :
    splitWhere p (b :: t) = if p b then [] :: piece :: rest else (b :: piece) :: rest := by
  rw [splitWhere] at h ⊢
  rw [List.foldr_cons, h]

theorem splitWhere_ne_nil (p : UInt8 → Bool) (t : Text) : splitWhere p t ≠ [] := by
  induction t with
  | nil => exact List.cons_ne_nil _ _
  | cons b t ih =>
    obtain ⟨piece, rest, h⟩ := List.exists_cons_of_ne_nil ih
    rw [splitWhere_cons h]
    split
    next => exact List.cons_ne_nil _ _
    next => exact List.cons_ne_nil _ _

theorem of_mem_splitWhere {p : UInt8 → Bool} {t piece : Text} (h : piece ∈ splitWhere p t) :
    ∀ b ∈ piece, b ∈ t ∧ p b = false := by
  induction t generalizing piece with
  | nil =>
    obtain rfl : piece = [] := List.mem_singleton.mp h
    simp
  | cons a t ih =>
    obtain ⟨first, rest, hcut⟩ := List.exists_cons_of_ne_nil (splitWhere_ne_nil p t)
    rw [hcut] at ih
    rw [splitWhere_cons hcut] at h
    intro b hb
    grind

theorem splitWhere_append {p : UInt8 → Bool} {b : UInt8} (hb : p b = true) (a c : Text) :
    splitWhere p (a ++ b :: c) = splitWhere p a ++ splitWhere p c := by
  induction a with
  | nil =>
    obtain ⟨piece, rest, h⟩ := List.exists_cons_of_ne_nil (splitWhere_ne_nil p c)
    rw [List.nil_append, splitWhere_cons h, if_pos hb, h]
    rfl
  | cons d a ih =>
    obtain ⟨piece, rest, h⟩ := List.exists_cons_of_ne_nil (splitWhere_ne_nil p a)
    rw [h, List.cons_append] at ih
    rw [List.cons_append, splitWhere_cons ih, splitWhere_cons h]
    split
    next => rfl
    next => rfl

theorem splitWhere_of_none {p : UInt8 → Bool} {t : Text} (h : ∀ b ∈ t, p b = false) : splitWhere p t = [t] := by
  induction t with
  | nil => rfl
  | cons b t ih =>
    have hrest := ih fun c hc => h c (List.mem_cons_of_mem b hc)
    rw [splitWhere_cons hrest, h b List.mem_cons_self]
    rfl

theorem splitOn_ne_nil (sep : UInt8) (t : Text) : splitOn sep t ≠ [] := splitWhere_ne_nil _ t

theorem splitOn_cons {sep b : UInt8} {t piece : Text} {rest : List Text} (h : splitOn sep t = piece :: rest) :
    splitOn sep (b :: t) = if b = sep then [] :: piece :: rest else (b :: piece) :: rest := by
  have hcut : splitOn sep (b :: t) = _ := splitWhere_cons h
  simpa only [beq_iff_eq] using hcut

theorem splitOn_cons_self (sep : UInt8) (t : Text) : splitOn sep (sep :: t) = [] :: splitOn sep t := by
  obtain ⟨piece, rest, h⟩ := List.exists_cons_of_ne_nil (splitOn_ne_nil sep t)
  rw [splitOn_cons h, if_pos rfl, h]

theorem splitOn_append (sep : UInt8) (a b : Text) : splitOn sep (a ++ sep :: b) = splitOn sep a ++ splitOn sep b :=
  @splitWhere_append (· == sep) sep (beq_self_eq_true sep) a b

theorem splitOn_of_not_mem {sep : UInt8} {t : Text} (h : sep ∉ t) : splitOn sep t = [t] := by
  refine splitWhere_of_none fun b hb => ?_
  simpa using fun heq : b = sep => h (heq ▸ hb)

theorem splitOn_replicate (sep : UInt8) (n : Nat) : splitOn sep (List.replicate n sep) = List.replicate (n + 1) [] := by
  induction n with
  | zero => rfl
  | succ n ih => rw [List.replicate_succ, splitOn_cons_self, ih, ← List.replicate_succ]

theorem splitOn_append_replicate (sep : UInt8) (t : Text) (n : Nat) :
    splitOn sep (t ++ List.replicate n sep) = splitOn sep t ++ List.replicate n [] := by
  cases n with
  | zero => simp
  | succ n => rw [List.replicate_succ, splitOn_append, splitOn_replicate]

theorem not_mem_of_mem_splitOn {sep : UInt8} {t piece : Text} (h : piece ∈ splitOn sep t) : sep ∉ piece := by
  intro hin
  have hnot := (of_mem_splitWhere h sep hin).2
  simp at hnot

theorem splitOn_join {sep : UInt8} {pieces : List Text} (hne : pieces ≠ []) (h : ∀ piece ∈ pieces, sep ∉ piece) :
    splitOn sep (join [sep] pieces) = pieces := by
  induction pieces with
  | nil => exact absurd rfl hne
  | cons piece rest ih =>
    have hpiece := splitOn_of_not_mem (h piece List.mem_cons_self)
    cases rest with
    | nil => exact hpiece
    | cons next rest =>
      have hrest := ih (List.cons_ne_nil _ _) fun x hx => h x (List.mem_cons_of_mem _ hx)
      rw [join_cons_cons, List.append_assoc, List.singleton_append, splitOn_append, hpiece, hrest, List.singleton_append]

theorem join_splitOn (sep : UInt8) (t : Text) : join [sep] (splitOn sep t) = t := by
  induction t with
  | nil => rfl
  | cons b t ih =>
    obtain ⟨piece, rest, h⟩ := List.exists_cons_of_ne_nil (splitOn_ne_nil sep t)
    rw [h] at ih
    by_cases hb : b = sep
    · rw [splitOn_cons h, if_pos hb, join_cons_cons, ih, hb]
      rfl
    · rw [splitOn_cons h, if_neg hb]
      cases rest with
      | nil => exact congrArg (b :: ·) ih
      | cons next rest => exact congrArg (b :: ·) ih

theorem lines_append (a b : Text) : lines (a ++ 10 :: b) = splitOn 10 a ++ lines b := by
  have hlast := List.getLast?_eq_some_getLast (splitOn_ne_nil 10 b)
  unfold lines
  simp only [splitOn_append, List.getLast?_append, hlast, Option.some_or]
  split
  next => rw [List.dropLast_append_of_ne_nil (splitOn_ne_nil 10 b)]
  next => rfl

theorem join_cons (sep piece : Text) (pieces : List Text) :
    join sep (piece :: pieces) = piece ++ pieces.flatMap fun next => sep ++ next := by
  induction pieces generalizing piece with
  | nil => simp
  | cons next rest ih => simp [join_cons_cons, ih next]

theorem join_append (sep : Text) {front back : List Text} (hfront : front ≠ []) (hback : back ≠ []) :
    join sep (front ++ back) = join sep front ++ sep ++ join sep back := by
  obtain ⟨first, rest, rfl⟩ := List.exists_cons_of_ne_nil hfront
  obtain ⟨next, more, rfl⟩ := List.exists_cons_of_ne_nil hback
  simp [join_cons]

theorem isInfix_join {sep piece : Text} {pieces : List Text} (h : piece ∈ pieces) : piece <:+: join sep pieces := by
  obtain ⟨front, back, rfl⟩ := List.append_of_mem h
  cases front with
  | nil => exact ⟨[], _, (join_cons sep piece back).symm⟩
  | cons first front =>
    refine ⟨first ++ front.flatMap (sep ++ ·) ++ sep, back.flatMap (sep ++ ·), ?_⟩
    simp [join_cons]

theorem join_concat (sep piece : Text) {pieces : List Text} (hne : pieces ≠ []) :
    join sep (pieces ++ [piece]) = join sep pieces ++ sep ++ piece :=
  join_append sep hne (List.cons_ne_nil _ _)

theorem isDigit_of_mem_ofNat {n : Nat} {b : UInt8} (h : b ∈ ofNat n) : isDigit b = true := by
  obtain ⟨c, hc, rfl⟩ := List.mem_map.mp h
  have hdigit := Nat.isDigit_of_mem_toDigits (by decide) (by decide) hc
  simp only [Char.isDigit, Bool.and_eq_true, decide_eq_true_eq, ge_iff_le, UInt32.le_iff_toNat_le] at hdigit
  have hlow : 48 ≤ c.toNat := hdigit.1
  have hhigh : c.toNat ≤ 57 := hdigit.2
  have hbyte : c.toNat.toUInt8.toNat = c.toNat := by
    rw [Nat.toUInt8_eq, UInt8.toNat_ofNat']
    omega
  simp only [isDigit, Bool.and_eq_true, decide_eq_true_eq, UInt8.le_iff_toNat_le, hbyte]
  exact ⟨hlow, hhigh⟩

/-! ## Order by a text -/

section

variable {α : Type} (key : α → Text)

theorem ordered_trans (a b c : α) (hab : decide (key a ≤ key b) = true) (hbc : decide (key b ≤ key c) = true) :
    decide (key a ≤ key c) = true :=
  decide_eq_true (List.le_trans (of_decide_eq_true hab) (of_decide_eq_true hbc))

theorem ordered_total (a b : α) : (decide (key a ≤ key b) || decide (key b ≤ key a)) = true := by
  simpa using List.le_total (key a) (key b)

end

end RpcBindings.Text
