import Mathlib.Data.List.Basic
import RpcBindings.Check.Metadata
import RpcBindings.Proofs.Text

/-!
# Different texts have a difference

Whatever the search for common runs finds is common to both lists of lines: each step of it keeps that. A diff without
groups is one common run that covers both lists, so that it is empty for equal texts only. Leaving out metadata lines
and writing line ends anew loses nothing else, so a comparison of generated files compares the lines that count.
-/

namespace RpcBindings

namespace Diff

/-! ## Common runs -/

structure Common (a b : List Text) (m : Match) : Prop where
  left : m.left + m.size ≤ a.length
  right : m.right + m.size ≤ b.length
  agree : ∀ k, k < m.size → a[m.left + k]? = b[m.right + k]?

structure Ending (a b : List Text) (i j size : Nat) : Prop where
  left : i < a.length
  right : j < b.length
  fits : size ≤ i + 1 ∧ size ≤ j + 1
  agree : ∀ k, k < size → a[i - k]? = b[j - k]?

section

variable {a b : List Text}

theorem common_nil {i j : Nat} (hi : i ≤ a.length) (hj : j ≤ b.length) : Common a b ⟨i, j, 0⟩ :=
  ⟨hi, hj, fun _ hk => absurd hk (Nat.not_lt_zero _)⟩

theorem Ending.common {i j size : Nat} (h : Ending a b i j size) : Common a b ⟨i + 1 - size, j + 1 - size, size⟩ := by
  obtain ⟨hfitsLeft, hfitsRight⟩ := h.fits
  have hleft := h.left
  have hright := h.right
  refine ⟨?_, ?_, fun k hk => ?_⟩
  · change i + 1 - size + size ≤ a.length
    omega
  · change j + 1 - size + size ≤ b.length
    omega
  · change k < size at hk
    have hi : i + 1 - size + k = i - (size - 1 - k) := by omega
    have hj : j + 1 - size + k = j - (size - 1 - k) := by omega
    change a[i + 1 - size + k]? = b[j + 1 - size + k]?
    rw [hi, hj]
    exact h.agree _ (by omega)

theorem mem_placesFrom {line : Text} {lines : List Text} {i j : Nat} (h : j ∈ placesFrom line i lines) :
    i ≤ j ∧ lines[j - i]? = some line := by
  induction lines generalizing i with
  | nil => cases h
  | cons first rest ih =>
    have hlater : j ∈ placesFrom line (i + 1) rest → i ≤ j ∧ (first :: rest)[j - i]? = some line := by
      intro hin
      obtain ⟨hle, hat⟩ := ih hin
      have hsub : j - i = j - (i + 1) + 1 := by omega
      refine ⟨by omega, ?_⟩
      rw [hsub, List.getElem?_cons_succ]
      exact hat
    rw [placesFrom] at h
    split at h
    next heq =>
      rcases List.mem_cons.mp h with rfl | hin
      · simp [heq]
      · exact hlater hin
    next => exact hlater h

theorem mem_places {line : Text} {j : Nat} (h : j ∈ places b line) : b[j]? = some line := by
  simp only [places] at h
  split at h
  next => cases h
  next => exact (mem_placesFrom h).2

namespace Pairing

theorem left_of (a b : List Text) (i : Nat) : (Pairing.of a b).left[i]? = a[i]? := by
  simp [Pairing.of]

theorem right_of (a b : List Text) (j : Nat) : (Pairing.of a b).right[j]? = b[j]? := by
  simp [Pairing.of]

theorem places_of (a b : List Text) (i : Nat) : (Pairing.of a b).places[i]? = a[i]?.map (Diff.places b) := by
  simp [Pairing.of]

def Known (a b : List Text) (i : Nat) (before : List (Nat × Nat)) : Prop :=
  ∀ run ∈ before, 0 < i ∧ Ending a b (i - 1) run.1 run.2

theorem ending_of_mem_runs {lowest bound i : Nat} {before : List (Nat × Nat)} (hbefore : Known a b i before)
    {run : Nat × Nat} (h : run ∈ (Pairing.of a b).runs lowest bound before i) : Ending a b i run.1 run.2 := by
  obtain ⟨j, hj, rfl⟩ := List.mem_map.mp h
  have hplace := (List.mem_filter.mp hj).1
  rw [places_of] at hplace
  cases hline : a[i]? with
  | none => simp [hline] at hplace
  | some line =>
    simp only [hline, Option.map_some, Option.getD_some] at hplace
    have hat := mem_places hplace
    have hi : i < a.length := (List.getElem?_eq_some_iff.mp hline).1
    have hj : j < b.length := (List.getElem?_eq_some_iff.mp hat).1
    have hhere : a[i]? = b[j]? := hline.trans hat.symm
    have hone : Ending a b i j 1 := by
      refine ⟨hi, hj, by omega, fun k hk => ?_⟩
      obtain rfl : k = 0 := by omega
      exact hhere
    by_cases hzero : j = 0
    · simpa [hzero] using hone
    · simp only [if_neg hzero]
      cases hrun : before.lookup (j - 1) with
      | none => exact hone
      | some size =>
        -- the run goes on from the one that ended at the lines before
        have hmem : (j - 1, size) ∈ before := by
          obtain ⟨l₁, l₂, rfl, -⟩ := List.lookup_eq_some_iff.mp hrun
          simp
        obtain ⟨hpos, hend⟩ := hbefore _ hmem
        obtain ⟨hfitsLeft, hfitsRight⟩ := hend.fits
        refine ⟨hi, hj, by simp only [Option.getD_some]; omega, fun k hk => ?_⟩
        simp only [Option.getD_some] at hk
        cases k with
        | zero => exact hhere
        | succ k =>
          have hleft : i - (k + 1) = i - 1 - k := by omega
          have hright : j - (k + 1) = j - 1 - k := by omega
          rw [hleft, hright]
          exact hend.agree k (by omega)

theorem common_better {i : Nat} {best : Match} {run : Nat × Nat} (hbest : Common a b best)
    (hrun : Ending a b i run.1 run.2) : Common a b (better i best run) := by
  unfold better
  split
  next => exact hrun.common
  next => exact hbest

theorem common_longestFrom {lowest bound count i : Nat} {before : List (Nat × Nat)} {best : Match}
    (hbefore : Known a b i before) (hbest : Common a b best) :
    Common a b ((Pairing.of a b).longestFrom lowest bound count i before best) := by
  induction count generalizing i before best with
  | zero => exact hbest
  | succ count ih =>
    have hnow : ∀ run ∈ (Pairing.of a b).runs lowest bound before i, Ending a b i run.1 run.2 := fun run hrun =>
      ending_of_mem_runs hbefore hrun
    have hfold : ∀ (runs : List (Nat × Nat)) (best : Match), Common a b best →
        (∀ run ∈ runs, Ending a b i run.1 run.2) → Common a b (runs.foldl (better i) best) := by
      intro runs
      induction runs with
      | nil => exact fun best hbest _ => hbest
      | cons run rest ihRuns =>
        intro best hbest hruns
        exact ihRuns _ (common_better hbest (hruns run List.mem_cons_self)) fun r hr => hruns r (List.mem_cons_of_mem _ hr)
    rw [longestFrom]
    refine ih (fun run hrun => ⟨Nat.succ_pos i, ?_⟩) (hfold _ best hbest hnow)
    exact hnow run hrun

theorem common_growBack {leftFrom rightFrom left right size : Nat} (h : Common a b ⟨left, right, size⟩) :
    Common a b ((Pairing.of a b).growBack leftFrom rightFrom left right size) := by
  fun_induction growBack (Pairing.of a b) leftFrom rightFrom left right size with
  | case1 left right size hgrow ih =>
    obtain ⟨-, -, hline⟩ := hgrow
    rw [left_of, right_of] at hline
    have hleft : left + 1 + size ≤ a.length := h.left
    have hright : right + 1 + size ≤ b.length := h.right
    refine ih ⟨?_, ?_, fun k hk => ?_⟩
    · change left + (size + 1) ≤ a.length
      omega
    · change right + (size + 1) ≤ b.length
      omega
    · change k < size + 1 at hk
      cases k with
      | zero => exact hline
      | succ k =>
        have hagree := h.agree k (by change k < size; omega)
        change a[left + 1 + k]? = b[right + 1 + k]? at hagree
        change a[left + (k + 1)]? = b[right + (k + 1)]?
        rwa [Nat.add_comm k 1, ← Nat.add_assoc, ← Nat.add_assoc]
  | case2 => exact h
  | case3 => exact h

theorem common_growOn {leftTo rightTo fuel : Nat} (hleftTo : leftTo ≤ a.length) (hrightTo : rightTo ≤ b.length) {m : Match}
    (h : Common a b m) : Common a b ((Pairing.of a b).growOn leftTo rightTo fuel m) := by
  induction fuel generalizing m with
  | zero => exact h
  | succ fuel ih =>
    rw [growOn]
    split
    next hgrow =>
      obtain ⟨hleft, hright, hline⟩ := hgrow
      rw [left_of, right_of] at hline
      refine ih ⟨?_, ?_, fun k hk => ?_⟩
      · change m.left + (m.size + 1) ≤ a.length
        omega
      · change m.right + (m.size + 1) ≤ b.length
        omega
      · change k < m.size + 1 at hk
        by_cases hlast : k = m.size
        · rw [hlast]
          exact hline
        · exact h.agree k (by omega)
    next => exact h

theorem common_longest {leftFrom leftTo rightFrom rightTo : Nat} (hleftFrom : leftFrom ≤ a.length)
    (hleftTo : leftTo ≤ a.length) (hrightFrom : rightFrom ≤ b.length) (hrightTo : rightTo ≤ b.length) :
    Common a b ((Pairing.of a b).longest leftFrom leftTo rightFrom rightTo) := by
  refine common_growOn hleftTo hrightTo (common_growBack ?_)
  exact common_longestFrom (fun run hrun => absurd hrun (List.not_mem_nil)) (common_nil hleftFrom hrightFrom)

theorem common_of_mem_matchesIn {fuel leftFrom leftTo rightFrom rightTo : Nat} (hleftFrom : leftFrom ≤ a.length)
    (hleftTo : leftTo ≤ a.length) (hrightFrom : rightFrom ≤ b.length) (hrightTo : rightTo ≤ b.length) {m : Match}
    (h : m ∈ (Pairing.of a b).matchesIn fuel leftFrom leftTo rightFrom rightTo) : Common a b m := by
  induction fuel generalizing leftFrom leftTo rightFrom rightTo with
  | zero => cases h
  | succ fuel ih =>
    have hlongest := common_longest hleftFrom hleftTo hrightFrom hrightTo
    have hleft := hlongest.left
    have hright := hlongest.right
    rw [matchesIn] at h
    split at h
    next => cases h
    next =>
      rcases List.mem_append.mp h with h | h
      · rcases List.mem_append.mp h with h | h
        · split at h
          next => exact ih hleftFrom (by omega) hrightFrom (by omega) h
          next => cases h
        · exact List.mem_singleton.mp h ▸ hlongest
      · split at h
        next => exact ih hleft hleftTo hright hrightTo h
        next => cases h

end Pairing

theorem Common.join {m n : Match} (hm : Common a b m) (hn : Common a b n) (hleft : m.left + m.size = n.left)
    (hright : m.right + m.size = n.right) : Common a b { m with size := m.size + n.size } := by
  have hnLeft := hn.left
  have hnRight := hn.right
  refine ⟨?_, ?_, fun k hk => ?_⟩
  · change m.left + (m.size + n.size) ≤ a.length
    omega
  · change m.right + (m.size + n.size) ≤ b.length
    omega
  · change k < m.size + n.size at hk
    by_cases hfirst : k < m.size
    · exact hm.agree k hfirst
    · have hk' : m.left + k = n.left + (k - m.size) := by omega
      have hk'' : m.right + k = n.right + (k - m.size) := by omega
      change a[m.left + k]? = b[m.right + k]?
      rw [hk', hk'']
      exact hn.agree _ (by omega)

theorem common_of_mem_joinRuns {ms : List Match} : ∀ {m n : Match}, Common a b m → (∀ r ∈ ms, Common a b r) →
    n ∈ joinRuns m ms → Common a b n := by
  induction ms with
  | nil =>
    intro m n hm _ h
    rw [joinRuns] at h
    split at h
    next => cases h
    next => exact List.mem_singleton.mp h ▸ hm
  | cons r rest ih =>
    intro m n hm hms h
    have hr := hms r List.mem_cons_self
    have hrest : ∀ r' ∈ rest, Common a b r' := fun r' hr' => hms r' (List.mem_cons_of_mem _ hr')
    rw [joinRuns] at h
    split at h
    next hgap => exact ih (hm.join hr hgap.1 hgap.2) hrest h
    next =>
      split at h
      next => exact ih hr hrest h
      next =>
        rcases List.mem_cons.mp h with rfl | h
        · exact hm
        · exact ih hr hrest h

theorem common_of_mem_runs {m : Match} (h : m ∈ runs a b) : Common a b m := by
  rcases List.mem_append.mp h with h | h
  · refine common_of_mem_joinRuns (common_nil (Nat.zero_le _) (Nat.zero_le _)) (fun r hr => ?_) h
    exact Pairing.common_of_mem_matchesIn (Nat.zero_le _) (Nat.le_refl _) (Nat.zero_le _) (Nat.le_refl _) hr
  · rw [List.mem_singleton.mp h]
    exact common_nil (Nat.le_refl _) (Nat.le_refl _)

end

/-! ## Edits and groups -/

section

variable {a b : List Text} {i j : Nat} {ms : List Match}

theorem tags_trimFirst (es : List Edit) : (trimFirst es).map (·.tag) = es.map (·.tag) := by
  cases es with
  | nil => rfl
  | cons e rest =>
    simp only [trimFirst, List.map_cons]
    split <;> rfl

theorem tags_trimLast (es : List Edit) : (trimLast es).map (·.tag) = es.map (·.tag) := by
  fun_induction trimLast es with
  | case1 => rfl
  | case2 e => split <;> rfl
  | case3 e f rest ih => rw [List.map_cons, ih, List.map_cons, List.map_cons, List.map_cons]

theorem tags_of_groupsFrom {es : List Edit} : ∀ {group : List Edit}, groupsFrom group es = [] →
    (group ++ es).map (·.tag) = [] ∨ (group ++ es).map (·.tag) = [.equal] := by
  induction es with
  | nil =>
    intro group h
    rw [List.append_nil]
    cases group with
    | nil => exact .inl rfl
    | cons e more =>
      cases more with
      | nil =>
        rw [groupsFrom] at h
        split at h
        next hequal => exact .inr (by simp [hequal])
        next => cases h
      | cons f more => simp [groupsFrom] at h
  | cons e rest ih =>
    intro group h
    rw [groupsFrom] at h
    split at h
    next => cases h
    next => simpa using ih h

theorem tags_of_groups {es : List Edit} (h : groups es = []) : es.map (·.tag) = [] ∨ es.map (·.tag) = [.equal] := by
  have htags := tags_of_groupsFrom h
  rwa [List.nil_append, tags_trimLast, tags_trimFirst] at htags

theorem editsFrom_cons (i j : Nat) (m : Match) (ms : List Match) :
    ∃ gap, editsFrom i j (m :: ms) = gap ++ (if m.size = 0 then [] else
        [⟨.equal, m.left, m.left + m.size, m.right, m.right + m.size⟩]) ++ editsFrom (m.left + m.size) (m.right + m.size) ms ∧
      (∀ e ∈ gap, e.tag ≠ .equal) ∧ (gap = [] → m.left ≤ i ∧ m.right ≤ j) := by
  refine ⟨_, rfl, ?_, ?_⟩
  · intro e he
    split at he
    next => simp [List.mem_singleton.mp he]
    next =>
      split at he
      next => simp [List.mem_singleton.mp he]
      next =>
        split at he
        next => simp [List.mem_singleton.mp he]
        next => cases he
  · intro hgap
    split at hgap
    next => cases hgap
    next =>
      split at hgap
      next => cases hgap
      next hleft =>
        split at hgap
        next => cases hgap
        next hright => exact ⟨Nat.le_of_not_lt hleft, Nat.le_of_not_lt hright⟩

theorem covered_of_no_edit (h : editsFrom i j (ms ++ [⟨a.length, b.length, 0⟩]) = []) : a.length ≤ i ∧ b.length ≤ j := by
  induction ms generalizing i j with
  | nil =>
    obtain ⟨gap, hedits, -, hplace⟩ := editsFrom_cons i j ⟨a.length, b.length, 0⟩ []
    rw [List.nil_append, hedits] at h
    exact hplace (by simpa [editsFrom] using h)
  | cons m ms ih =>
    obtain ⟨gap, hedits, -, hplace⟩ := editsFrom_cons i j m (ms ++ [⟨a.length, b.length, 0⟩])
    rw [List.cons_append, hedits, List.append_eq_nil_iff, List.append_eq_nil_iff] at h
    obtain ⟨⟨hgap, hsize⟩, hrest⟩ := h
    have hzero : m.size = 0 := by
      by_contra hne
      simp [hne] at hsize
    obtain ⟨hleft, hright⟩ := hplace hgap
    obtain ⟨hleft', hright'⟩ := ih hrest
    omega

theorem eq_of_equal_edit (hcommon : ∀ m ∈ ms, Common a b m)
    (h : (editsFrom 0 0 (ms ++ [⟨a.length, b.length, 0⟩])).map (·.tag) = [.equal]) : a = b := by
  induction ms with
  | nil =>
    obtain ⟨gap, hedits, htags, -⟩ := editsFrom_cons 0 0 ⟨a.length, b.length, 0⟩ []
    rw [List.nil_append, hedits] at h
    simp only [if_true, List.append_nil, editsFrom] at h
    obtain ⟨e, hgap, hequal⟩ := List.map_eq_singleton_iff.mp h
    exact absurd hequal (htags e (by simp [hgap]))
  | cons m ms ih =>
    obtain ⟨gap, hedits, htags, hplace⟩ := editsFrom_cons 0 0 m (ms ++ [⟨a.length, b.length, 0⟩])
    rw [List.cons_append, hedits, List.append_assoc] at h
    have hgap : gap = [] := by
      cases gap with
      | nil => rfl
      | cons e rest =>
        rw [List.cons_append, List.map_cons] at h
        exact absurd (List.cons.inj h).1 (htags e List.mem_cons_self)
    obtain ⟨hleft, hright⟩ := hplace hgap
    rw [hgap, List.nil_append] at h
    have hrun := hcommon m List.mem_cons_self
    by_cases hzero : m.size = 0
    · rw [if_pos hzero, List.nil_append] at h
      have hstart : m.left + m.size = 0 ∧ m.right + m.size = 0 := by omega
      rw [hstart.1, hstart.2] at h
      exact ih (fun m' hm' => hcommon m' (List.mem_cons_of_mem _ hm')) h
    · rw [if_neg hzero, List.singleton_append, List.map_cons] at h
      obtain ⟨hcoverLeft, hcoverRight⟩ := covered_of_no_edit (List.map_eq_nil_iff.mp (List.cons.inj h).2)
      have hboundLeft := hrun.left
      have hboundRight := hrun.right
      refine List.ext_getElem? fun k => ?_
      by_cases hk : k < m.size
      · have hagree := hrun.agree k hk
        rwa [Nat.le_zero.mp hleft, Nat.le_zero.mp hright, Nat.zero_add] at hagree
      · rw [List.getElem?_eq_none (by omega), List.getElem?_eq_none (by omega)]

theorem eq_of_groups_eq_nil (h : groups (editsFrom 0 0 (runs a b)) = []) : a = b := by
  rcases tags_of_groups h with hnone | hequal
  · obtain ⟨hleft, hright⟩ := covered_of_no_edit (List.map_eq_nil_iff.mp hnone)
    rw [List.length_eq_zero_iff.mp (Nat.le_zero.mp hleft), List.length_eq_zero_iff.mp (Nat.le_zero.mp hright)]
  · exact eq_of_equal_edit (fun m hm => common_of_mem_runs (List.mem_append_left _ hm)) hequal

end

theorem linesOf_injective {s t : Text} (h : linesOf s = linesOf t) : s = t := by
  have hpieces : Text.splitOn 10 s = Text.splitOn 10 t :=
    List.map_injective_iff.mpr (fun x y hxy => List.append_cancel_right hxy) h
  rw [← Text.join_splitOn 10 s, hpieces, Text.join_splitOn]

/-- A unified diff of different texts says something. -/
theorem unified_ne_nil {leftName rightName left right : Text} (h : left ≠ right) :
    unified leftName rightName left right ≠ [] := by
  unfold unified
  simp only
  split
  next hnone => exact absurd (linesOf_injective (eq_of_groups_eq_nil hnone)) h
  next =>
    have hlead : ("--- " : Text) ≠ [] := by decide
    simp [hlead]

end Diff

namespace Check

/-! ## Lines that count -/

theorem lineFeed_not_mem_significantLines {content line : Text} (h : line ∈ significantLines content) : 10 ∉ line := by
  obtain ⟨full, hfull, rfl⟩ := List.mem_map.mp (List.mem_filter.mp h).1
  have hpiece : full ∈ Text.splitOn 10 content := by
    simp only [Text.lines] at hfull
    split at hfull
    next => exact List.dropLast_subset _ hfull
    next => exact hfull
  have hfree := Text.not_mem_of_mem_splitOn hpiece
  intro hin
  refine hfree ?_
  unfold Text.dropReturn at hin
  split at hin
  next => exact List.dropLast_subset _ hin
  next => exact hin

theorem splitOn_flatMap_lines {lines : List Text} (h : ∀ line ∈ lines, 10 ∉ line) :
    Text.splitOn 10 (lines.flatMap (· ++ [10])) = lines ++ [[]] := by
  induction lines with
  | nil => rfl
  | cons line rest ih =>
    rw [List.flatMap_cons, List.append_assoc, List.singleton_append, Text.splitOn_append,
      Text.splitOn_of_not_mem (h line List.mem_cons_self), ih fun l hl => h l (List.mem_cons_of_mem _ hl)]
    rfl

theorem withoutMetadata_eq_iff {content other : Text} :
    withoutMetadata content = withoutMetadata other ↔ significantLines content = significantLines other := by
  constructor
  · intro h
    have hsplit := congrArg (Text.splitOn 10) h
    rw [withoutMetadata, withoutMetadata, splitOn_flatMap_lines fun _ => lineFeed_not_mem_significantLines,
      splitOn_flatMap_lines fun _ => lineFeed_not_mem_significantLines] at hsplit
    exact List.append_cancel_right hsplit
  · intro h
    rw [withoutMetadata, withoutMetadata, h]

theorem difference_eq_nil_iff {name existing fresh : Text} :
    difference name existing fresh = [] ↔ significantLines existing = significantLines fresh := by
  rw [← withoutMetadata_eq_iff]
  simp only [difference]
  split
  next heq => simp [heq]
  next hne =>
    have hdiff : Diff.unified name "generated" (withoutMetadata existing) (withoutMetadata fresh) ≠ [] :=
      Diff.unified_ne_nil hne
    simp [hne, hdiff]

end Check

end RpcBindings
