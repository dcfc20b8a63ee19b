import RpcBindings.Proofs.Script

/-!
# Reading scripts

The reader, fed with the text of a script, ends with the value of the script. One equation says for each kind of token what
the reader makes of it: strings and words are delivered as they end, keys settle the field that is due, numbers end before
the byte behind them. What is passed over leaves the reader as it was, unless it nests too deep. The cases of a container
are put together by induction on its elements, those of a script by induction on the script.
-/

namespace RpcBindings.Json

namespace Reader

variable {ρ : Type} {g : Grammar ρ}

def run (g : Grammar ρ) (s : Reader ρ) (t : Text) : Option (Reader ρ) := t.foldlM (step g) s

@[simp]
theorem run_nil (s : Reader ρ) : run g s [] = some s := rfl

@[simp]
theorem run_cons (s : Reader ρ) (b : UInt8) (t : Text) : run g s (b :: t) = (step g s b).bind (run g · t) := rfl

theorem run_append (s : Reader ρ) (t u : Text) : run g s (t ++ u) = (run g s t).bind (run g · u) :=
  List.foldlM_append

end Reader

def Mode.Rests {ρ : Type} : Mode ρ → Prop
  | .value _ => True
  | .opened => True
  | .name => True
  | .colon _ => True
  | .more => True
  | .skip .value => True
  | .skip (.nested _ _ _) => True
  | .done _ => True
  | _ => False

namespace Reader

variable {ρ : Type} {g : Grammar ρ}

theorem isSpace_iff {b : UInt8} : isSpace b = true ↔ b = 32 ∨ b = 9 ∨ b = 10 ∨ b = 13 := by
  simp [isSpace, or_assoc]

theorem step_space {s : Reader ρ} {b : UInt8} (h : s.mode.Rests) (hb : isSpace b) : step g s b = some s := by
  obtain ⟨stack, depth, mode⟩ := s
  have hzero : b ≠ 0 := by
    rintro rfl
    cases hb
  cases mode with
  | value form => simp [step, takeSolid, take, hb, hzero]
  | opened => simp [step, takeSolid, take, hb, hzero]
  | name => simp [step, takeSolid, take, hb, hzero]
  | colon form => simp [step, takeSolid, take, hb, hzero]
  | more => simp [step, takeSolid, take, takeMore, turn, hb, hzero]
  | done v => simp [step, take, takeDone, turn, hb]
  | skip s =>
    cases s with
    | value => simp [step, takeSolid, take, takeSkip, Skip.step, Skip.first, turn, hb, hzero]
    | nested curly pending depth =>
      rcases isSpace_iff.mp hb with rfl | rfl | rfl | rfl <;> rfl
    | _ => cases h
  | _ => cases h

theorem run_blanks {s : Reader ρ} {blanks : Text} (h : s.mode.Rests) (hblanks : ∀ b ∈ blanks, isSpace b) (t : Text) :
    run g s (blanks ++ t) = run g s t := by
  induction blanks with
  | nil => rfl
  | cons b rest ih =>
    rw [List.forall_mem_cons] at hblanks
    rw [List.cons_append, run_cons, step_space h hblanks.1]
    exact ih hblanks.2

theorem exists_run_token {s : Reader ρ} {token t : Text} {rest : List Text} (h : s.mode.Rests)
    (ht : Laid (token :: rest) t) : ∃ t', Laid rest t' ∧ run g s t = run g s (token ++ t') := by
  cases ht with
  | token hblanks ht => exact ⟨_, ht, run_blanks h hblanks _⟩

variable (stack : List (Frame ρ)) (depth : Nat)

/-! ## Delivery does not look at the mode -/

theorem deliver_mode (mode : Mode ρ) (v : Json) :
    deliver ⟨stack, depth, mode⟩ v = deliver ⟨stack, depth, .more⟩ v := by
  cases stack with
  | nil => rfl
  | cons frame stack => rcases frame with ⟨r, members, _ | due⟩ | ⟨r, members, _ | due⟩ | ⟨r, items⟩ <;> rfl

theorem deliverAs_mode (mode : Mode ρ) (role : Role) (v : Json) :
    deliverAs ⟨stack, depth, mode⟩ role v = deliverAs ⟨stack, depth, .more⟩ role v := by
  have hname (t : Text) : deliverName ⟨stack, depth, mode⟩ t = deliverName ⟨stack, depth, .more⟩ t := by
    cases stack with
    | nil => rfl
    | cons frame stack => rcases frame with ⟨r, members, due⟩ | ⟨r, members, _ | due⟩ | ⟨r, items⟩ <;> rfl
  cases role with
  | value => exact deliver_mode stack depth mode v
  | name => cases v <;> exact hname _

theorem close_mode (mode : Mode ρ) (b : UInt8) :
    close ⟨stack, depth, mode⟩ b = close ⟨stack, depth, .more⟩ b := by
  cases stack with
  | nil => rfl
  | cons frame stack =>
    rcases frame with ⟨r, members, _ | due⟩ | ⟨r, members, _ | due⟩ | ⟨r, items⟩ <;>
      simp only [close, deliver_mode _ _ mode]

theorem takeMore_mode (mode : Mode ρ) (b : UInt8) :
    takeMore ⟨stack, depth, mode⟩ b = takeMore ⟨stack, depth, .more⟩ b := by
  unfold takeMore
  rw [close_mode]
  rfl

theorem takeField_mode (mode : Mode ρ) (field : Option (Text × Form ρ)) :
    takeField ⟨stack, depth, mode⟩ field = takeField ⟨stack, depth, .more⟩ field := by
  cases stack with
  | nil => cases field <;> rfl
  | cons frame stack =>
    cases frame <;> cases field <;> rfl

/-! ## Strings and words -/

theorem isSome_hexValue? {b : UInt8} (h : (Text.hexValue? b).isSome) : b ≠ 0 ∧ b ≠ 34 ∧ b ≠ 92 := by
  refine ⟨?_, ?_, ?_⟩ <;> rintro rfl <;> cases h

theorem run_deaf {s s' : Reader ρ} (hplain : ∀ b, b ≠ 0 ∧ b ≠ 34 ∧ b ≠ 92 → step g s b = some s)
    (hescape : step g s 92 = some s') (hback : ∀ b, b ≠ 0 → step g s' b = some s) (signs : List Sign) :
    run g s (signs.flatMap Sign.text) = some s := by
  induction signs with
  | nil => rfl
  | cons sign rest ih =>
    have hsign : run g s sign.text = some s := by
      cases sign with
      | plain b h => simp [Sign.text, hplain b h]
      | short letter b h =>
        have hzero : letter ≠ 0 := by
          rintro rfl
          cases h
        simp [Sign.text, hescape, hback letter hzero]
      | unit a b c d h =>
        have hdigit (x : UInt8) (hx : x ∈ [a, b, c, d]) : step g s x = some s := hplain x (isSome_hexValue? (h x hx))
        simp [Sign.text, hescape, hback 117 (by decide), hdigit a, hdigit b, hdigit c, hdigit d]
    rw [List.flatMap_cons, run_append, hsign, Option.bind_some, ih]

theorem step_text_plain (role : Role) (pieces : List Piece) {b : UInt8}
    (h : b ≠ 0 ∧ b ≠ 34 ∧ b ≠ 92) :
    step g ⟨stack, depth, .text role (.plain pieces)⟩ b = some ⟨stack, depth, .text role (.plain (.byte b :: pieces))⟩ := by
  simp [step, takeSolid, take, Quoted.step, turn, h]

theorem run_sign (role : Role) (pieces : List Piece) (sign : Sign) :
    run g ⟨stack, depth, .text role (.plain pieces)⟩ sign.text =
      some ⟨stack, depth, .text role (.plain (sign.piece :: pieces))⟩ := by
  cases sign with
  | plain b h =>
    simp [Sign.text, Sign.piece, step_text_plain stack depth role pieces h]
  | short letter b h =>
    have hunit : letter ≠ 117 := by
      rintro rfl
      cases h
    have hzero : letter ≠ 0 := by
      rintro rfl
      cases h
    simp [Sign.text, Sign.piece, step, takeSolid, take, Quoted.step, turn, h, hunit, hzero]
  | unit a b c d h =>
    simp only [List.mem_cons, List.not_mem_nil, or_false, forall_eq_or_imp, forall_eq] at h
    obtain ⟨ha, hb, hc, hd⟩ := h
    obtain ⟨va, hva⟩ := Option.isSome_iff_exists.mp ha
    obtain ⟨vb, hvb⟩ := Option.isSome_iff_exists.mp hb
    obtain ⟨vc, hvc⟩ := Option.isSome_iff_exists.mp hc
    obtain ⟨vd, hvd⟩ := Option.isSome_iff_exists.mp hd
    simp [Sign.text, Sign.piece, step, takeSolid, take, Quoted.step, turn, Key.unitValue, hva, hvb, hvc, hvd,
      isSome_hexValue? ha, isSome_hexValue? hb, isSome_hexValue? hc, isSome_hexValue? hd]

theorem run_signs (role : Role) (signs : List Sign) : ∀ pieces : List Piece,
    run g ⟨stack, depth, .text role (.plain pieces)⟩ (signs.flatMap Sign.text) =
      some ⟨stack, depth, .text role (.plain ((signs.map Sign.piece).reverse ++ pieces))⟩ := by
  induction signs with
  | nil => exact fun _ => rfl
  | cons sign rest ih =>
    intro pieces
    rw [List.flatMap_cons, run_append, run_sign, Option.bind_some, ih]
    simp

theorem run_string (role : Role) (signs : List Sign) (t : Text) :
    run g ⟨stack, depth, .text role (.plain [])⟩ (signs.flatMap Sign.text ++ 34 :: t) =
      (deliverAs ⟨stack, depth, .more⟩ role (.string (Sign.content signs))).bind (run g · t) := by
  rw [run_append, run_signs, Option.bind_some, run_cons]
  simp [step, takeSolid, take, Quoted.step, Sign.content, deliverAs_mode stack depth (.text _ _)]

theorem run_word (role : Role) (v : Json) (t due : Text) (hdue : due ≠ [])
    (hzero : 0 ∉ due) :
    run g ⟨stack, depth, .word role due v⟩ (due ++ t) = (deliverAs ⟨stack, depth, .more⟩ role v).bind (run g · t) := by
  induction due with
  | nil => exact absurd rfl hdue
  | cons b rest ih =>
    rw [List.mem_cons, not_or] at hzero
    have hb : b ≠ 0 := Ne.symm hzero.1
    cases rest with
    | nil => simp [step, takeSolid, take, hb, deliverAs_mode stack depth (.word _ _ _)]
    | cons c rest =>
      have hstep : step g ⟨stack, depth, .word role (b :: c :: rest) v⟩ b =
          some ⟨stack, depth, .word role (c :: rest) v⟩ := by
        simp [step, takeSolid, take, turn, hb]
      rw [List.cons_append, run_cons, hstep, Option.bind_some, ih (by simp) hzero.2]

/-! ## Keys -/

theorem takeSolid_lost {b : UInt8} (h : b ≠ 0 ∧ b ≠ 34 ∧ b ≠ 92) :
    takeSolid g ⟨stack, depth, .key .lost⟩ b = some ⟨stack, depth, .key .lost⟩ := by
  simp [takeSolid, take, Key.step, turn, h]

theorem run_lost (key : List Sign) (t : Text) :
    run g ⟨stack, depth, .key .lost⟩ (key.flatMap Sign.text ++ 34 :: t) =
      (takeField ⟨stack, depth, .more⟩ none).bind (run g · t) := by
  have hescape : step g ⟨stack, depth, .key .lost⟩ 92 = some ⟨stack, depth, .key .lostEscape⟩ := rfl
  have hback (b : UInt8) (hb : b ≠ 0) :
      step g ⟨stack, depth, .key .lostEscape⟩ b = some ⟨stack, depth, .key .lost⟩ := by
    simp [step, takeSolid, take, Key.step, turn, hb]
  rw [run_append, run_deaf (fun b => takeSolid_lost stack depth) hescape hback, Option.bind_some, run_cons]
  simp [step, takeSolid, take, Key.step, takeField_mode stack depth (.key _)]

theorem escape?_letter {letter b : UInt8} (h : escape? letter = some b) :
    letter ≠ 117 ∧ (letter = 34 ∨ letter = 92 ∨ letter = 47 ∨ letter = 98 ∨ letter = 102 ∨ letter = 110 ∨ letter = 114 ∨
      letter = 116) := by
  refine ⟨?_, ?_⟩
  · rintro rfl
    cases h
  · unfold escape? at h
    split at h <;> simp at h ⊢

theorem run_matching_sign (candidates : List (Candidate (Form ρ))) (length : Nat)
    (sign : Sign) : ∃ left length', (∀ rest, Sign.named? candidates length (sign :: rest) = Sign.named? left length' rest) ∧
      run g ⟨stack, depth, .key (.matching candidates length)⟩ sign.text =
        some ⟨stack, depth, .key (if left.isEmpty then .lost else .matching left length')⟩ := by
  cases sign with
  | plain b h =>
    refine ⟨Key.narrow candidates b, length + 1, fun _ => rfl, ?_⟩
    cases hleft : Key.narrow candidates b <;> simp [Sign.text, step, takeSolid, take, Key.step, turn, h, hleft]
  | short letter b h =>
    refine ⟨[], 0, fun rest => (Sign.named?_nil 0 rest).symm, ?_⟩
    obtain ⟨hunit, hletter⟩ := escape?_letter h
    simp [Sign.text, step, takeSolid, take, Key.step, turn, hunit, hletter]
  | unit a b c d h =>
    refine ⟨Key.narrowUnit candidates (Key.unitValue [d, c, b, a]), length + 6, fun _ => rfl, ?_⟩
    simp only [List.mem_cons, List.not_mem_nil, or_false, forall_eq_or_imp, forall_eq] at h
    obtain ⟨ha, hb, hc, hd⟩ := h
    have hstart : run g ⟨stack, depth, .key (.matching candidates length)⟩ [92, 117, a, b, c] =
        some ⟨stack, depth, .key (.unit candidates (length + 5) [c, b, a])⟩ := by
      simp [step, takeSolid, take, Key.step, turn, isSome_hexValue? ha, isSome_hexValue? hb, isSome_hexValue? hc]
    rw [show Sign.text (.unit a b c d _) = [92, 117, a, b, c] ++ [d] from rfl, run_append, hstart]
    cases hleft : Key.narrowUnit candidates (Key.unitValue [d, c, b, a]) with
    | nil =>
      simp [step, hleft, takeSolid_lost stack depth (isSome_hexValue? ha), takeSolid_lost stack depth (isSome_hexValue? hb),
        takeSolid_lost stack depth (isSome_hexValue? hc), takeSolid_lost stack depth (isSome_hexValue? hd)]
    | cons candidate rest => simp [step, turn, hleft]

theorem run_key (key : List Sign) (t : Text) :
    ∀ (candidates : List (Candidate (Form ρ))) (length : Nat),
    run g ⟨stack, depth, .key (.matching candidates length)⟩ (key.flatMap Sign.text ++ 34 :: t) =
      (takeField ⟨stack, depth, .more⟩ (Sign.named? candidates length key)).bind (run g · t) := by
  induction key with
  | nil =>
    intro candidates length
    simp [step, takeSolid, take, Key.step, Sign.named?, takeField_mode stack depth (.key _)]
  | cons sign rest ih =>
    intro candidates length
    obtain ⟨left, length', hnamed, hrun⟩ := run_matching_sign stack depth candidates length sign
    rw [List.flatMap_cons, List.append_assoc, run_append, hrun, Option.bind_some, hnamed]
    cases left with
    | nil =>
      rw [Sign.named?_nil]
      exact run_lost stack depth rest t
    | cons candidate left => exact ih _ _

/-! ## Numbers -/

theorem isNumberByte_of_isDigit {b : UInt8} (h : Text.isDigit b = true) : isNumberByte b = true := by
  simp [isNumberByte, h]

theorem isNumberByte_apart {b : UInt8} (h : isNumberByte b = true) :
    isSpace b = false ∧ b ≠ 0 ∧ b ≠ 44 ∧ b ≠ 93 ∧ b ≠ 125 := by
  refine ⟨Bool.eq_false_iff.mpr fun hspace => ?_, ?_, ?_, ?_, ?_⟩
  · rcases isSpace_iff.mp hspace with rfl | rfl | rfl | rfl <;> cases h
  all_goals
    rintro rfl
    cases h

theorem close_eq_none (mode : Mode ρ) {b : UInt8} (hcurly : b ≠ 125)
    (hsquare : b ≠ 93) : close ⟨stack, depth, mode⟩ b = none := by
  cases stack with
  | nil => rfl
  | cons frame stack =>
    rcases frame with ⟨r, members, _ | due⟩ | ⟨r, members, _ | due⟩ | ⟨r, items⟩ <;> simp [close, hcurly, hsquare]

theorem mode_of_deliver {s s' : Reader ρ} {v : Json} (h : deliver s v = some s') :
    s'.mode = .more ∨ s'.mode = .done v := by
  unfold deliver at h
  split at h
  next => obtain rfl := Option.some.inj h; exact .inr rfl
  next => obtain rfl := Option.some.inj h; exact .inl rfl
  next => obtain rfl := Option.some.inj h; exact .inl rfl
  next => obtain rfl := Option.some.inj h; exact .inl rfl
  next => cases h

theorem takeAfter_eq_step {s s' : Reader ρ} {v : Json} {b : UInt8} (h : deliver s v = some s') (hb : b ≠ 0) :
    takeAfter s' b = step g s' b := by
  obtain ⟨stack, depth, mode⟩ := s'
  rcases mode_of_deliver h with rfl | rfl
  · simp [takeAfter, step, takeSolid, take, hb]
  · rfl

theorem step_number_byte {s s' : Reader ρ} {v : Json} {b : UInt8} (h : deliver s v = some s')
    (hb : isNumberByte b = true) : step g s' b = none := by
  obtain ⟨stack, depth, mode⟩ := s'
  obtain ⟨hspace, hzero, hcomma, hsquare, hcurly⟩ := isNumberByte_apart hb
  rcases mode_of_deliver h with rfl | rfl
  · simp [step, takeSolid, take, takeMore, hspace, hzero, hcomma, close_eq_none stack depth .more hcurly hsquare]
  · simp [step, take, takeDone, hspace, hzero]

theorem run_digits {digits : Text} (hdigits : ∀ b ∈ digits, Text.isDigit b)
    {b : UInt8} (hb : Text.isDigit b = false) (hzero : b ≠ 0) (t : Text) : ∀ read : Text,
    run g ⟨stack, depth, .digits read⟩ (digits ++ b :: t) =
      (deliver ⟨stack, depth, .more⟩ (.number (read.reverse ++ digits))).bind (run g · (b :: t)) := by
  induction digits with
  | nil =>
    intro read
    have hstep : step g ⟨stack, depth, .digits read⟩ b =
        (deliver ⟨stack, depth, .more⟩ (.number read.reverse)).bind fun s => s.takeAfter b := by
      simp [step, takeSolid, take, hb, hzero, deliver_mode stack depth (.digits _)]
    rw [List.nil_append, run_cons, hstep, Option.bind_assoc, List.append_nil]
    cases hdeliver : deliver ⟨stack, depth, .more⟩ (.number read.reverse) with
    | none => rfl
    | some s => rw [Option.bind_some, Option.bind_some, takeAfter_eq_step hdeliver hzero, run_cons]
  | cons d digits ih =>
    intro read
    rw [List.forall_mem_cons] at hdigits
    have hd : d ≠ 0 := (isNumberByte_apart (isNumberByte_of_isDigit hdigits.1)).2.1
    have hstep : step g ⟨stack, depth, .digits read⟩ d = some ⟨stack, depth, .digits (d :: read)⟩ := by
      simp [step, takeSolid, take, turn, hdigits.1, hd]
    rw [List.cons_append, run_cons, hstep, Option.bind_some, ih hdigits.2, List.reverse_cons, List.append_assoc,
      List.singleton_append]

theorem run_deliver_number_byte (v : Json) {b : UInt8}
    (hb : isNumberByte b = true) (t : Text) :
    (deliver ⟨stack, depth, .more⟩ v).bind (run g · (b :: t)) = none := by
  cases hdeliver : deliver ⟨stack, depth, .more⟩ v with
  | none => rfl
  | some s => rw [Option.bind_some, run_cons, step_number_byte hdeliver hb, Option.bind_none]

theorem step_numeral {first : UInt8} (h : Text.isDigit first ∨ first = 45) :
    step g ⟨stack, depth, .value .number⟩ first =
      if first = 48 then deliver ⟨stack, depth, .more⟩ (.number [48])
      else if Text.isDigit first then some ⟨stack, depth, .digits [first]⟩ else none := by
  rcases h with hdigit | rfl
  · have happart := isNumberByte_apart (isNumberByte_of_isDigit hdigit)
    simp [step, takeSolid, take, startValue, turn, happart.1, happart.2.1, hdigit, deliver_mode stack depth (.value _)]
  · rfl

theorem run_digits_numeral (read : Text) {bytes : Text} (hbytes : ∀ c ∈ bytes, isNumberByte c) {b : UInt8}
    (hb : isNumberByte b = false) (hzero : b ≠ 0) (t : Text) :
    run g ⟨stack, depth, .digits read⟩ (bytes ++ b :: t) =
      if bytes.all Text.isDigit then
        (deliver ⟨stack, depth, .more⟩ (.number (read.reverse ++ bytes))).bind (run g · (b :: t))
      else none := by
  cases hfind : bytes.find? fun c => !Text.isDigit c with
  | none =>
    have hall : ∀ c ∈ bytes, Text.isDigit c := by simpa using List.find?_eq_none.mp hfind
    have hnondigit : Text.isDigit b = false := by
      simp only [isNumberByte, Bool.or_eq_false_iff] at hb
      exact hb.1.1.1.1.1
    rw [run_digits stack depth hall hnondigit hzero, if_pos (List.all_eq_true.mpr hall)]
  | some c =>
    obtain ⟨hc, digits, more, rfl, hdigits⟩ := List.find?_eq_some_iff_append.mp hfind
    have hin : c ∈ digits ++ c :: more := List.mem_append_right _ List.mem_cons_self
    have hall : ¬ (digits ++ c :: more).all Text.isDigit := fun hall => by simp [List.all_eq_true.mp hall c hin] at hc
    rw [if_neg hall, List.append_assoc, List.cons_append,
      run_digits stack depth (by simpa using hdigits) (by simpa using hc) (isNumberByte_apart (hbytes c hin)).2.1]
    exact run_deliver_number_byte stack depth _ (hbytes c hin) _

theorem run_numeral (n : Numeral) {b : UInt8} (hb : isNumberByte b = false)
    (hzero : b ≠ 0) (t : Text) :
    run g ⟨stack, depth, .value .number⟩ (n.text ++ b :: t) =
      (if n.IsWord then some (Json.number n.text) else none).bind fun v =>
        (deliver ⟨stack, depth, .more⟩ v).bind (run g · (b :: t)) := by
  obtain ⟨first, rest, hfirst, hrest⟩ := n
  simp only [Numeral.text, List.cons_append, run_cons, step_numeral stack depth hfirst]
  by_cases h48 : first = 48
  · subst h48
    cases rest with
    | nil => simp [Numeral.IsWord, Numeral.text]
    | cons c rest =>
      have hnot : ¬ Numeral.IsWord ⟨48, c :: rest, hfirst, hrest⟩ := by simp [Numeral.IsWord, Numeral.text]
      rw [if_pos rfl, if_neg hnot, Option.bind_none]
      exact run_deliver_number_byte stack depth _ (hrest c List.mem_cons_self) _
  · rw [if_neg h48]
    rcases hfirst with hdigit | rfl
    · rw [if_pos hdigit, Option.bind_some]
      have hword : Numeral.IsWord ⟨first, rest, .inl hdigit, hrest⟩ ↔ rest.all Text.isDigit := by
        simp [Numeral.IsWord, Numeral.text, h48, hdigit]
      rw [run_digits_numeral stack depth [first] hrest hb hzero]
      by_cases hall : rest.all Text.isDigit
      · rw [if_pos hall, if_pos (hword.mpr hall)]
        simp
      · rw [if_neg hall, if_neg (mt hword.mp hall), Option.bind_none]
    · have hnot : ¬ Numeral.IsWord ⟨45, rest, .inr rfl, hrest⟩ := by
        have hminus : Text.isDigit 45 = false := rfl
        simp [Numeral.IsWord, Numeral.text, hminus]
      rw [if_neg hnot]
      rfl

/-! ## Passing over values -/

def Quiet (b : UInt8) : Prop := b ≠ 0 ∧ b ≠ 34 ∧ b ≠ 123 ∧ b ≠ 125 ∧ b ≠ 91 ∧ b ≠ 93

theorem step_quiet (curly : Bool) (pending : Nat) (level : Int) {b : UInt8}
    (h : Quiet b) : step g ⟨stack, depth, .skip (.nested curly pending level)⟩ b =
      some ⟨stack, depth, .skip (.nested curly pending level)⟩ := by
  obtain ⟨hzero, hquote, hcurly, hcurly', hsquare, hsquare'⟩ := h
  have hinside : Skip.inside curly pending level b = some (.nested curly pending level) := by
    simp [Skip.inside]
  simp [step, takeSolid, take, Skip.step, hinside, takeSkip, turn, hzero]

theorem run_quiet (curly : Bool) (pending : Nat) (level : Int) {token : Text}
    (h : ∀ b ∈ token, Quiet b) : run g ⟨stack, depth, .skip (.nested curly pending level)⟩ token =
      some ⟨stack, depth, .skip (.nested curly pending level)⟩ := by
  induction token with
  | nil => rfl
  | cons b rest ih =>
    rw [List.forall_mem_cons] at h
    rw [run_cons, step_quiet stack depth curly pending level h.1, Option.bind_some, ih h.2]

def Passes (g : Grammar ρ) (tokens : List Text) (height : Nat) : Prop :=
  ∀ (stack : List (Frame ρ)) (depth : Nat) (curly : Bool) (pending : Nat) (level : Int) (rest : List Text) (t : Text),
    1 ≤ pending → Laid (tokens ++ rest) t → ∃ t', Laid rest t' ∧
      run g ⟨stack, depth, .skip (.nested curly pending level)⟩ t =
        if height = 0 ∨ level + height ≤ maxDepth then run g ⟨stack, depth, .skip (.nested curly pending level)⟩ t'
        else none

theorem passes_nil : Passes g [] 0 := by
  intro stack depth curly pending level rest t _ ht
  exact ⟨t, ht, by simp⟩

theorem passes_quiet {token : Text} (h : ∀ b ∈ token, Quiet b) : Passes g [token] 0 := by
  intro stack depth curly pending level rest t _ ht
  obtain ⟨t', ht', hrun⟩ := exists_run_token (g := g) (s := ⟨stack, depth, .skip (.nested curly pending level)⟩) trivial ht
  refine ⟨t', ht', ?_⟩
  rw [hrun, run_append, run_quiet stack depth curly pending level h]
  simp

theorem passes_string (signs : List Sign) : Passes g [Sign.quoted signs] 0 := by
  intro stack depth curly pending level rest t _ ht
  obtain ⟨t', ht', hrun⟩ := exists_run_token (g := g) (s := ⟨stack, depth, .skip (.nested curly pending level)⟩) trivial ht
  have hplain (b : UInt8) (h : b ≠ 0 ∧ b ≠ 34 ∧ b ≠ 92) :
      step g ⟨stack, depth, .skip (.nestedText curly pending level)⟩ b =
        some ⟨stack, depth, .skip (.nestedText curly pending level)⟩ := by
    simp [step, takeSolid, take, Skip.step, takeSkip, turn, h]
  have hback (b : UInt8) (hb : b ≠ 0) : step g ⟨stack, depth, .skip (.nestedEscape curly pending level)⟩ b =
      some ⟨stack, depth, .skip (.nestedText curly pending level)⟩ := by
    simp [step, takeSolid, take, Skip.step, takeSkip, turn, hb]
  have hopen : step g ⟨stack, depth, .skip (.nested curly pending level)⟩ 34 =
      some ⟨stack, depth, .skip (.nestedText curly pending level)⟩ := rfl
  have hclose : step g ⟨stack, depth, .skip (.nestedText curly pending level)⟩ 34 =
      some ⟨stack, depth, .skip (.nested curly pending level)⟩ := rfl
  refine ⟨t', ht', ?_⟩
  rw [hrun, Sign.quoted, List.cons_append, run_cons, hopen, Option.bind_some, List.append_assoc, run_append,
    run_deaf hplain rfl hback]
  simp [hclose]

theorem Passes.append {x y : List Text} {m n : Nat} (hx : Passes g x m) (hy : Passes g y n) :
    Passes g (x ++ y) (max m n) := by
  intro stack depth curly pending level rest t hpending ht
  rw [List.append_assoc] at ht
  obtain ⟨u, hu, hrun⟩ := hx stack depth curly pending level (y ++ rest) t hpending ht
  obtain ⟨v, hv, hrun'⟩ := hy stack depth curly pending level rest u hpending hu
  refine ⟨v, hv, ?_⟩
  have hmax : max m n = 0 ∨ level + (max m n : Nat) ≤ maxDepth ↔
      (m = 0 ∨ level + m ≤ maxDepth) ∧ (n = 0 ∨ level + n ≤ maxDepth) := by omega
  by_cases hm : m = 0 ∨ level + m ≤ maxDepth
  · rw [hrun, if_pos hm, hrun']
    simp only [hmax, hm, true_and]
  · rw [hrun, if_neg hm, if_neg (mt hmax.mp (mt And.left hm))]

def opening (curly : Bool) : UInt8 := if curly then 123 else 91

def closing (curly : Bool) : UInt8 := if curly then 125 else 93

theorem step_opening (curly kind : Bool) (pending : Nat) (level : Int) :
    step g ⟨stack, depth, .skip (.nested curly pending level)⟩ (opening kind) =
      if maxDepth < level + 1 then none
      else some ⟨stack, depth, .skip (.nested curly (if kind = curly then pending + 1 else pending) (level + 1))⟩ := by
  by_cases hlevel : maxDepth < level + 1 <;> cases kind <;> cases curly <;>
    simp [step, takeSolid, take, Skip.step, Skip.inside, takeSkip, turn, opening, hlevel]

theorem step_closing (curly kind : Bool) {pending : Nat} (level : Int)
    (h : 1 ≤ pending) :
    step g ⟨stack, depth, .skip (.nested curly (if kind = curly then pending + 1 else pending) (level + 1))⟩ (closing kind) =
      some ⟨stack, depth, .skip (.nested curly pending level)⟩ := by
  have hpending : pending ≠ 0 := by omega
  cases kind <;> cases curly <;>
    simp [step, takeSolid, take, Skip.step, Skip.inside, takeSkip, turn, closing, hpending]

theorem Passes.nest {x : List Text} {n : Nat} (hx : Passes g x n) (kind : Bool) :
    Passes g ([opening kind] :: (x ++ [[closing kind]])) (n + 1) := by
  intro stack depth curly pending level rest t hpending ht
  rw [List.cons_append, List.append_assoc, List.singleton_append] at ht
  obtain ⟨u, hu, hrun⟩ := exists_run_token (g := g) (s := ⟨stack, depth, .skip (.nested curly pending level)⟩) trivial ht
  have hpending' : 1 ≤ if kind = curly then pending + 1 else pending := by
    split <;> omega
  obtain ⟨v, hv, hinner⟩ := hx stack depth curly _ (level + 1) _ u hpending' hu
  obtain ⟨w, hw, hlast⟩ := exists_run_token (g := g)
    (s := ⟨stack, depth, .skip (.nested curly (if kind = curly then pending + 1 else pending) (level + 1))⟩) trivial hv
  refine ⟨w, hw, ?_⟩
  rw [hrun, List.singleton_append, run_cons, step_opening]
  by_cases hlevel : maxDepth < level + 1
  · rw [if_pos hlevel, if_neg (by omega)]
    rfl
  · rw [if_neg hlevel, Option.bind_some, hinner, hlast, List.singleton_append, run_cons,
      step_closing stack depth curly kind level hpending, Option.bind_some]
    have hdeeper : n = 0 ∨ level + 1 + n ≤ maxDepth ↔ n + 1 = 0 ∨ level + (n + 1 : Nat) ≤ maxDepth := by omega
    simp only [hdeeper]

theorem Passes.separated (rows : List (List Text × Nat)) (h : ∀ row ∈ rows, Passes g row.1 row.2) :
    Passes g (Script.separated (rows.map Prod.fst)) (rows.foldr (fun row n => max row.2 n) 0) := by
  have hcomma : Passes g [[44]] 0 := passes_quiet (by simp [Quiet])
  have hmore (rows : List (List Text × Nat)) (h : ∀ row ∈ rows, Passes g row.1 row.2) :
      Passes g ((rows.map Prod.fst).flatMap ([44] :: ·)) (rows.foldr (fun row n => max row.2 n) 0) := by
    induction rows with
    | nil => exact passes_nil
    | cons row rows ih =>
      rw [List.forall_mem_cons] at h
      have := hcomma.append (h.1.append (ih h.2))
      simpa using this
  cases rows with
  | nil => exact passes_nil
  | cons row rows =>
    rw [List.forall_mem_cons] at h
    exact h.1.append (hmore rows h.2)

theorem quiet_of_isNumberByte {b : UInt8} (h : isNumberByte b = true) : Quiet b := by
  refine ⟨?_, ?_, ?_, ?_, ?_, ?_⟩ <;> rintro rfl <;> cases h

theorem isNumberByte_of_mem {n : Numeral} {b : UInt8} (h : b ∈ n.text) : isNumberByte b = true := by
  rcases List.mem_cons.mp h with rfl | hrest
  · rcases n.first_ok with hdigit | hminus
    · exact isNumberByte_of_isDigit hdigit
    · rw [hminus]
      rfl
  · exact n.rest_ok b hrest

theorem passes_items {items : List Script} (h : ∀ a ∈ items, Passes g a.tokens a.height) :
    Passes g (Script.separated (Script.itemTokens items)) (Script.itemsHeight items) := by
  have hrows := Passes.separated (g := g) (items.map fun a => (a.tokens, a.height))
    (List.forall_mem_map.mpr h)
  rw [Script.itemTokens_eq, Script.itemsHeight_eq]
  simpa [List.map_map, List.foldr_map, Function.comp_def] using hrows

theorem passes_members {members : List (List Sign × Script)} (h : ∀ m ∈ members, Passes g m.2.tokens m.2.height) :
    Passes g (Script.separated (Script.memberTokens members)) (Script.membersHeight members) := by
  have hcolon : Passes g [[58]] 0 := passes_quiet (by simp [Quiet])
  have hmember (m : List Sign × Script) (hm : m ∈ members) :
      Passes g (Sign.quoted m.1 :: [58] :: m.2.tokens) m.2.height := by
    simpa using (passes_string m.1).append (hcolon.append (h m hm))
  have hrows := Passes.separated (g := g)
    (members.map fun m => (Sign.quoted m.1 :: [58] :: m.2.tokens, m.2.height))
    (List.forall_mem_map.mpr hmember)
  rw [Script.memberTokens_eq, Script.membersHeight_eq]
  simpa [List.map_map, List.foldr_map, Function.comp_def] using hrows

theorem passes_script (a : Script) : Passes g a.tokens a.height := by
  induction a using Script.inductionOn with
  | null => exact passes_quiet (by simp [Quiet, show ("null" : Text) = [110, 117, 108, 108] from rfl])
  | bool b =>
    cases b with
    | true => exact passes_quiet (by simp [Quiet, show ("true" : Text) = [116, 114, 117, 101] from rfl])
    | false => exact passes_quiet (by simp [Quiet, show ("false" : Text) = [102, 97, 108, 115, 101] from rfl])
  | number n => exact passes_quiet fun b hb => quiet_of_isNumberByte (isNumberByte_of_mem hb)
  | string signs => exact passes_string signs
  | array items ih => exact (passes_items ih).nest false
  | object members ih => exact (passes_members ih).nest true

theorem exists_byte_of_follows {rest : List Text} {t : Text} (h : Follows rest) (ht : Laid rest t) :
    ∃ b u, t = b :: u ∧ b ≠ 0 ∧ isNumberByte b = false := by
  obtain ⟨b, more, rfl, hb⟩ := h
  cases ht with
  | @token blanks _ u _ hblanks hu =>
    cases blanks with
    | nil =>
      refine ⟨b, u, rfl, ?_⟩
      rcases hb with rfl | rfl | rfl <;> exact ⟨by decide, rfl⟩
    | cons c blanks =>
      refine ⟨c, _, rfl, ?_⟩
      rcases isSpace_iff.mp (hblanks c List.mem_cons_self) with rfl | rfl | rfl | rfl <;> exact ⟨by decide, rfl⟩

theorem run_skip_numeral (n : Numeral) {b : UInt8} (hb : isNumberByte b = false)
    (hzero : b ≠ 0) (t : Text) :
    run g ⟨stack, depth, .skip .value⟩ (n.text ++ b :: t) = run g ⟨stack, depth, .more⟩ (b :: t) := by
  have hrest (digits : Text) (h : ∀ c ∈ digits, isNumberByte c) :
      run g ⟨stack, depth, .skip .number⟩ digits = some ⟨stack, depth, .skip .number⟩ := by
    induction digits with
    | nil => rfl
    | cons c digits ih =>
      rw [List.forall_mem_cons] at h
      have hstep : step g ⟨stack, depth, .skip .number⟩ c = some ⟨stack, depth, .skip .number⟩ := by
        simp [step, takeSolid, take, Skip.step, takeSkip, turn, h.1, (isNumberByte_apart h.1).2.1]
      rw [run_cons, hstep, Option.bind_some, ih h.2]
  have hfirst : step g ⟨stack, depth, .skip .value⟩ n.first = some ⟨stack, depth, .skip .number⟩ := by
    have hnumber : isNumberByte n.first = true := isNumberByte_of_mem List.mem_cons_self
    have hquiet := quiet_of_isNumberByte hnumber
    simp [step, takeSolid, take, Skip.step, Skip.first, takeSkip, turn, n.first_ok, (isNumberByte_apart hnumber).1,
      hquiet.1, hquiet.2.1]
  have hlast : step g ⟨stack, depth, .skip .number⟩ b = step g ⟨stack, depth, .more⟩ b := by
    simp [step, takeSolid, take, Skip.step, takeSkip, hb, hzero, takeMore_mode stack depth (.skip _)]
  rw [Numeral.text, List.cons_append, run_cons, hfirst, Option.bind_some, run_append, hrest n.rest n.rest_ok,
    Option.bind_some, run_cons, run_cons, hlast]

theorem run_skip_string (signs : List Sign) (t : Text) :
    run g ⟨stack, depth, .skip .value⟩ (Sign.quoted signs ++ t) = run g ⟨stack, depth, .more⟩ t := by
  have hplain (b : UInt8) (h : b ≠ 0 ∧ b ≠ 34 ∧ b ≠ 92) :
      step g ⟨stack, depth, .skip .text⟩ b = some ⟨stack, depth, .skip .text⟩ := by
    simp [step, takeSolid, take, Skip.step, takeSkip, turn, h]
  have hback (b : UInt8) (hb : b ≠ 0) :
      step g ⟨stack, depth, .skip .textEscape⟩ b = some ⟨stack, depth, .skip .text⟩ := by
    simp [step, takeSolid, take, Skip.step, takeSkip, turn, hb]
  have hopen : step g ⟨stack, depth, .skip .value⟩ 34 = some ⟨stack, depth, .skip .text⟩ := rfl
  have hclose : step g ⟨stack, depth, .skip .text⟩ 34 = some ⟨stack, depth, .more⟩ := rfl
  rw [Sign.quoted, List.cons_append, run_cons, hopen, Option.bind_some, List.append_assoc, run_append,
    run_deaf hplain rfl hback]
  simp [hclose]

theorem exists_run_skip_container {inner rest : List Text} {n : Nat} {t : Text} (stack : List (Frame ρ)) (depth : Nat)
    (kind : Bool) (h : Passes g inner n) (ht : Laid ([opening kind] :: (inner ++ [[closing kind]]) ++ rest) t) :
    ∃ t', Laid rest t' ∧ run g ⟨stack, depth, .skip .value⟩ t =
      if n + 1 ≤ 1 ∨ depth + (n + 1) ≤ maxDepth then run g ⟨stack, depth, .more⟩ t' else none := by
  rw [List.cons_append, List.append_assoc, List.singleton_append] at ht
  obtain ⟨u, hu, hrun⟩ := exists_run_token (g := g) (s := ⟨stack, depth, .skip .value⟩) trivial ht
  obtain ⟨v, hv, hinner⟩ := h stack depth kind 1 (depth + 1) _ u (Nat.le_refl 1) hu
  obtain ⟨w, hw, hlast⟩ := exists_run_token (g := g) (s := ⟨stack, depth, .skip (.nested kind 1 (depth + 1))⟩) trivial hv
  have hopen : step g ⟨stack, depth, .skip .value⟩ (opening kind) =
      some ⟨stack, depth, .skip (.nested kind 1 (depth + 1))⟩ := by
    cases kind <;> rfl
  have hclose : step g ⟨stack, depth, .skip (.nested kind 1 (depth + 1))⟩ (closing kind) =
      some ⟨stack, depth, .more⟩ := by
    cases kind <;> rfl
  refine ⟨w, hw, ?_⟩
  rw [hrun, List.singleton_append, run_cons, hopen, Option.bind_some, hinner, hlast, List.singleton_append, run_cons,
    hclose, Option.bind_some]
  have hiff : n = 0 ∨ (depth : Int) + 1 + n ≤ maxDepth ↔ n + 1 ≤ 1 ∨ depth + (n + 1) ≤ maxDepth := by omega
  simp only [hiff]

theorem exists_run_skip (a : Script) (stack : List (Frame ρ)) (depth : Nat) {rest : List Text} {t : Text}
    (hrest : Follows rest) (ht : Laid (a.tokens ++ rest) t) :
    ∃ t', Laid rest t' ∧ run g ⟨stack, depth, .skip .value⟩ t =
      if a.Fits depth then run g ⟨stack, depth, .more⟩ t' else none := by
  have hscalar {token : Text} (htokens : a.tokens = [token]) (hheight : a.height = 0)
      (hrun : ∀ b u, b ≠ 0 → isNumberByte b = false →
        run g ⟨stack, depth, .skip .value⟩ (token ++ b :: u) = run g ⟨stack, depth, .more⟩ (b :: u)) :
      ∃ t', Laid rest t' ∧ run g ⟨stack, depth, .skip .value⟩ t =
        if a.Fits depth then run g ⟨stack, depth, .more⟩ t' else none := by
    rw [htokens] at ht
    obtain ⟨t', ht', htoken⟩ := exists_run_token (g := g) (s := ⟨stack, depth, .skip .value⟩) trivial ht
    obtain ⟨b, u, rfl, hzero, hb⟩ := exists_byte_of_follows hrest ht'
    refine ⟨_, ht', ?_⟩
    rw [htoken, hrun b u hzero hb, if_pos (by simp [Script.Fits, hheight])]
  cases a with
  | null => exact hscalar rfl rfl fun _ _ _ _ => rfl
  | bool b => cases b <;> exact hscalar rfl rfl fun _ _ _ _ => rfl
  | number n => exact hscalar rfl rfl fun b u hzero hb => run_skip_numeral stack depth n hb hzero u
  | string signs => exact hscalar rfl rfl fun b u _ _ => run_skip_string stack depth signs (b :: u)
  | array items => exact exists_run_skip_container stack depth false (passes_items fun a _ => passes_script a) ht
  | object members => exact exists_run_skip_container stack depth true (passes_members fun m _ => passes_script m.2) ht

/-! ## Values -/

/-- The reader gives the value of a script, if it has one in its place, to the container around it. -/
def Reads (g : Grammar ρ) (a : Script) : Prop :=
  ∀ (form : Form ρ) (stack : List (Frame ρ)) (depth : Nat) (rest : List Text) (t : Text),
    (Follows rest ∨ ∃ r, form = .table r) → Laid (a.tokens ++ rest) t → ∃ t', Laid rest t' ∧
      run g ⟨stack, depth, .value form⟩ t =
        (a.value? g form depth).bind fun v => (deliver ⟨stack, depth, .more⟩ v).bind (run g · t')

theorem reads_null : Reads g .null := by
  intro form stack depth rest t _ ht
  obtain ⟨t', ht', hrun⟩ := exists_run_token (g := g) (s := ⟨stack, depth, .value form⟩) trivial ht
  have hstart : step g ⟨stack, depth, .value form⟩ 110 = some ⟨stack, depth, .word .value "ull" .null⟩ := by
    cases form <;> rfl
  refine ⟨t', ht', ?_⟩
  rw [hrun, show ("null" : Text) = 110 :: "ull" from rfl, List.cons_append, run_cons, hstart, Option.bind_some,
    run_word stack depth .value .null t' "ull" (by decide) (by decide)]
  cases form <;> rfl

theorem reads_bool (b : Bool) : Reads g (.bool b) := by
  intro form stack depth rest t _ ht
  obtain ⟨t', ht', hrun⟩ := exists_run_token (g := g) (s := ⟨stack, depth, .value form⟩) trivial ht
  refine ⟨t', ht', ?_⟩
  rw [hrun]
  cases form with
  | flag =>
    cases b with
    | true =>
      have hstart : step g ⟨stack, depth, .value .flag⟩ 116 = some ⟨stack, depth, .word .value "rue" (.bool true)⟩ := rfl
      rw [if_pos rfl, show ("true" : Text) = 116 :: "rue" from rfl, List.cons_append, run_cons, hstart, Option.bind_some,
        run_word stack depth .value (.bool true) t' "rue" (by decide) (by decide)]
      rfl
    | false =>
      have hstart : step g ⟨stack, depth, .value .flag⟩ 102 = some ⟨stack, depth, .word .value "alse" (.bool false)⟩ := rfl
      rw [if_neg Bool.false_ne_true, show ("false" : Text) = 102 :: "alse" from rfl, List.cons_append, run_cons, hstart,
        Option.bind_some, run_word stack depth .value (.bool false) t' "alse" (by decide) (by decide)]
      rfl
  | _ => cases b <;> rfl

theorem step_first_digit (form : Form ρ) (stack : List (Frame ρ)) (depth : Nat) (n : Numeral) (h : form ≠ .number) :
    step g ⟨stack, depth, .value form⟩ n.first = none := by
  have hnumber : isNumberByte n.first = true := isNumberByte_of_mem List.mem_cons_self
  obtain ⟨hzero, hquote, hcurly, -, hsquare, -⟩ := quiet_of_isNumberByte hnumber
  have hletters : n.first ≠ 110 ∧ n.first ≠ 116 ∧ n.first ≠ 102 := by
    refine ⟨?_, ?_, ?_⟩ <;> intro hfirst <;> rw [hfirst] at hnumber <;> cases hnumber
  cases form <;>
    simp_all [step, takeSolid, take, startValue, (isNumberByte_apart hnumber).1]

theorem reads_number (n : Numeral) : Reads g (.number n) := by
  intro form stack depth rest t hrest ht
  obtain ⟨t', ht', hrun⟩ := exists_run_token (g := g) (s := ⟨stack, depth, .value form⟩) trivial ht
  refine ⟨t', ht', ?_⟩
  rw [hrun]
  cases form with
  | number =>
    obtain ⟨b, u, rfl, hzero, hb⟩ := exists_byte_of_follows (hrest.resolve_right (by simp)) ht'
    rw [run_numeral stack depth n hb hzero, Script.value?]
  | _ =>
    rw [Numeral.text, List.cons_append, run_cons, step_first_digit _ _ _ n (by simp)]
    rfl

theorem reads_string (signs : List Sign) : Reads g (.string signs) := by
  intro form stack depth rest t hrest ht
  obtain ⟨t', ht', hrun⟩ := exists_run_token (g := g) (s := ⟨stack, depth, .value form⟩) trivial ht
  refine ⟨t', ht', ?_⟩
  rw [hrun]
  cases form with
  | text =>
    have hstart : step g ⟨stack, depth, .value .text⟩ 34 = some ⟨stack, depth, .text .value (.plain [])⟩ := rfl
    rw [Sign.quoted, List.cons_append, run_cons, hstart, Option.bind_some, List.append_assoc, List.singleton_append,
      run_string stack depth .value signs t', Script.value?]
    rfl
  | _ => rfl

/-! ## Arrays -/

theorem exists_first_byte (a : Script) : ∃ b token more, a.tokens = (b :: token) :: more ∧ b ≠ 0 ∧ isSpace b = false ∧
    b ≠ 125 ∧ b ≠ 93 := by
  cases a with
  | null => exact ⟨110, _, _, rfl, by decide⟩
  | bool b => cases b <;> exact ⟨_, _, _, rfl, by decide⟩
  | number n =>
    have hnumber : isNumberByte n.first = true := isNumberByte_of_mem List.mem_cons_self
    obtain ⟨hspace, hzero, -, hsquare, hcurly⟩ := isNumberByte_apart hnumber
    exact ⟨n.first, n.rest, [], rfl, hzero, hspace, hcurly, hsquare⟩
  | string signs => exact ⟨34, _, _, rfl, by decide⟩
  | array items => exact ⟨91, _, _, rfl, by decide⟩
  | object members => exact ⟨123, _, _, rfl, by decide⟩

theorem run_opened_item (r : ρ) (items : List Json) (stack : List (Frame ρ)) (depth : Nat) (a : Script) {rest : List Text}
    {t : Text} (ht : Laid (a.tokens ++ rest) t) :
    run g ⟨.list r items :: stack, depth, .opened⟩ t = run g ⟨.list r items :: stack, depth, .value (.record r)⟩ t := by
  obtain ⟨b, token, more, htokens, hzero, hspace, hcurly, hsquare⟩ := exists_first_byte a
  rw [htokens] at ht
  cases ht with
  | token hblanks _ =>
    rw [run_blanks (s := ⟨.list r items :: stack, depth, .opened⟩) trivial hblanks,
      run_blanks (s := ⟨.list r items :: stack, depth, .value (.record r)⟩) trivial hblanks, List.cons_append, run_cons,
      run_cons]
    congr 1
    simp [step, takeSolid, take, startOpened, hzero, hspace, hcurly, hsquare, startValue, turn, startNull, openFrame]

theorem exists_run_items (r : ρ) (stack : List (Frame ρ)) (depth : Nat) (rest : List Text) {items : List Script}
    (h : ∀ a ∈ items, Reads g a) : ∀ (read : List Json) (t : Text),
    Laid ((Script.itemTokens items).flatMap ([44] :: ·) ++ [93] :: rest) t → ∃ t', Laid rest t' ∧
      run g ⟨.list r read :: stack, depth + 1, .more⟩ t =
        (Script.items? g (.record r) (depth + 1) items).bind fun vs =>
          (deliver ⟨stack, depth, .more⟩ (.array (read.reverse ++ vs))).bind (run g · t') := by
  induction items with
  | nil =>
    intro read t ht
    obtain ⟨t', ht', hrun⟩ := exists_run_token (g := g) (s := ⟨.list r read :: stack, depth + 1, .more⟩) trivial ht
    have hclose : step g ⟨.list r read :: stack, depth + 1, .more⟩ 93 =
        deliver ⟨stack, depth, .more⟩ (.array read.reverse) := rfl
    refine ⟨t', ht', ?_⟩
    rw [hrun, List.singleton_append, run_cons, hclose, Script.items?, Option.bind_some, List.append_nil]
  | cons a items ih =>
    intro read t ht
    rw [List.forall_mem_cons] at h
    rw [Script.itemTokens, List.flatMap_cons, List.cons_append, List.cons_append, List.append_assoc] at ht
    obtain ⟨u, hu, hrun⟩ := exists_run_token (g := g) (s := ⟨.list r read :: stack, depth + 1, .more⟩) trivial ht
    have hfollows : Follows ((Script.itemTokens items).flatMap ([44] :: ·) ++ [93] :: rest) := by
      cases items with
      | nil => exact ⟨93, rest, rfl, by simp⟩
      | cons _ _ => exact ⟨44, _, rfl, by simp⟩
    obtain ⟨v, hv, hvalue⟩ := h.1 (.record r) (.list r read :: stack) (depth + 1) _ u (.inl hfollows) hu
    have hcomma : step g ⟨.list r read :: stack, depth + 1, .more⟩ 44 =
        some ⟨.list r read :: stack, depth + 1, .value (.record r)⟩ := rfl
    rw [hrun, List.singleton_append, run_cons, hcomma, Option.bind_some, hvalue, Script.items?]
    cases hhead : a.value? g (.record r) (depth + 1) with
    | none =>
      obtain ⟨w, hw, -⟩ := ih h.2 [] v hv
      exact ⟨w, hw, rfl⟩
    | some x =>
      obtain ⟨w, hw, hitems⟩ := ih h.2 (x :: read) v hv
      refine ⟨w, hw, ?_⟩
      have hdeliver : deliver ⟨.list r read :: stack, depth + 1, .more⟩ x =
          some ⟨.list r (x :: read) :: stack, depth + 1, .more⟩ := rfl
      rw [Option.bind_some, hdeliver, Option.bind_some, hitems, Option.bind_some]
      cases Script.items? g (.record r) (depth + 1) items <;> simp

/-! ## Objects -/

theorem run_name (o : ObjectForm ρ) (read : List (Text × Json)) (stack : List (Frame ρ)) (depth : Nat) (key : List Sign)
    (t : Text) :
    run g ⟨o.frame read none :: stack, depth, .name⟩ (Sign.quoted key ++ t) =
      run g ⟨o.frame read ((o.place? g key).map Prod.fst) :: stack, depth, .colon ((o.place? g key).map Prod.snd)⟩ t := by
  rw [Sign.quoted, List.cons_append, run_cons, List.append_assoc, List.singleton_append]
  cases o with
  | record r =>
    have hstart : step g ⟨.record r read none :: stack, depth, .name⟩ 34 =
        some ⟨.record r read none :: stack, depth, .key (Key.start (g r))⟩ := rfl
    rw [ObjectForm.frame, hstart, Option.bind_some, Key.start, run_key, ← Sign.field?]
    simp only [ObjectForm.place?]
    cases Sign.field? (g r) key <;> rfl
  | table r =>
    have hstart : step g ⟨.table r read none :: stack, depth, .name⟩ 34 =
        some ⟨.table r read none :: stack, depth, .text .name (.plain [])⟩ := rfl
    rw [ObjectForm.frame, hstart, Option.bind_some, run_string]
    rfl

theorem exists_run_member (o : ObjectForm ρ) (read : List (Text × Json)) (stack : List (Frame ρ)) (depth : Nat)
    (key : List Sign) {a : Script} {rest : List Text} {t : Text} (h : Reads g a) (hrest : Follows rest)
    (ht : Laid (Sign.quoted key :: [58] :: (a.tokens ++ rest)) t) :
    ∃ t', Laid rest t' ∧ run g ⟨o.frame read none :: stack, depth, .name⟩ t =
      match o.place? g key with
      | some (name, form) => (a.value? g form depth).bind fun v =>
        run g ⟨o.frame ((name, v) :: read) none :: stack, depth, .more⟩ t'
      | none => if a.Fits depth then run g ⟨o.frame read none :: stack, depth, .more⟩ t' else none := by
  obtain ⟨u, hu, hrun⟩ := exists_run_token (g := g) (s := ⟨o.frame read none :: stack, depth, .name⟩) trivial ht
  rw [hrun, run_name]
  cases hplace : o.place? g key with
  | none =>
    obtain ⟨v, hv, hcolon⟩ := exists_run_token (g := g) (s := ⟨o.frame read none :: stack, depth, .colon none⟩) trivial hu
    obtain ⟨w, hw, hskip⟩ := exists_run_skip (g := g) a (o.frame read none :: stack) depth hrest hv
    have hstep : step g ⟨o.frame read none :: stack, depth, .colon none⟩ 58 =
        some ⟨o.frame read none :: stack, depth, .skip .value⟩ := rfl
    refine ⟨w, hw, ?_⟩
    rw [Option.map_none, Option.map_none, hcolon, List.singleton_append, run_cons, hstep, Option.bind_some, hskip]
  | some place =>
    obtain ⟨name, form⟩ := place
    obtain ⟨v, hv, hcolon⟩ := exists_run_token (g := g)
      (s := ⟨o.frame read (some name) :: stack, depth, .colon (some form)⟩) trivial hu
    obtain ⟨w, hw, hvalue⟩ := h form (o.frame read (some name) :: stack) depth rest v (.inl hrest) hv
    have hstep : step g ⟨o.frame read (some name) :: stack, depth, .colon (some form)⟩ 58 =
        some ⟨o.frame read (some name) :: stack, depth, .value form⟩ := rfl
    have hdeliver (x : Json) : deliver ⟨o.frame read (some name) :: stack, depth, .more⟩ x =
        some ⟨o.frame ((name, x) :: read) none :: stack, depth, .more⟩ := by
      cases o <;> rfl
    refine ⟨w, hw, ?_⟩
    rw [Option.map_some, Option.map_some, hcolon, List.singleton_append, run_cons, hstep, Option.bind_some, hvalue]
    simp only [hdeliver, Option.bind_some]

theorem exists_run_members (o : ObjectForm ρ) (stack : List (Frame ρ)) (depth : Nat) (rest : List Text)
    {members : List (List Sign × Script)} (h : ∀ m ∈ members, Reads g m.2) : ∀ (read : List (Text × Json)) (t : Text),
    Laid ((Script.memberTokens members).flatMap ([44] :: ·) ++ [125] :: rest) t → ∃ t', Laid rest t' ∧
      run g ⟨o.frame read none :: stack, depth + 1, .more⟩ t =
        (Script.members? g o (depth + 1) members).bind fun vs =>
          (deliver ⟨stack, depth, .more⟩ (.object (read.reverse ++ vs))).bind (run g · t') := by
  induction members with
  | nil =>
    intro read t ht
    obtain ⟨t', ht', hrun⟩ := exists_run_token (g := g) (s := ⟨o.frame read none :: stack, depth + 1, .more⟩) trivial ht
    have hclose : step g ⟨o.frame read none :: stack, depth + 1, .more⟩ 125 =
        deliver ⟨stack, depth, .more⟩ (.object read.reverse) := by
      cases o <;> rfl
    refine ⟨t', ht', ?_⟩
    rw [hrun, List.singleton_append, run_cons, hclose, Script.members?, Option.bind_some, List.append_nil]
  | cons m members ih =>
    intro read t ht
    obtain ⟨key, a⟩ := m
    rw [List.forall_mem_cons] at h
    rw [Script.memberTokens, List.flatMap_cons, List.cons_append, List.cons_append, List.append_assoc, List.cons_append,
      List.cons_append] at ht
    obtain ⟨u, hu, hrun⟩ := exists_run_token (g := g) (s := ⟨o.frame read none :: stack, depth + 1, .more⟩) trivial ht
    have hfollows : Follows ((Script.memberTokens members).flatMap ([44] :: ·) ++ [125] :: rest) := by
      cases members with
      | nil => exact ⟨125, rest, rfl, by simp⟩
      | cons _ _ => exact ⟨44, _, rfl, by simp⟩
    obtain ⟨v, hv, hmember⟩ := exists_run_member o read stack (depth + 1) key h.1 hfollows hu
    have hcomma : step g ⟨o.frame read none :: stack, depth + 1, .more⟩ 44 =
        some ⟨o.frame read none :: stack, depth + 1, .name⟩ := by
      cases o <;> rfl
    rw [hrun, List.singleton_append, run_cons, hcomma, Option.bind_some, hmember, Script.members?]
    cases hplace : o.place? g key with
    | none =>
      obtain ⟨w, hw, hmembers⟩ := ih h.2 read v hv
      refine ⟨w, hw, ?_⟩
      by_cases hfits : a.Fits (depth + 1)
      · simp only [if_pos hfits, hmembers]
      · simp only [if_neg hfits, Option.bind_none]
    | some place =>
      obtain ⟨name, form⟩ := place
      cases hhead : a.value? g form (depth + 1) with
      | none =>
        obtain ⟨w, hw, -⟩ := ih h.2 [] v hv
        exact ⟨w, hw, by simp [hhead]⟩
      | some x =>
        obtain ⟨w, hw, hmembers⟩ := ih h.2 ((name, x) :: read) v hv
        refine ⟨w, hw, ?_⟩
        simp only [hhead, Option.bind_some, hmembers]
        cases Script.members? g o (depth + 1) members <;> simp

/-! ## Whole texts -/

theorem exists_laid_of_append {tokens rest : List Text} {t : Text} (h : Laid (tokens ++ rest) t) : ∃ t', Laid rest t' := by
  induction tokens generalizing t with
  | nil => exact ⟨t, h⟩
  | cons token tokens ih =>
    cases h with
    | token _ hrest => exact ih hrest

theorem run_opened_array (r : ρ) (stack : List (Frame ρ)) (depth : Nat) (items : List Script) {rest : List Text} {t : Text}
    (ht : Laid (Script.separated (Script.itemTokens items) ++ [93] :: rest) t) :
    ∃ u, Laid ((Script.itemTokens items).flatMap ([44] :: ·) ++ [93] :: rest) u ∧
      run g ⟨.list r [] :: stack, depth, .opened⟩ t = run g ⟨.list r [] :: stack, depth, .more⟩ u := by
  cases items with
  | nil =>
    refine ⟨t, ht, ?_⟩
    cases ht with
    | token hblanks _ =>
      rw [run_blanks (s := ⟨.list r [] :: stack, depth, .opened⟩) trivial hblanks,
        run_blanks (s := ⟨.list r [] :: stack, depth, .more⟩) trivial hblanks]
      rfl
  | cons a items =>
    rw [Script.itemTokens, Script.separated, List.append_assoc] at ht
    refine ⟨44 :: t, ?_, run_opened_item r [] stack depth a ht⟩
    rw [Script.itemTokens, List.flatMap_cons, List.cons_append, List.cons_append, List.append_assoc]
    exact ht.tight

theorem run_opened_object (o : ObjectForm ρ) (stack : List (Frame ρ)) (depth : Nat) (members : List (List Sign × Script))
    {rest : List Text} {t : Text} (ht : Laid (Script.separated (Script.memberTokens members) ++ [125] :: rest) t) :
    ∃ u, Laid ((Script.memberTokens members).flatMap ([44] :: ·) ++ [125] :: rest) u ∧
      run g ⟨o.frame [] none :: stack, depth, .opened⟩ t = run g ⟨o.frame [] none :: stack, depth, .more⟩ u := by
  cases members with
  | nil =>
    refine ⟨t, ht, ?_⟩
    cases ht with
    | token hblanks _ =>
      rw [run_blanks (s := ⟨o.frame [] none :: stack, depth, .opened⟩) trivial hblanks,
        run_blanks (s := ⟨o.frame [] none :: stack, depth, .more⟩) trivial hblanks]
      cases o <;> rfl
  | cons m members =>
    rw [Script.memberTokens, Script.separated, List.append_assoc] at ht
    refine ⟨44 :: t, ?_, ?_⟩
    · rw [Script.memberTokens, List.flatMap_cons, List.cons_append, List.cons_append, List.append_assoc]
      exact ht.tight
    · have hcomma : step g ⟨o.frame [] none :: stack, depth, .more⟩ 44 =
          some ⟨o.frame [] none :: stack, depth, .name⟩ := by
        cases o <;> rfl
      rw [run_cons, hcomma, Option.bind_some]
      cases ht with
      | token hblanks _ =>
        rw [run_blanks (s := ⟨o.frame [] none :: stack, depth, .opened⟩) trivial hblanks,
          run_blanks (s := ⟨o.frame [] none :: stack, depth, .name⟩) trivial hblanks]
        cases o <;> rfl

theorem reads_array {items : List Script} (h : ∀ a ∈ items, Reads g a) : Reads g (.array items) := by
  intro form stack depth rest t _ ht
  obtain ⟨t', ht'⟩ := exists_laid_of_append ht
  rw [Script.tokens, List.cons_append, List.append_assoc, List.singleton_append] at ht
  obtain ⟨u, hu, hrun⟩ := exists_run_token (g := g) (s := ⟨stack, depth, .value form⟩) trivial ht
  rw [hrun, List.singleton_append, run_cons]
  cases form with
  | list r =>
    have hopen : step g ⟨stack, depth, .value (.list r)⟩ 91 =
        if depth < maxDepth then some ⟨.list r [] :: stack, depth + 1, .opened⟩ else none := rfl
    rw [hopen, Script.value?]
    by_cases hdepth : depth < maxDepth
    · obtain ⟨v, hv, hopened⟩ := run_opened_array (g := g) r stack (depth + 1) items hu
      obtain ⟨w, hw, hitems⟩ := exists_run_items r stack depth rest h [] v hv
      refine ⟨w, hw, ?_⟩
      rw [if_pos hdepth, if_pos hdepth, Option.bind_some, hopened, hitems, Option.bind_map]
      rfl
    · rw [if_neg hdepth, if_neg hdepth]
      exact ⟨t', ht', rfl⟩
  | _ => exact ⟨t', ht', rfl⟩

theorem step_open_object (o : ObjectForm ρ) (stack : List (Frame ρ)) (depth : Nat) :
    step g ⟨stack, depth, .value o.form⟩ 123 =
      if depth < maxDepth then some ⟨o.frame [] none :: stack, depth + 1, .opened⟩ else none := by
  cases o <;> rfl

theorem reads_object {members : List (List Sign × Script)} (h : ∀ m ∈ members, Reads g m.2) :
    Reads g (.object members) := by
  intro form stack depth rest t _ ht
  obtain ⟨t', ht'⟩ := exists_laid_of_append ht
  rw [Script.tokens, List.cons_append, List.append_assoc, List.singleton_append] at ht
  obtain ⟨u, hu, hrun⟩ := exists_run_token (g := g) (s := ⟨stack, depth, .value form⟩) trivial ht
  rw [hrun, List.singleton_append, run_cons]
  have hobject (o : ObjectForm ρ) : ∃ t', Laid rest t' ∧
      (step g ⟨stack, depth, .value o.form⟩ 123).bind (run g · u) =
        (Script.value? g o.form depth (.object members)).bind fun v =>
          (deliver ⟨stack, depth, .more⟩ v).bind (run g · t') := by
    rw [step_open_object, Script.value?_object]
    by_cases hdepth : depth < maxDepth
    · obtain ⟨v, hv, hopened⟩ := run_opened_object (g := g) o stack (depth + 1) members hu
      obtain ⟨w, hw, hmembers⟩ := exists_run_members o stack depth rest h [] v hv
      refine ⟨w, hw, ?_⟩
      rw [if_pos hdepth, if_pos hdepth, Option.bind_some, hopened, hmembers, Option.bind_map]
      rfl
    · rw [if_neg hdepth, if_neg hdepth]
      exact ⟨t', ht', rfl⟩
  cases form with
  | record r => exact hobject (.record r)
  | table r => exact hobject (.table r)
  | _ => exact ⟨t', ht', rfl⟩

theorem reads (a : Script) : Reads g a := by
  induction a using Script.inductionOn with
  | null => exact reads_null
  | bool b => exact reads_bool b
  | number n => exact reads_number n
  | string signs => exact reads_string signs
  | array items ih => exact reads_array ih
  | object members ih => exact reads_object ih

end Reader

/-- The text of a script is read as the value of the script. -/
theorem parse?_eq {ρ : Type} (g : Grammar ρ) (r : ρ) {a : Script} {t : Text} (h : a.Spells t) :
    parse? g (.table r) t = a.value? g (.table r) 0 := by
  obtain ⟨blanks, hblanks, hrun⟩ := Reader.reads (g := g) a (.table r) [] 0 [] t (.inr ⟨r, rfl⟩)
    (by rwa [List.append_nil])
  rw [parse?, ← Reader.run, hrun]
  cases a.value? g (.table r) 0 with
  | none => rfl
  | some v =>
    cases hblanks with
    | finish hspace =>
      have hdone := Reader.run_blanks (g := g) (s := ⟨[], 0, .done v⟩) trivial hspace []
      rw [List.append_nil] at hdone
      rw [Option.bind_some, Reader.deliver, Reader.turn, Option.bind_some, hdone]
      rfl

end RpcBindings.Json
