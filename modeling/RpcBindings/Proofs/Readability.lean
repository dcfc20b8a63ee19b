import Mathlib.Data.List.Forall2
import Mathlib.Data.List.Nodup
import Mathlib.Data.List.TakeWhile
import RpcBindings.Proofs.Naming
import RpcBindings.Proofs.Resolve
import RpcBindings.Proofs.Text

/-!
# Type expressions can be read in one way only

A printed type is a word followed by what stands in brackets, and a word ends at the first mark of the type notation.
So what is printed for two trees, whatever follows, agrees only if the trees do. From the tree the type itself can be
told, up to the difference of classes and enumerations and to services that share a module.
-/

namespace RpcBindings

namespace TypeExpr

@[elab_as_elim]
theorem inductionOn {motive : TypeExpr → Prop} (e : TypeExpr) (path : ∀ name, motive (.path name))
    (generic : ∀ head arguments, (∀ e ∈ arguments, motive e) → motive (.generic head arguments))
    (tuple : ∀ elements, (∀ e ∈ elements, motive e) → motive (.tuple elements)) : motive e :=
  match e with
  | .path name => path name
  | .generic head arguments => generic head arguments fun e _ => inductionOn e path generic tuple
  | .tuple elements => tuple elements fun e _ => inductionOn e path generic tuple

def marks : List UInt8 := [60, 62, 40, 41, 44, 32]

def IsWord (w : Text) : Prop := w ≠ [] ∧ ∀ b ∈ w, b ∉ marks

-- bytes are checked in the order of the text: there are few of them, and many that a text could hold
instance (w : Text) : Decidable (IsWord w) :=
  have : Decidable (∀ b ∈ w, b ∉ marks) := List.decidableBAll _ w
  inferInstanceAs (Decidable (w ≠ [] ∧ ∀ b ∈ w, b ∉ marks))

mutual

def Readable : TypeExpr → Prop
  | path name => IsWord name
  | generic head arguments => IsWord head ∧ arguments ≠ [] ∧ AllReadable arguments
  | tuple elements => AllReadable elements

def AllReadable : List TypeExpr → Prop
  | [] => True
  | e :: es => Readable e ∧ AllReadable es

end

theorem allReadable_iff {es : List TypeExpr} : AllReadable es ↔ ∀ e ∈ es, e.Readable := by
  induction es with
  | nil => simp [AllReadable]
  | cons e es ih => simp [AllReadable, ih]

def Ends (k : Text) : Prop := ∀ b, k.head? = some b → b = 62 ∨ b = 41 ∨ b = 44

theorem word_append_inj {v w k l : Text} (hv : ∀ b ∈ v, b ∉ marks) (hw : ∀ b ∈ w, b ∉ marks)
    (hk : ∀ b, k.head? = some b → b ∈ marks) (hl : ∀ b, l.head? = some b → b ∈ marks) (h : v ++ k = w ++ l) :
    v = w ∧ k = l := by
  have hlead : ∀ {u r : Text}, (∀ b ∈ u, b ∉ marks) → (∀ b, r.head? = some b → b ∈ marks) →
      (u ++ r).takeWhile (fun b => b ∉ marks) = u := by
    intro u r hu hr
    rw [List.takeWhile_append_of_pos (by simpa using hu)]
    cases r with
    | nil => simp
    | cons b r => rw [List.takeWhile_cons_of_neg (by simpa using hr b rfl), List.append_nil]
  have heq : v = w := by rw [← hlead hv hk, h, hlead hw hl]
  subst heq
  exact ⟨rfl, List.append_cancel_left h⟩

theorem Ends.marks {k : Text} (hk : Ends k) : ∀ b, k.head? = some b → b ∈ TypeExpr.marks := by
  intro b hb
  rcases hk b hb with rfl | rfl | rfl <;> decide

theorem ends_close (k : Text) : Ends (62 :: k) ∧ Ends (41 :: k) ∧ Ends (44 :: k) := by
  refine ⟨?_, ?_, ?_⟩ <;> intro b hb <;> cases hb <;> decide

/-- Two trees print alike in front of texts that can follow a type only if they are one tree. -/
def ReadsBack (e : TypeExpr) : Prop :=
  ∀ e' k k', e.Readable → e'.Readable → Ends k → Ends k' → e.text ++ k = e'.text ++ k' → e = e' ∧ k = k'

theorem row_inj {close : UInt8} (hclose : close = 62 ∨ close = 41) {es : List TypeExpr} :
    ∀ {es' : List TypeExpr} {k k' : Text}, (∀ e ∈ es, ReadsBack e) → (∀ e ∈ es, e.Readable) →
      (∀ e ∈ es', e.Readable) → es ≠ [] → es' ≠ [] →
      Text.join ", " (es.map text) ++ close :: k = Text.join ", " (es'.map text) ++ close :: k' → es = es' ∧ k = k' := by
  have hends : ∀ k, Ends (close :: k) := fun k => by
    rcases hclose with rfl | rfl
    · exact (ends_close k).1
    · exact (ends_close k).2.1
  have hcomma : close ≠ 44 := by rcases hclose with rfl | rfl <;> decide
  have hsep : Text.ofString ", " = [44, 32] := rfl
  induction es with
  | nil => intro es' k k' _ _ _ hne; exact absurd rfl hne
  | cons e rest ih =>
    intro es' k k' hreads hes hes' _ hne' h
    obtain ⟨e', rest', rfl⟩ := List.exists_cons_of_ne_nil hne'
    have he := hreads e List.mem_cons_self
    have hr := hes e List.mem_cons_self
    have hr' := hes' e' List.mem_cons_self
    -- the first elements agree whatever follows; what follows then tells whether a row goes on
    cases rest with
    | nil =>
      cases rest' with
      | nil =>
        obtain ⟨rfl, hk⟩ := he e' _ _ hr hr' (hends k) (hends k') h
        exact ⟨rfl, (List.cons.inj hk).2⟩
      | cons f' rest' =>
        simp only [List.map_cons, List.map_nil, Text.join, List.append_assoc, hsep] at h
        obtain ⟨-, hk⟩ := he e' _ _ hr hr' (hends k) (ends_close _).2.2 h
        exact absurd (List.cons.inj hk).1 hcomma
    | cons f rest =>
      cases rest' with
      | nil =>
        simp only [List.map_cons, List.map_nil, Text.join, List.append_assoc, hsep] at h
        obtain ⟨-, hk⟩ := he e' _ _ hr hr' (ends_close _).2.2 (hends k') h
        exact absurd (List.cons.inj hk).1.symm hcomma
      | cons f' rest' =>
        simp only [List.map_cons, Text.join, List.append_assoc, hsep] at h
        obtain ⟨rfl, hk⟩ := he e' _ _ hr hr' (ends_close _).2.2 (ends_close _).2.2 h
        have htail : Text.join ", " ((f :: rest).map text) ++ close :: k =
            Text.join ", " ((f' :: rest').map text) ++ close :: k' := (List.cons.inj (List.cons.inj hk).2).2
        obtain ⟨hrest, hk⟩ := ih (fun x hx => hreads x (List.mem_cons_of_mem e hx))
          (fun x hx => hes x (List.mem_cons_of_mem e hx)) (fun x hx => hes' x (List.mem_cons_of_mem e hx))
          (List.cons_ne_nil f rest) (List.cons_ne_nil f' rest') htail
        exact ⟨by rw [hrest], hk⟩

def tupleTail (k : Text) : List TypeExpr → Text
  | [] => 41 :: k
  | e :: es => 32 :: (Text.join ", " ((e :: es).map text) ++ 41 :: k)

theorem text_tuple_cons (e : TypeExpr) (es : List TypeExpr) (k : Text) :
    (tuple (e :: es)).text ++ k = 40 :: (e.text ++ 44 :: tupleTail k es) := by
  have hopen : Text.ofString "(" = [40] := rfl
  have hclose : Text.ofString ")" = [41] := rfl
  have hone : Text.ofString ",)" = [44, 41] := rfl
  have hsep : Text.ofString ", " = [44, 32] := rfl
  cases es with
  | nil => simp [text, textAll, tupleTail, hopen, hone]
  | cons f es => simp [text, textAll, textAll_eq, tupleTail, Text.join, hopen, hclose, hsep]

theorem tupleTail_inj {es es' : List TypeExpr} {k k' : Text} (ih : ∀ e ∈ es, ReadsBack e)
    (hes : ∀ e ∈ es, e.Readable) (hes' : ∀ e ∈ es', e.Readable) (h : tupleTail k es = tupleTail k' es') :
    es = es' ∧ k = k' := by
  cases es with
  | nil =>
    cases es' with
    | nil => exact ⟨rfl, (List.cons.inj h).2⟩
    | cons e' es' => exact absurd (List.cons.inj h).1 (by decide)
  | cons e es =>
    cases es' with
    | nil => exact absurd (List.cons.inj h).1 (by decide)
    | cons e' es' =>
      exact row_inj (.inr rfl) ih hes hes' (List.cons_ne_nil e es) (List.cons_ne_nil e' es') (List.cons.inj h).2

theorem text_tuple_head (elements : List TypeExpr) (k : Text) : ∃ rest, (tuple elements).text ++ k = 40 :: rest := by
  cases elements with
  | nil => exact ⟨_, rfl⟩
  | cons e es => exact ⟨_, text_tuple_cons e es k⟩

theorem text_head {e : TypeExpr} (h : e.Readable) : ∃ b rest, e.text = b :: rest ∧ b ≠ 41 := by
  have hword : ∀ {w k : Text}, IsWord w → ∃ b rest, w ++ k = b :: rest ∧ b ≠ 41 := by
    intro w k ⟨hne, hw⟩
    obtain ⟨b, rest, rfl⟩ := List.exists_cons_of_ne_nil hne
    refine ⟨b, rest ++ k, rfl, fun hb => hw b List.mem_cons_self ?_⟩
    rw [hb]
    decide
  cases e with
  | path name => simpa [text] using hword (k := []) h
  | generic head arguments =>
    obtain ⟨b, rest, hb, hne⟩ := hword (k := "<" ++ (Text.join ", " (textAll arguments) ++ ">")) h.1
    exact ⟨b, rest, by simpa [text] using hb, hne⟩
  | tuple elements =>
    obtain ⟨rest, hrest⟩ := text_tuple_head elements []
    exact ⟨40, rest, (List.append_nil _).symm.trans hrest, by decide⟩

theorem text_tuple_nil_ne {e : TypeExpr} (h : e.Readable) (es : List TypeExpr) (k k' : Text) :
    (tuple []).text ++ k ≠ (tuple (e :: es)).text ++ k' := by
  intro heq
  obtain ⟨b, rest, hb, hne⟩ := text_head h
  rw [text_tuple_cons, hb] at heq
  exact hne (List.cons.inj (List.cons.inj heq).2).1.symm

theorem path_readsBack (name : Text) : ReadsBack (.path name) := by
  intro e' k k' hr hr' hk hk' h
  cases e' with
  | path name' =>
    obtain ⟨rfl, hk⟩ := word_append_inj hr.2 hr'.2 hk.marks hk'.marks h
    exact ⟨rfl, hk⟩
  | generic head' arguments' =>
    simp only [text, List.append_assoc] at h
    obtain ⟨-, hopen⟩ := word_append_inj hr.2 hr'.1.2 hk.marks (fun b hb => by cases hb; decide) h
    rw [hopen] at hk
    exact absurd (hk 60 rfl) (by decide)
  | tuple elements' =>
    obtain ⟨rest, hrest⟩ := text_tuple_head elements' k'
    rw [hrest] at h
    obtain ⟨hempty, -⟩ := word_append_inj (w := []) (l := 40 :: rest) hr.2 (by simp) hk.marks
      (fun b hb => by cases hb; decide) h
    exact absurd hempty hr.1

theorem text_generic_ne_tuple {head : Text} (h : IsWord head) (arguments elements : List TypeExpr) (k k' : Text) :
    (generic head arguments).text ++ k ≠ (tuple elements).text ++ k' := by
  intro heq
  obtain ⟨hne, hword⟩ := h
  obtain ⟨b, rest, rfl⟩ := List.exists_cons_of_ne_nil hne
  obtain ⟨rest', hrest'⟩ := text_tuple_head elements k'
  rw [hrest'] at heq
  have hb : b = 40 := (List.cons.inj heq).1
  exact absurd (by rw [hb]; decide) (hword b List.mem_cons_self)

theorem generic_readsBack {head : Text} {arguments : List TypeExpr} (ih : ∀ e ∈ arguments, ReadsBack e) :
    ReadsBack (.generic head arguments) := by
  intro e' k k' hr hr' hk hk' h
  cases e' with
  | path name' =>
    obtain ⟨heq, -⟩ := path_readsBack name' _ _ _ hr' hr hk' hk h.symm
    cases heq
  | generic head' arguments' =>
    simp only [text, textAll_eq, List.append_assoc] at h
    obtain ⟨rfl, hrow⟩ := word_append_inj hr.1.2 hr'.1.2 (fun b hb => by cases hb; decide)
      (fun b hb => by cases hb; decide) h
    obtain ⟨rfl, hk⟩ := row_inj (.inl rfl) ih (allReadable_iff.mp hr.2.2) (allReadable_iff.mp hr'.2.2) hr.2.1 hr'.2.1
      (List.cons.inj hrow).2
    exact ⟨rfl, hk⟩
  | tuple elements' => exact absurd h (text_generic_ne_tuple hr.1 arguments elements' k k')

theorem tuple_readsBack {elements : List TypeExpr} (ih : ∀ e ∈ elements, ReadsBack e) :
    ReadsBack (.tuple elements) := by
  intro e' k k' hr hr' hk hk' h
  cases e' with
  | path name' =>
    obtain ⟨heq, -⟩ := path_readsBack name' _ _ _ hr' hr hk' hk h.symm
    cases heq
  | generic head' arguments' => exact absurd h.symm (text_generic_ne_tuple hr'.1 arguments' elements k' k)
  | tuple elements' =>
    have hes := allReadable_iff.mp hr
    have hes' := allReadable_iff.mp hr'
    cases elements with
    | nil =>
      cases elements' with
      | nil => exact ⟨rfl, (List.cons.inj (List.cons.inj h).2).2⟩
      | cons e' es' => exact absurd h (text_tuple_nil_ne (hes' e' List.mem_cons_self) es' k k')
    | cons e es =>
      cases elements' with
      | nil => exact absurd h.symm (text_tuple_nil_ne (hes e List.mem_cons_self) es k' k)
      | cons e' es' =>
        rw [text_tuple_cons, text_tuple_cons] at h
        obtain ⟨rfl, htail⟩ := ih e List.mem_cons_self e' _ _ (hes e List.mem_cons_self) (hes' e' List.mem_cons_self)
          (ends_close _).2.2 (ends_close _).2.2 (List.cons.inj h).2
        obtain ⟨rfl, hk⟩ := tupleTail_inj (fun x hx => ih x (List.mem_cons_of_mem e hx))
          (fun x hx => hes x (List.mem_cons_of_mem e hx)) (fun x hx => hes' x (List.mem_cons_of_mem e hx))
          (List.cons.inj htail).2
        exact ⟨rfl, hk⟩

theorem readsBack (e : TypeExpr) : ReadsBack e := by
  induction e using inductionOn with
  | path name => exact path_readsBack name
  | generic head arguments ih => exact generic_readsBack ih
  | tuple elements ih => exact tuple_readsBack ih

theorem text_inj {e e' : TypeExpr} (h : e.Readable) (h' : e'.Readable) (heq : e.text = e'.text) : e = e' :=
  (readsBack e e' [] [] h h' (fun _ hb => by cases hb) (fun _ hb => by cases hb) (by simpa using heq)).1

end TypeExpr

namespace DataType

def spellings : List Text := List.map Text.ofString ["bool", "i32", "u32", "i64", "u64", "f64", "f32", "String", "u8"]

/-- A name that cannot be taken for anything else in a type. -/
def IsClean (name : Text) : Prop := (∀ b ∈ name, b ∉ TypeExpr.marks ∧ b ≠ 58) ∧ name ∉ spellings

instance (name : Text) : Decidable (IsClean name) :=
  have : Decidable (∀ b ∈ name, b ∉ TypeExpr.marks ∧ b ≠ 58) := List.decidableBAll _ name
  inferInstanceAs (Decidable ((∀ b ∈ name, b ∉ TypeExpr.marks ∧ b ≠ 58) ∧ name ∉ spellings))

/-- Types that service `own` cannot tell apart: they differ at most in what their references refer to and in services
that share a module. -/
inductive Alike (own : Text) : DataType → DataType → Prop
  | primitive (code : Text) : Alike own (.primitive code) (.primitive code)
  | message (code : Text) : Alike own (.message code) (.message code)
  | container (shape : Shape) {ts us : List DataType} (elements : List.Forall₂ (Alike own) ts us) :
    Alike own (.container shape ts) (.container shape us)
  | inside (r r' : Referent) (name : Text) : Alike own (.reference r own name) (.reference r' own name)
  | foreign (r r' : Referent) {service service' : Text} (name : Text) (h : service ≠ own) (h' : service' ≠ own)
    (sameModule : Binding.moduleName service = Binding.moduleName service') :
    Alike own (.reference r service name) (.reference r' service' name)

/-! ## Reading a path -/

inductive PathForm where
  | spelling
  | message
  | bare
  | qualified (module name : Text)
  deriving DecidableEq

def pathForm (p : Text) : PathForm :=
  (Text.cut? 58 p).elim (if spellings.contains p then .spelling else .bare) fun parts =>
    if 58 ∈ parts.2.tail then .message else .qualified parts.1 parts.2.tail

theorem pathForm_bare {name : Text} (h : IsClean name) : pathForm name = .bare := by
  rw [pathForm, Text.cut?_eq_none fun hin => (h.1 58 hin).2 rfl]
  exact if_neg fun hin => h.2 (List.contains_iff_mem.mp hin)

theorem pathForm_qualify {name : Text} (h : IsClean name) (service : Text) :
    pathForm (Binding.qualify service name) = .qualified (Binding.moduleName service) name := by
  have hcut : Text.cut? 58 (Binding.qualify service name) = some (Binding.moduleName service, 58 :: name) := by
    refine Text.cut?_eq_some_iff.mpr ⟨?_, Naming.not_mem_snakeCase (by decide) service⟩
    rw [Binding.qualify, List.append_assoc]
    rfl
  rw [pathForm, hcut]
  exact if_neg fun hin => (h.1 58 hin).2 rfl

theorem primitiveTable_spelling : ∀ e ∈ Binding.primitiveTable, e.1 ≠ Code.bytes.text →
    pathForm e.2 = .spelling ∧ e.2 ≠ "u8" ∧ TypeExpr.IsWord e.2 := by
  decide

theorem messageTable_message : ∀ e ∈ Binding.messageTable,
    pathForm e.2 = .message ∧ TypeExpr.IsWord e.2 := by
  decide

section

variable {table : List (Text × Text)} {code code' e : Text}

theorem lookup_inj (hnodup : (table.map (·.2)).Nodup) (h : table.lookup code = some e) (h' : table.lookup code' = some e) :
    code = code' :=
  congrArg Prod.fst (List.inj_on_of_nodup_map hnodup (mem_of_lookup h) (mem_of_lookup h') rfl)

theorem listed_of_isSome (h : (table.lookup code).isSome = true) :
    (code, (table.lookup code).getD []) ∈ table ∧ table.lookup code = some ((table.lookup code).getD []) := by
  obtain ⟨e, he⟩ := Option.isSome_iff_exists.mp h
  rw [he]
  exact ⟨mem_of_lookup he, rfl⟩

end

def HasCleanNames (t : DataType) : Prop := ∀ r ∈ t.references, IsClean r.2

instance (t : DataType) : Decidable t.HasCleanNames := inferInstanceAs (Decidable (∀ r ∈ t.references, IsClean r.2))

theorem HasCleanNames.element {shape : Shape} {ts : List DataType} (h : (container shape ts).HasCleanNames) :
    ∀ t ∈ ts, t.HasCleanNames := by
  intro t ht r hr
  refine h r ?_
  rw [references, referencesAll_eq]
  exact List.mem_flatMap.mpr ⟨t, ht, hr⟩

/-! ## From expressions back to types -/

variable {own : Text}

theorem expression_path {t : DataType} {p : Text} (hwf : t.WellFormed) (hclean : t.HasCleanNames)
    (h : t.expression own = .path p) :
    (∃ code, t = .primitive code ∧ Binding.primitiveExpr? code = some p ∧ p ≠ "u8" ∧ pathForm p = .spelling) ∨
    (∃ code, t = .message code ∧ Binding.messageExpr? code = some p ∧ pathForm p = .message) ∨
    (∃ r, t = .reference r own p ∧ pathForm p = .bare) ∨
    ∃ r service name, t = .reference r service name ∧ service ≠ own ∧
      pathForm p = .qualified (Binding.moduleName service) name := by
  cases t with
  | missing => exact absurd hwf (by simp [WellFormed])
  | primitive code =>
    obtain ⟨hmem, hexpr⟩ := @listed_of_isSome Binding.primitiveTable code hwf
    rw [expression] at h
    split at h
    next => cases h
    next hbytes =>
      cases h
      obtain ⟨hform, hu8, -, -⟩ := primitiveTable_spelling _ hmem hbytes
      exact .inl ⟨code, rfl, hexpr, hu8, hform⟩
  | message code =>
    obtain ⟨hmem, hexpr⟩ := @listed_of_isSome Binding.messageTable code hwf
    rw [expression] at h
    cases h
    exact .inr (.inl ⟨code, rfl, hexpr, (messageTable_message _ hmem).1⟩)
  | container shape ts => cases shape <;> cases h
  | reference r service name =>
    have hname : IsClean name := hclean (service, name) (by simp [references])
    rw [expression] at h
    split at h
    next hown =>
      cases h
      subst hown
      exact .inr (.inr (.inl ⟨r, rfl, pathForm_bare hname⟩))
    next hown =>
      cases h
      exact .inr (.inr (.inr ⟨r, service, name, rfl, hown, pathForm_qualify hname service⟩))

def genericHead : Shape → Text
  | .list => "Vec"
  | .set => "std::collections::HashSet"
  | .tuple => []
  | .dictionary => "std::collections::HashMap"

theorem genericHead_inj : ∀ {s s' : Shape}, genericHead s = genericHead s' → s = s' := by
  intro s s' h
  cases s <;> cases s' <;> first | rfl | exact absurd h (by decide)

theorem expression_generic {t : DataType} {head : Text} {arguments : List TypeExpr}
    (h : t.expression own = .generic head arguments) :
    (t = .primitive Code.bytes.text ∧ head = genericHead .list ∧ arguments = [.path "u8"]) ∨
    ∃ shape ts, t = .container shape ts ∧ head = genericHead shape ∧ arguments = ts.map (expression own) := by
  cases t with
  | missing => cases h
  | primitive code =>
    rw [expression] at h
    split at h
    next hbytes => cases h; exact .inl ⟨by rw [hbytes], rfl, rfl⟩
    next => cases h
  | message code => cases h
  | reference r service name => cases h
  | container shape ts =>
    cases shape with
    | tuple => cases h
    | list => cases h; exact .inr ⟨.list, ts, rfl, rfl, expressionAll_eq own ts⟩
    | set => cases h; exact .inr ⟨.set, ts, rfl, rfl, expressionAll_eq own ts⟩
    | dictionary => cases h; exact .inr ⟨.dictionary, ts, rfl, rfl, expressionAll_eq own ts⟩

theorem expression_tuple {t : DataType} {elements : List TypeExpr} (h : t.expression own = .tuple elements) :
    ∃ ts, t = .container .tuple ts ∧ elements = ts.map (expression own) := by
  cases t with
  | missing => cases h
  | primitive code =>
    rw [expression] at h
    split at h <;> cases h
  | message code => cases h
  | reference r service name => cases h
  | container shape ts =>
    cases shape with
    | tuple => cases h; exact ⟨ts, rfl, expressionAll_eq own ts⟩
    | list => cases h
    | set => cases h
    | dictionary => cases h

theorem isWord_genericHead {shape : Shape} (h : shape ≠ .tuple) : TypeExpr.IsWord (genericHead shape) := by
  cases shape with
  | tuple => exact absurd rfl h
  | list => decide
  | set => decide
  | dictionary => decide

theorem isWord_qualify {name : Text} (h : IsClean name) (service : Text) :
    TypeExpr.IsWord (Binding.qualify service name) := by
  refine ⟨by simp [Binding.qualify, Text.ofString], fun b hb => ?_⟩
  rcases List.mem_append.mp hb with hb | hb
  · rcases List.mem_append.mp hb with hb | hb
    · have hplain := Naming.isPlainByte_of_mem_snakeCase hb
      intro hmark
      simp only [TypeExpr.marks, List.mem_cons, List.not_mem_nil, or_false] at hmark
      rcases hmark with rfl | rfl | rfl | rfl | rfl | rfl <;> exact absurd hplain (by decide)
    · have hcolons : TypeExpr.IsWord (Text.ofString "::") := by decide
      exact hcolons.2 b hb
  · exact (h.1 b hb).1

theorem readable_expression {t : DataType} (hwf : t.WellFormed) (hclean : t.HasCleanNames) :
    (t.expression own).Readable := by
  induction t using inductionOn with
  | missing => exact absurd hwf (by simp [WellFormed])
  | primitive code =>
    obtain ⟨hmem, -⟩ := @listed_of_isSome Binding.primitiveTable code hwf
    rw [expression]
    split
    next =>
      have hu8 : TypeExpr.IsWord (Text.ofString "u8") := by decide
      exact ⟨isWord_genericHead (by decide : Shape.list ≠ .tuple), List.cons_ne_nil _ _, hu8, trivial⟩
    next hbytes => exact (primitiveTable_spelling _ hmem hbytes).2.2
  | message code =>
    obtain ⟨hmem, -⟩ := @listed_of_isSome Binding.messageTable code hwf
    exact (messageTable_message _ hmem).2
  | reference r service name =>
    have hname : IsClean name := hclean (service, name) (by simp [references])
    rw [expression]
    split
    next => exact ⟨hwf.1, fun b hb => (hname.1 b hb).1⟩
    next => exact isWord_qualify hname service
  | container shape ts ih =>
    obtain ⟨hcount, hall⟩ := hwf
    have hes : TypeExpr.AllReadable (expressionAll own ts) := by
      rw [expressionAll_eq, TypeExpr.allReadable_iff]
      intro e he
      obtain ⟨t, ht, rfl⟩ := List.mem_map.mp he
      exact ih t ht (allWellFormed_iff.mp hall t ht) (hclean.element t ht)
    have hne : shape ≠ .tuple → expressionAll own ts ≠ [] := by
      intro hshape
      rw [expressionAll_eq]
      cases shape <;> simp_all [Shape.Admits, ← List.length_pos_iff]
    cases shape with
    | tuple => exact hes
    | list => exact ⟨isWord_genericHead (by decide : Shape.list ≠ .tuple), hne (by decide), hes⟩
    | set => exact ⟨isWord_genericHead (by decide : Shape.set ≠ .tuple), hne (by decide), hes⟩
    | dictionary => exact ⟨isWord_genericHead (by decide : Shape.dictionary ≠ .tuple), hne (by decide), hes⟩

theorem expression_ne_u8 {t : DataType} (hwf : t.WellFormed) (hclean : t.HasCleanNames) :
    t.expression own ≠ .path "u8" := by
  intro h
  have hform : pathForm "u8" = .spelling := rfl
  rcases expression_path hwf hclean h with ⟨code, -, -, hu8, -⟩ | ⟨code, -, -, hp⟩ | ⟨r, -, hp⟩ |
    ⟨r, service, name, -, -, hp⟩
  · exact hu8 rfl
  · cases hform.symm.trans hp
  · cases hform.symm.trans hp
  · cases hform.symm.trans hp

theorem alike_of_path {t u : DataType} {p : Text} (ht : t.WellFormed) (hu : u.WellFormed) (hct : t.HasCleanNames)
    (hcu : u.HasCleanNames) (h : t.expression own = .path p) (h' : u.expression own = .path p) : Alike own t u := by
  rcases expression_path ht hct h with ⟨c, rfl, hc, -, hp⟩ | ⟨c, rfl, hc, hp⟩ | ⟨r, rfl, hp⟩ |
    ⟨r, service, name, rfl, hown, hp⟩ <;>
  rcases expression_path hu hcu h' with ⟨c', rfl, hc', -, hp'⟩ | ⟨c', rfl, hc', hp'⟩ | ⟨r', rfl, hp'⟩ |
    ⟨r', service', name', rfl, hown', hp'⟩ <;>
  simp only [hp, reduceCtorEq, PathForm.qualified.injEq] at hp'
  · obtain rfl := lookup_inj (by decide : (Binding.primitiveTable.map (·.2)).Nodup) hc hc'
    exact .primitive c
  · obtain rfl := lookup_inj (by decide : (Binding.messageTable.map (·.2)).Nodup) hc hc'
    exact .message c
  · exact .inside r r' p
  · obtain ⟨hmodule, rfl⟩ := hp'
    exact .foreign r r' name hown hown' hmodule

theorem forall₂_alike {ts us : List DataType} (hall : ∀ t ∈ ts, ∀ u ∈ us, t.expression own = u.expression own → Alike own t u)
    (h : ts.map (expression own) = us.map (expression own)) : List.Forall₂ (Alike own) ts us := by
  induction ts generalizing us with
  | nil =>
    obtain rfl : us = [] := by simpa using h.symm
    exact .nil
  | cons t ts ih =>
    cases us with
    | nil => cases h
    | cons u us =>
      obtain ⟨hhead, htail⟩ := List.cons.inj h
      refine .cons (hall t List.mem_cons_self u List.mem_cons_self hhead) (ih ?_ htail)
      intro t' ht' u' hu'
      exact hall t' (List.mem_cons_of_mem t ht') u' (List.mem_cons_of_mem u hu')

-- the one text that two different types could share is that of bytes, and no element is written as a byte
theorem map_expression_ne_u8 {shape : Shape} {ts : List DataType} (h : (container shape ts).WellFormed)
    (hclean : (container shape ts).HasCleanNames) : ts.map (expression own) ≠ [.path "u8"] := by
  intro heq
  obtain ⟨v, rfl, hv⟩ := List.map_eq_singleton_iff.mp heq
  exact expression_ne_u8 (allWellFormed_iff.mp h.2 v (by simp)) (hclean.element v (by simp)) hv

theorem alike_of_expression {t : DataType} : ∀ {u : DataType}, t.WellFormed → u.WellFormed → t.HasCleanNames →
    u.HasCleanNames → t.expression own = u.expression own → Alike own t u := by
  induction t using inductionOn with
  | missing => intro u ht; exact absurd ht (by simp [WellFormed])
  | primitive code =>
    intro u ht hu hct hcu h
    rw [expression] at h
    split at h
    next hbytes =>
      rcases expression_generic h.symm with ⟨rfl, -, -⟩ | ⟨shape, us, rfl, -, hus⟩
      · rw [hbytes]
        exact .primitive _
      · exact absurd hus.symm (map_expression_ne_u8 hu hcu)
    next hbytes =>
      have hpath : (primitive code).expression own = .path ((Binding.primitiveExpr? code).getD []) := by
        rw [expression, if_neg hbytes]
      exact alike_of_path ht hu hct hcu hpath h.symm
  | message code =>
    intro u ht hu hct hcu h
    exact alike_of_path ht hu hct hcu rfl h.symm
  | reference r service name =>
    intro u ht hu hct hcu h
    exact alike_of_path ht hu hct hcu rfl h.symm
  | container shape ts ih =>
    intro u ht hu hct hcu h
    have helements : ∀ {us : List DataType}, (container shape us).WellFormed → (container shape us).HasCleanNames →
        ts.map (expression own) = us.map (expression own) → List.Forall₂ (Alike own) ts us := by
      intro us hus hcus heq
      refine forall₂_alike (fun t' ht' u' hu' h' => ?_) heq
      exact ih t' ht' (allWellFormed_iff.mp ht.2 t' ht') (allWellFormed_iff.mp hus.2 u' hu') (hct.element t' ht')
        (hcus.element u' hu') h'
    by_cases htuple : shape = .tuple
    · subst htuple
      obtain ⟨us, rfl, hus⟩ := expression_tuple h.symm
      rw [expressionAll_eq] at hus
      exact .container .tuple (helements hu hcu hus)
    · have hgeneric : (container shape ts).expression own = .generic (genericHead shape) (ts.map (expression own)) := by
        rw [← expressionAll_eq]
        cases shape with
        | tuple => exact absurd rfl htuple
        | list => rfl
        | set => rfl
        | dictionary => rfl
      rcases expression_generic (h.symm.trans hgeneric) with ⟨rfl, -, hts⟩ | ⟨shape', us, rfl, hhead, hus⟩
      · exact absurd hts (map_expression_ne_u8 ht hct)
      · obtain rfl := genericHead_inj hhead
        exact .container shape (helements hu hcu hus)

end DataType

namespace Binding

/-- Two types with clean names that a service writes in the same way are alike. -/
theorem alike_of_resolve_expr {own : Text} {t u : DataType} {r r' : TypeRef} (ht : resolve own t = .ok r)
    (hu : resolve own u = .ok r') (hct : t.HasCleanNames) (hcu : u.HasCleanNames) (h : r.expr = r'.expr) :
    DataType.Alike own t u := by
  obtain ⟨hwft, rfl⟩ := resolve_ok_iff.mp ht
  obtain ⟨hwfu, rfl⟩ := resolve_ok_iff.mp hu
  have hreadable : (t.expression own).Readable := DataType.readable_expression hwft hct
  have hreadable' : (u.expression own).Readable := DataType.readable_expression hwfu hcu
  exact DataType.alike_of_expression hwft hwfu hct hcu (TypeExpr.text_inj hreadable hreadable' h)

theorem alike_of_resolve_expr_ships :
    let t := DataType.container .dictionary [.primitive "STRING", .container .tuple [.reference .object "SpaceCenter" "Ship"]]
    let u := DataType.container .dictionary
      [.primitive "STRING", .container .tuple [.reference .enumeration "space_center" "Ship"]]
    (∃ r r', resolve "Dock" t = .ok r ∧ resolve "Dock" u = .ok r' ∧ r.expr = r'.expr) ∧ t.HasCleanNames ∧
      u.HasCleanNames ∧ DataType.Alike "Dock" t u :=
  ⟨⟨_, _, rfl, rfl, by decide⟩, by decide, by decide,
    alike_of_resolve_expr rfl rfl (by decide) (by decide) (by decide)⟩

end Binding

end RpcBindings
