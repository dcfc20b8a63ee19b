import RpcBindings.Proofs.Declarations
import RpcBindings.Proofs.Dependencies
import RpcBindings.Proofs.Glyphs

/-!
# Brackets in generated text

Brackets are read with a stack of the signs that are awaited. Two texts nest alike if they do the same to every stack; a
text is balanced if it nests like the empty one. The module of a service nests like the one laid out for a service in
which nothing has a name, and that one is balanced.
-/

namespace RpcBindings

namespace Text

def brackets : List (UInt8 × UInt8) := [(40, 41), (91, 93), (123, 125)]

def angles : List (UInt8 × UInt8) := [(60, 62), (40, 41)]

def signs (pairs : List (UInt8 × UInt8)) : List UInt8 := pairs.map (·.1) ++ pairs.map (·.2)

def Free (pairs : List (UInt8 × UInt8)) (t : Text) : Prop := ∀ b ∈ t, b ∉ signs pairs

-- byte by byte of the text, not over all bytes there are
instance (pairs : List (UInt8 × UInt8)) (t : Text) : Decidable (Free pairs t) := List.decidableBAll _ t

def readBracket (pairs : List (UInt8 × UInt8)) (awaited : List UInt8) (b : UInt8) : Option (List UInt8) :=
  match pairs.lookup b with
  | some closing => some (closing :: awaited)
  | none =>
    if b ∈ pairs.map (·.2) then
      if awaited.head? = some b then some awaited.tail else none
    else some awaited

def readBrackets (pairs : List (UInt8 × UInt8)) (awaited : List UInt8) (t : Text) : Option (List UInt8) :=
  t.foldlM (readBracket pairs) awaited

/-- Every opening bracket is closed by its own closing one, and in the right order. -/
def Balanced (pairs : List (UInt8 × UInt8)) (t : Text) : Prop := readBrackets pairs [] t = some []

instance (pairs : List (UInt8 × UInt8)) (t : Text) : Decidable (Balanced pairs t) :=
  inferInstanceAs (Decidable (readBrackets pairs [] t = some []))

example : Balanced brackets "f([x], \x7b\x7d)" ∧ ¬ Balanced brackets "([)]" ∧ ¬ Balanced brackets "(" := by decide

section

variable {pairs : List (UInt8 × UInt8)}

theorem readBrackets_append (awaited : List UInt8) (t u : Text) :
    readBrackets pairs awaited (t ++ u) = (readBrackets pairs awaited t).bind fun after => readBrackets pairs after u :=
  List.foldlM_append

theorem readBracket_below {awaited after : List UInt8} {b : UInt8} (below : List UInt8)
    (h : readBracket pairs awaited b = some after) : readBracket pairs (awaited ++ below) b = some (after ++ below) := by
  unfold readBracket at h ⊢
  cases hb : pairs.lookup b with
  | some closing =>
    rw [hb] at h
    cases h
    rfl
  | none =>
    rw [hb] at h
    dsimp only at h ⊢
    split at h
    next hclosing =>
      rw [if_pos hclosing]
      cases awaited with
      | nil => cases h
      | cons next rest =>
        split at h
        next hnext =>
          cases h
          exact if_pos hnext
        next => cases h
    next hclosing =>
      cases h
      exact if_neg hclosing

theorem readBrackets_below {awaited after : List UInt8} {t : Text} (below : List UInt8)
    (h : readBrackets pairs awaited t = some after) : readBrackets pairs (awaited ++ below) t = some (after ++ below) := by
  induction t generalizing awaited with
  | nil =>
    cases h
    rfl
  | cons b t ih =>
    unfold readBrackets at h ⊢
    rw [List.foldlM_cons] at h ⊢
    obtain ⟨next, hnext, h⟩ := Option.bind_eq_some_iff.mp h
    rw [readBracket_below below hnext]
    exact ih h

end

def NestsLike (pairs : List (UInt8 × UInt8)) (t u : Text) : Prop :=
  ∀ awaited, readBrackets pairs awaited t = readBrackets pairs awaited u

section

variable {pairs : List (UInt8 × UInt8)} {t u t' u' : Text}

theorem Balanced.nests (h : Balanced pairs t) : NestsLike pairs t [] := fun awaited => readBrackets_below awaited h

namespace NestsLike

theorem refl (t : Text) : NestsLike pairs t t := fun _ => rfl

theorem append (h : NestsLike pairs t u) (h' : NestsLike pairs t' u') : NestsLike pairs (t ++ t') (u ++ u') := by
  intro awaited
  rw [readBrackets_append, readBrackets_append, h awaited, funext h']

theorem flatten {row row' : List Text} (h : List.Forall₂ (NestsLike pairs) row row') :
    NestsLike pairs row.flatten row'.flatten := by
  induction h with
  | nil => exact refl []
  | cons hpiece _ ih => exact hpiece.append ih

theorem balanced (h : NestsLike pairs t u) (hu : Balanced pairs u) : Balanced pairs t := (h []).trans hu

end NestsLike

namespace Balanced

theorem append (h : Balanced pairs t) (h' : Balanced pairs t') : Balanced pairs (t ++ t') :=
  (h.nests.append h'.nests).balanced rfl

theorem flatMap {α : Type} {f : α → Text} {as : List α} (h : ∀ a ∈ as, Balanced pairs (f a)) :
    Balanced pairs (as.flatMap f) := by
  induction as with
  | nil => rfl
  | cons a as ih => exact (h a List.mem_cons_self).append (ih fun a' ha' => h a' (List.mem_cons_of_mem a ha'))

theorem join {sep : Text} {pieces : List Text} (hsep : Balanced pairs sep) (h : ∀ t ∈ pieces, Balanced pairs t) :
    Balanced pairs (join sep pieces) := by
  induction pieces with
  | nil => rfl
  | cons t rest ih =>
    have ht := h t List.mem_cons_self
    cases rest with
    | nil => exact ht
    | cons u rest => exact (ht.append hsep).append (ih fun u' hu' => h u' (List.mem_cons_of_mem t hu'))

end Balanced

theorem Free.nests (h : Free pairs t) : NestsLike pairs t [] := by
  intro awaited
  induction t with
  | nil => rfl
  | cons b t ih =>
    have hb : b ∉ pairs.map (·.1) ∧ b ∉ pairs.map (·.2) := by
      simpa [signs] using h b List.mem_cons_self
    have hread : readBracket pairs awaited b = some awaited := by
      rw [readBracket, lookup_eq_none_of_not_mem hb.1]
      exact if_neg hb.2
    unfold readBrackets at ih ⊢
    rw [List.foldlM_cons, hread]
    exact ih fun c hc => h c (List.mem_cons_of_mem b hc)

theorem Free.balanced (h : Free pairs t) : Balanced pairs t := h.nests.balanced rfl

theorem Free.append (h : Free pairs t) (h' : Free pairs t') : Free pairs (t ++ t') := fun b hb =>
  (List.mem_append.mp hb).elim (h b) (h' b)

end

end Text

/-! ## Type expressions -/

section

variable {pairs : List (UInt8 × UInt8)} (hpairs : pairs ∈ [Text.brackets, Text.angles])

include hpairs

theorem Naming.free_snakeCase (name : Text) : Text.Free pairs (snakeCase name) := by
  have hsigns : ∀ pairs ∈ [Text.brackets, Text.angles], (Text.signs pairs).all (isPlainByte · == false) = true := by decide
  intro b hb hsign
  exact not_mem_snakeCase (beq_iff_eq.mp (List.all_eq_true.mp (hsigns pairs hpairs) b hsign)) name hb

theorem Binding.free_qualify {service name : Text} (h : Text.Free pairs name) : Text.Free pairs (qualify service name) := by
  have hcolons : ∀ pairs ∈ [Text.brackets, Text.angles], Text.Free pairs "::" := by decide
  exact ((Naming.free_snakeCase hpairs service).append (hcolons pairs hpairs)).append h

theorem balanced_generic {head t : Text}
    (hhead : head ∈ ["Vec", "std::collections::HashSet", "std::collections::HashMap"].map Text.ofString)
    (ht : t.Balanced pairs) : Text.Balanced pairs (head ++ "<" ++ t ++ ">" : Text) := by
  have hempty : ∀ pairs ∈ [Text.brackets, Text.angles],
      ∀ head ∈ ["Vec", "std::collections::HashSet", "std::collections::HashMap"].map Text.ofString,
      Text.Balanced pairs (head ++ "<" ++ ([] : Text) ++ ">") := by decide +kernel
  have hnests := ((Text.NestsLike.refl (head ++ ("<" : Text))).append ht.nests).append (Text.NestsLike.refl ">")
  exact hnests.balanced (hempty pairs hpairs head hhead)

theorem balanced_commas {ts : List Text} (h : ∀ t ∈ ts, Text.Balanced pairs t) :
    Text.Balanced pairs (Text.join ", " ts) := by
  have hcomma : ∀ pairs ∈ [Text.brackets, Text.angles], Text.Balanced pairs ", " := by decide
  exact .join (hcomma pairs hpairs) h

theorem TypeExpr.balanced_tuple {es : List TypeExpr} (h : ∀ t ∈ textAll es, Text.Balanced pairs t) :
    Text.Balanced pairs (tuple es).text := by
  have hempty : ∀ pairs ∈ [Text.brackets, Text.angles], Text.Balanced pairs ("(" ++ ([] : Text) ++ ",)") ∧
      Text.Balanced pairs ("(" ++ ([] : Text) ++ ")") := by decide
  have hopen := (Text.NestsLike.refl "(").append (balanced_commas hpairs h).nests
  rw [text]
  split
  next => exact (hopen.append (Text.NestsLike.refl ",)")).balanced (hempty pairs hpairs).1
  next => exact (hopen.append (Text.NestsLike.refl ")")).balanced (hempty pairs hpairs).2

theorem DataType.balanced_expression (own : Text) {t : DataType} (h : ∀ r ∈ t.references, Text.Free pairs r.2) :
    Text.Balanced pairs (t.expression own).text := by
  have htables : ∀ pairs ∈ [Text.brackets, Text.angles],
      ∀ e ∈ Binding.primitiveTable ++ Binding.messageTable, Text.Balanced pairs e.2 := by decide +kernel
  have hbyte : ∀ pairs ∈ [Text.brackets, Text.angles], Text.Balanced pairs "u8" := by decide
  have htable {table : List (Text × Text)} (hin : table ⊆ Binding.primitiveTable ++ Binding.messageTable) (code : Text) :
      Text.Balanced pairs ((table.lookup code).getD []) := by
    cases hcode : table.lookup code with
    | none => rfl
    | some e => exact htables pairs hpairs _ (hin (mem_of_lookup hcode))
  induction t using inductionOn with
  | missing => rfl
  | primitive code =>
    rw [expression]
    split
    next => exact balanced_generic hpairs (by decide) (hbyte pairs hpairs)
    next => exact htable (List.subset_append_left _ _) code
  | message code => exact htable (List.subset_append_right _ _) code
  | reference referent service name =>
    have hname := h (service, name) List.mem_cons_self
    rw [expression, TypeExpr.text]
    split
    next => exact hname.balanced
    next => exact (Binding.free_qualify hpairs hname).balanced
  | container shape ts ih =>
    have hall : ∀ u ∈ TypeExpr.textAll (expressionAll own ts), Text.Balanced pairs u := by
      intro u hu
      rw [TypeExpr.textAll_eq, expressionAll_eq, List.map_map] at hu
      obtain ⟨t, ht, rfl⟩ := List.mem_map.mp hu
      exact ih t ht fun r hr => h r (by rw [references, referencesAll_eq]; exact List.mem_flatMap.mpr ⟨t, ht, hr⟩)
    cases shape with
    | list => exact balanced_generic hpairs (by decide) (balanced_commas hpairs hall)
    | set => exact balanced_generic hpairs (by decide) (balanced_commas hpairs hall)
    | tuple => exact TypeExpr.balanced_tuple hpairs hall
    | dictionary => exact balanced_generic hpairs (by decide) (balanced_commas hpairs hall)

theorem Binding.balanced_resolve {own : Text} {t : DataType} {r : TypeRef} (h : resolve own t = .ok r)
    (hnames : ∀ ref ∈ t.references, Text.Free pairs ref.2) : Text.Balanced pairs r.expr := by
  obtain ⟨-, rfl⟩ := resolve_ok_iff.mp h
  exact t.balanced_expression hpairs own hnames

end

/-! ## Pieces of a module -/

namespace Render

open Binding Text

theorem free_identifier {name : Text} (h : Free brackets name) : Free brackets (Naming.identifier name) := by
  have hmarks : Free brackets "_" ∧ Free brackets "r#" := by decide
  unfold Naming.identifier
  split
  next => exact h.append hmarks.1
  next =>
    split
    next => exact hmarks.2.append h
    next => exact h

theorem free_functionName (name : Text) : Free brackets (Naming.functionName name) :=
  free_identifier (Naming.free_snakeCase (by simp) name)

theorem free_ofNat (n : Nat) : Free brackets (ofNat n) := by
  have hsigns : (signs brackets).all (isDigit · == false) = true := by decide
  intro b hb hsign
  have hdigit := isDigit_of_mem_ofNat hb
  rw [beq_iff_eq.mp (List.all_eq_true.mp hsigns b hsign)] at hdigit
  cases hdigit

theorem free_ofInt (n : Int) : Free brackets (ofInt n) := by
  have hminus : Free brackets "-" := by decide
  cases n with
  | ofNat n => exact free_ofNat n
  | negSucc n => exact hminus.append (free_ofNat (n + 1))

theorem free_oneLine {doc : Text} (h : Free brackets doc) : Free brackets (Naming.oneLine doc) := by
  intro b hb
  rcases Naming.of_mem_oneLine hb with rfl | ⟨hin, -⟩
  · decide
  · exact h b hin

theorem nests_commented {mark doc : Text} (hmark : Balanced brackets mark) (hdoc : Free brackets doc) :
    NestsLike brackets (commented mark doc) [] := by
  unfold commented
  split
  next => exact .refl []
  next => exact (hmark.append (free_oneLine hdoc).balanced).nests

theorem Function.balanced_argumentText {indent : Text} (hindent : Balanced brackets indent) {a : Nat × Text}
    (ha : Free brackets a.2) : Balanced brackets (argumentText indent a) := by
  have hempty : Balanced brackets
    ("\n" ++ ([] : Text) ++ "        rpc::argument(" ++ ([] : Text) ++ ", " ++ ([] : Text) ++ ")," : Text) := by decide
  refine NestsLike.balanced ?_ hempty
  exact ((((((NestsLike.refl "\n").append hindent.nests).append (.refl _)).append
    (free_ofNat a.1).nests).append (.refl _)).append ha.nests).append (.refl _)

structure Function.Plain (f : Function) : Prop where
  doc : Free brackets f.doc
  identifier : Free brackets f.identifier
  inputs : ∀ i ∈ f.inputs, Free brackets i.1 ∧ Balanced brackets i.2
  result : Balanced brackets f.result
  arguments : ∀ a ∈ f.arguments, Free brackets a.2
  procedure : Free brackets f.procedure

theorem Function.balanced_indent (f : Function) : Balanced brackets f.indent := by
  unfold indent
  split <;> decide

theorem Function.Plain.balanced_inputs {f : Function} (h : f.Plain) : Balanced brackets
    (Text.join ", " ((if f.isMethod then [("&self" : Text)] else []) ++ f.inputs.map inputText)) := by
  have hself : ∀ t ∈ (if f.isMethod then [("&self" : Text)] else []), Balanced brackets t := by
    split <;> decide
  refine .join (by decide) fun t ht => ?_
  rcases List.mem_append.mp ht with ht | ht
  · exact hself t ht
  · obtain ⟨i, hi, rfl⟩ := List.mem_map.mp ht
    exact ((h.inputs i hi).1.balanced.append (by decide)).append (h.inputs i hi).2

def Function.hollow : Function := ⟨false, [], [], [], [], [], []⟩

theorem Function.Plain.balanced {f : Function} (h : f.Plain) : Balanced brackets f.text := by
  have hindent := f.balanced_indent.nests
  have hmark : Balanced brackets ("\n" ++ f.indent ++ "/// " : Text) := by
    refine Balanced.append (Balanced.append ?_ f.balanced_indent) ?_ <;> decide
  have hopening : NestsLike brackets f.opening hollow.opening :=
    (((((((((nests_commented hmark h.doc).append (.refl _)).append hindent).append (.refl _)).append
      h.identifier.nests).append (.refl _)).append h.balanced_inputs.nests).append
      (.refl _)).append h.result.nests).append (.refl _)
  have harguments : Balanced brackets (f.arguments.flatMap (argumentText f.indent)) :=
    .flatMap fun a ha => balanced_argumentText f.balanced_indent (h.arguments a ha)
  have hcall : NestsLike brackets (call f.indent f.arguments f.procedure)
      (call hollow.indent hollow.arguments hollow.procedure) :=
    (((((((((hindent.append (.refl _)).append harguments.nests).append (.refl _)).append hindent).append
      (.refl _)).append hindent).append (.refl _)).append h.procedure.nests).append
      (.refl _)).append hindent |>.append (.refl _)
  exact (hopening.append hcall).balanced (by decide +kernel)

/-! ## Types and the header -/

section

set_option maxRecDepth 10000

theorem balanced_enumRow :
    Balanced brackets (typeRow id enumTraits "enum" [] [] (enumRow id [] [] [] [])).flatten := by
  simp only [typeRow, enumRow]
  repeat rewrite [passage_cons]
  repeat rewrite [passage_singleton]
  decide +kernel

theorem balanced_classRow : Balanced brackets (typeRow id classTraits "struct" [] [] (classRow id [] [])).flatten := by
  simp only [typeRow, classRow]
  repeat rewrite [passage_cons]
  repeat rewrite [passage_singleton]
  decide +kernel

theorem balanced_headerRow : Balanced brackets (headerRow id [] [] [] [] []).flatten := by
  simp only [headerRow]
  repeat rewrite [passage_cons]
  repeat rewrite [passage_singleton]
  decide +kernel

end

theorem nests_members {e : EnumDef} (hmembers : ∀ m ∈ e.values, Free brackets m.name) {write : Text × Text → Text}
    (h : ∀ m, Free brackets m.1 → Free brackets m.2 → Balanced brackets (write m)) :
    NestsLike brackets ((Item.members e).flatMap write) [] := by
  refine (Balanced.flatMap fun m hm => ?_).nests
  obtain ⟨v, hv, rfl⟩ := List.mem_map.mp hm
  exact h _ (free_identifier (hmembers v hv)) (free_ofInt _)

theorem balanced_enumBlock {e : EnumDef} (hname : Free brackets e.name) (hdoc : Free brackets e.doc)
    (hmembers : ∀ m ∈ e.values, Free brackets m.name) : Balanced brackets (enumBlock e) := by
  have hid := (free_identifier hname).nests
  have hremark := nests_commented (by decide : Balanced brackets "\n/// ") hdoc
  have hbare : NestsLike brackets ((Item.members e).flatMap fun m => (memberRow id m.1).flatten) [] :=
    nests_members hmembers fun m hm _ =>
      (NestsLike.flatten (.cons (.refl _) <| .cons hm.nests <| .cons (.refl _) .nil)).balanced (by decide)
  have hvalues : NestsLike brackets
      ((Item.members e).flatMap fun m => (valueRow id (Naming.identifier e.name) m.1 m.2).flatten) [] :=
    nests_members hmembers fun m hm hvalue =>
      (NestsLike.flatten (.cons (.refl _) <| .cons hid <| .cons (.refl _) <| .cons hm.nests <| .cons (.refl _) <|
        .cons hvalue.nests <| .cons (.refl _) .nil)).balanced (by decide)
  have hpatterns : NestsLike brackets
      ((Item.members e).flatMap fun m => (patternRow id (Naming.identifier e.name) m.1 m.2).flatten) [] :=
    nests_members hmembers fun m hm hvalue =>
      (NestsLike.flatten (.cons (.refl _) <| .cons hvalue.nests <| .cons (.refl _) <| .cons hid <| .cons (.refl _) <|
        .cons hm.nests <| .cons (.refl _) .nil)).balanced (by decide)
  have hitem : NestsLike brackets (Item.ofEnum e).text
      (typeRow id enumTraits "enum" [] [] (enumRow id [] [] [] [])).flatten :=
    .flatten (.cons hremark <| .cons (.refl _) <| .cons hid <| .cons (.refl _) <| .cons hbare <| .cons (.refl _) <|
      .cons hid <| .cons (.refl _) <| .cons hvalues <| .cons (.refl _) <| .cons hpatterns <| .cons (.refl _) <|
      .cons hid <| .cons (.refl _) <| .cons hid <| .cons (.refl _) <| .cons hid <| .cons (.refl _) .nil)
  exact Balanced.append (by decide) (hitem.balanced balanced_enumRow)

theorem balanced_functions {k : ClassMethods} (hname : Free brackets k.name)
    (hmethods : ∀ m ∈ k.methods, (Function.ofSignature true m).Plain) : Balanced brackets (Item.functions k) := by
  unfold Item.functions
  split
  next => rfl
  next =>
    have hjoin : Balanced brackets (Text.join "\n" (k.methods.map fun m => (Function.ofSignature true m).text)) := by
      refine .join (by decide) fun t ht => ?_
      obtain ⟨m, hm, rfl⟩ := List.mem_map.mp ht
      exact (hmethods m hm).balanced
    have hempty : Balanced brackets ("\n\nimpl " ++ ([] : Text) ++ " \x7b" ++ ([] : Text) ++ "\n\x7d" : Text) := by decide
    exact (((((NestsLike.refl _).append (free_identifier hname).nests).append (.refl _)).append hjoin.nests).append
      (.refl _)).balanced hempty

theorem balanced_classBlock {k : ClassMethods} (hname : Free brackets k.name) (hdoc : Free brackets k.doc)
    (hmethods : ∀ m ∈ k.methods, (Function.ofSignature true m).Plain) : Balanced brackets (classBlock k) := by
  have hid := (free_identifier hname).nests
  have hremark := nests_commented (by decide : Balanced brackets "\n/// ") hdoc
  have hitem : NestsLike brackets (Item.ofClass k).text
      (typeRow id classTraits "struct" [] [] (classRow id [] [])).flatten :=
    .flatten (.cons hremark <| .cons (.refl _) <| .cons hid <| .cons (.refl _) <| .cons hid <| .cons (.refl _) <|
      .cons hid <| .cons (.refl _) <| .cons hid <| .cons (.refl _) <|
      .cons (balanced_functions hname hmethods).nests .nil)
  exact Balanced.append (by decide) (hitem.balanced balanced_classRow)

theorem balanced_header {source version name doc : Text} {imports : List Text} (hsource : Free brackets source)
    (hversion : Free brackets version) (hname : Free brackets name) (hdoc : Free brackets doc)
    (himports : ∀ m ∈ imports, Free brackets m) : Balanced brackets (header source version name doc imports) := by
  have hremark := nests_commented (by decide : Balanced brackets "\n//!\n//! ") hdoc
  have hline : NestsLike brackets (if source.isEmpty then [] else "\n// Source file: " ++ source) [] := by
    split
    next => exact .refl []
    next => exact (Balanced.append (by decide) hsource.balanced).nests
  have huse : NestsLike brackets
      (if imports.isEmpty then [] else "\n" ++ imports.flatMap fun m => (importRow id m).flatten) [] := by
    split
    next => exact .refl []
    next =>
      refine (Balanced.append (by decide) (.flatMap fun m hm => ?_)).nests
      exact (NestsLike.flatten (.cons (.refl _) <| .cons (himports m hm).nests <| .cons (.refl _) .nil)).balanced
        (by decide)
  have hrow : NestsLike brackets (header source version name doc imports) (headerRow id [] [] [] [] []).flatten :=
    .flatten (.cons (.refl _) <| .cons hline <| .cons (.refl _) <| .cons hversion.nests <| .cons (.refl _) <|
      .cons hname.nests <| .cons (.refl _) <| .cons hremark <| .cons (.refl _) <| .cons huse <| .cons (.refl _) <|
      .cons hname.nests <| .cons (.refl _) .nil)
  exact hrow.balanced balanced_headerRow

/-! ## The module of a service -/

structure BracketFree (s : Service) : Prop where
  name : Free brackets s.name
  documentation : Free brackets s.documentation
  classes : ∀ e ∈ s.classes.entries, Free brackets e.1 ∧ Free brackets e.2.documentation
  enumerations : ∀ e ∈ s.enumerations.entries, Free brackets e.1 ∧ Free brackets e.2.documentation
  members : ∀ e ∈ s.enumerations.entries, ∀ m ∈ e.2.members, Free brackets m.name
  procedures : ∀ e ∈ s.procedures.entries, Free brackets e.2.name ∧ Free brackets e.2.documentation
  references : ∀ e ∈ s.procedures.entries, ∀ t ∈ signatureTypes e.2, ∀ r ∈ t.references, Free brackets r.2

section

variable {s : Service} {c : Context}

theorem doc_of_buildSignature {own name : Text} {p : Procedure} {place : Place} {f : Signature}
    (h : buildSignature own p place name = .ok f) : f.doc = Naming.oneLine p.documentation := by
  unfold buildSignature at h
  split at h <;>
  · obtain ⟨params, -, h⟩ := bind_eq_ok.mp h
    obtain ⟨result, -, h⟩ := bind_eq_ok.mp h
    cases h
    rfl

theorem balanced_resultType {result : Option Return} (h : ∀ r ∈ result, Balanced brackets r.type.expr) :
    Balanced brackets (Function.resultType result) := by
  cases result with
  | none => decide
  | some r =>
    rw [Function.resultType]
    split
    next =>
      refine Balanced.append (Balanced.append ?_ (h r rfl)) ?_ <;> decide
    next => exact h r rfl

theorem BracketFree.plain (hs : BracketFree s) {e : Text × Procedure} (he : e ∈ s.procedures.entries) {place : Place}
    {name : Text} {f : Signature} (hbuild : buildSignature s.name e.2 place name = .ok f) (isMethod : Bool) :
    (Function.ofSignature isMethod f).Plain := by
  obtain ⟨-, hrpc, hparams, -⟩ := buildSignature_ok hbuild
  have htypes : ∀ r ∈ f.typeRefs, Balanced brackets r.expr := by
    intro r hr
    obtain ⟨t, ht, hresolve⟩ := exists_shown_of_mem hbuild hr
    exact balanced_resolve (by simp) hresolve (hs.references e he t ht)
  have hnames : ∀ p ∈ f.params, Free brackets p.name := by
    intro p hp
    obtain ⟨declared, -, hdescribes⟩ := exists_of_mem_left hparams hp
    rw [hdescribes.2.2.1]
    exact free_functionName _
  refine ⟨?_, free_functionName _, fun i hi => ?_, ?_, fun a ha => ?_, ?_⟩
  · rw [Function.ofSignature, doc_of_buildSignature hbuild]
    exact free_oneLine (hs.procedures e he).2
  · obtain ⟨p, hp, rfl⟩ := List.mem_map.mp hi
    have htype := htypes p.type (List.mem_append_left _ (List.mem_map.mpr ⟨p, hp, rfl⟩))
    refine ⟨hnames p hp, Balanced.append ?_ htype⟩
    split <;> decide
  · refine balanced_resultType fun r hr => htypes r.type (List.mem_append_right _ ?_)
    exact List.mem_map.mpr ⟨r, Option.mem_toList.mpr hr, rfl⟩
  · rcases List.mem_append.mp ha with ha | ha
    · split at ha
      next =>
        obtain rfl := List.mem_singleton.mp ha
        decide
      next => cases ha
    · obtain ⟨p, hp, rfl⟩ := List.mem_map.mp ha
      simp only [Function.argument]
      split
      next => exact hnames p hp
      next => exact Free.append (by decide) (hnames p hp)
  · rw [Function.ofSignature, hrpc]
    exact (hs.procedures e he).1

theorem BracketFree.balanced_enums (hs : BracketFree s) (h : buildContext s = .ok c) :
    Balanced brackets (c.enums.flatMap enumBlock) := by
  refine .flatMap fun d hd => ?_
  obtain ⟨e, he, hbuilt⟩ := (mem_of_mapM (buildContext_ok h).2).2 d hd
  cases hmembers : buildMembers e.1 e.2.members with
  | error f =>
    simp only [hmembers] at hbuilt
    cases hbuilt
  | ok values =>
    simp only [hmembers] at hbuilt
    cases hbuilt
    obtain ⟨hname, hdoc⟩ := hs.enumerations e he
    refine balanced_enumBlock hname (free_oneLine hdoc) fun v hv => ?_
    have hin : v.name ∈ values.map (·.name) := List.mem_map.mpr ⟨v, hv, rfl⟩
    rw [map_name_buildMembers hmembers] at hin
    obtain ⟨m, hm, heq⟩ := List.mem_map.mp hin
    rw [← heq]
    exact hs.members e he m hm

theorem BracketFree.balanced_classes (hs : BracketFree s) (h : buildContext s = .ok c) :
    Balanced brackets (c.classes.flatMap classBlock) := by
  obtain ⟨st, hst, hholds⟩ := partition_ok (buildContext_ok h).1
  have hclasses : c.classes = (st.partition s).classes := congrArg Partition.classes hst
  refine .flatMap fun k hk => ?_
  have hkey : k.name ∈ s.classes.keys := by
    rw [← map_name_classes h]
    exact List.mem_map.mpr ⟨k, hk, rfl⟩
  obtain ⟨decl, hdecl⟩ := Dict.mem_keys_iff.mp hkey
  obtain ⟨hname, hdocumentation⟩ := hs.classes _ (Dict.get?_eq_some_iff.mp hdecl)
  have hdoc : k.doc = Naming.oneLine decl.documentation := by
    rw [hclasses] at hk
    obtain ⟨e, -, rfl⟩ := List.mem_map.mp hk
    rw [hdecl]
    rfl
  -- the methods come from the partition, the documentation from the declaration
  refine balanced_classBlock hname (hdoc ▸ free_oneLine hdocumentation) fun m hm => ?_
  obtain ⟨procedure, p, hp, -, hbuild⟩ := hholds.method_of_mem (hclasses ▸ hk) hm
  exact hs.plain hp hbuild true

theorem BracketFree.balanced_procedures (hs : BracketFree s) (h : buildContext s = .ok c) :
    Balanced brackets (c.procedures.flatMap procedureBlock) := by
  obtain ⟨st, hst, hholds⟩ := partition_ok (buildContext_ok h).1
  have hprocedures : c.procedures = (st.partition s).procedures := congrArg Partition.procedures hst
  refine .flatMap fun f hf => ?_
  obtain ⟨p, hp, -, hbuild⟩ := hholds.free_of_mem (hprocedures ▸ hf)
  exact Balanced.append (by decide) (hs.plain hp hbuild false).balanced

theorem BracketFree.balanced_header (hs : BracketFree s) (h : buildContext s = .ok c) {source version : Text}
    (hsource : Free brackets source) (hversion : Free brackets version) :
    Balanced brackets (header source version c.name c.doc c.imports) := by
  obtain ⟨deps, hdeps, h⟩ := bind_eq_ok.mp h
  obtain ⟨parts, -, h⟩ := bind_eq_ok.mp h
  obtain ⟨enums, -, h⟩ := bind_eq_ok.mp h
  cases h
  refine Render.balanced_header hsource hversion hs.name (free_oneLine hs.documentation) fun m hm => ?_
  obtain ⟨r, -, -, rfl⟩ := ((dependencies_ok (mapError_eq_ok.mp hdeps)).2 m).mp hm
  exact Naming.free_snakeCase (by simp) r.1

end

/-- Where no name, documentation, source and version has a bracket, the brackets of the generated module are closed in
order. The angle brackets and parentheses of a type expression are closed in order if no referenced name has one. -/
theorem service_balanced :
    (∀ {s : Service} {c : Context} {source version : Text}, BracketFree s → buildContext s = .ok c →
      Free brackets source → Free brackets version →
      ∃ t, (Renderer.embedded version).bind (fun r => r.service { c with source }) = .ok t ∧ Balanced brackets t) ∧
    ∀ {own : Text} {t : DataType} {r : TypeRef}, resolve own t = .ok r → (∀ ref ∈ t.references, Free angles ref.2) →
      Balanced angles r.expr := by
  refine ⟨fun hs hbuild hsource hversion => ⟨_, service_embedded _ _, ?_⟩,
    fun hr hnames => balanced_resolve (by simp) hr hnames⟩
  have hblocks := (((hs.balanced_header hbuild hsource hversion).append (hs.balanced_enums hbuild)).append
    (hs.balanced_classes hbuild)).append (hs.balanced_procedures hbuild)
  exact hblocks.append (by decide)

def craneCargo : DataType :=
  .container .dictionary [.primitive "STRING", .container .tuple [.reference .object "Yard" "Box"]]

def craneService : Service where
  name := "Crane"
  id := 1
  documentation := "Lifts < 5 t"
  procedures := .ofList
    [("Hook_Load", ⟨"Hook_Load", 1, "Loads",
       [⟨"this", .reference .object "Crane" "Hook"⟩, ⟨"cargo", craneCargo⟩], none, false⟩),
     ("Find", ⟨"Find", 2, [], [], some (.reference .object "Yard" "Box"), true⟩)]
  classes := .ofList [("Hook", ⟨"Hook", "One hook"⟩)]
  enumerations := .ofList [("Mode", ⟨"Mode", [], [⟨"Slow", 0⟩, ⟨"type", 1⟩]⟩)]

theorem bracketFree_crane : BracketFree craneService where
  name := by decide
  documentation := by decide
  classes := by decide
  enumerations := by decide
  members := by decide
  procedures := by decide
  references := by decide

theorem service_balanced_crane :
    (∃ c, buildContext craneService = .ok c ∧ c.imports = [Text.ofString "yard"] ∧
      ∃ t, (Renderer.embedded "v1").bind (fun r => r.service { c with source := "crane.json" }) = .ok t ∧
        Balanced brackets t) ∧
    ∃ r, resolve "Crane" craneCargo = .ok r ∧ r.expr = "std::collections::HashMap<String, (yard::Box,)>" ∧
      Balanced angles r.expr := by
  have hbuilt : ((buildContext craneService).toOption.map fun c => c.imports) = some [Text.ofString "yard"] := by
    decide +kernel
  have hresolved : ((resolve "Crane" craneCargo).toOption.map fun r => r.expr) =
      some (Text.ofString "std::collections::HashMap<String, (yard::Box,)>") := by decide +kernel
  obtain ⟨c, hc, himports⟩ := Option.map_eq_some_iff.mp hbuilt
  obtain ⟨r, hr, hexpr⟩ := Option.map_eq_some_iff.mp hresolved
  rw [toOption_eq_some] at hc hr
  exact ⟨⟨c, hc, himports, service_balanced.1 bracketFree_crane hc (by decide) (by decide)⟩,
    r, hr, hexpr, service_balanced.2 hr (by decide)⟩

end Render

end RpcBindings
