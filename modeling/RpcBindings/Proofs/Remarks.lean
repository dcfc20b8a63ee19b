import RpcBindings.Proofs.Composition
import RpcBindings.Proofs.Dict
import RpcBindings.Proofs.Glyphs

/-!
# Documentation stays in comments

A service without its documentation gives the same bindings without their documentation. In a module the documentation
fills lines of its own, and each of them is a doc comment: the other lines are the same whatever the documentation says.
-/

namespace RpcBindings

/-! ## Bindings without documentation -/

def Procedure.undocumented (p : Procedure) : Procedure := { p with documentation := [] }

def ClassDecl.undocumented (c : ClassDecl) : ClassDecl := { c with documentation := [] }

def Enumeration.undocumented (e : Enumeration) : Enumeration := { e with documentation := [] }

def Service.undocumented (s : Service) : Service :=
  { s with
    documentation := []
    procedures := s.procedures.map fun _ => Procedure.undocumented
    classes := s.classes.map fun _ => ClassDecl.undocumented
    enumerations := s.enumerations.map fun _ => Enumeration.undocumented }

namespace Binding

def Signature.undocumented (s : Signature) : Signature := { s with doc := [] }

def ClassMethods.undocumented (k : ClassMethods) : ClassMethods :=
  { k with doc := [], methods := k.methods.map Signature.undocumented }

def EnumDef.undocumented (e : EnumDef) : EnumDef := { e with doc := [] }

def Partition.undocumented (p : Partition) : Partition :=
  ⟨p.classes.map ClassMethods.undocumented, p.procedures.map Signature.undocumented⟩

def Placed.undocumented (st : Placed) : Placed :=
  { st with
    methods := st.methods.map fun _ d => d.map fun _ => Signature.undocumented
    free := st.free.map fun _ => Signature.undocumented }

def Context.undocumented (c : Context) : Context :=
  { c with
    doc := []
    classes := c.classes.map ClassMethods.undocumented
    procedures := c.procedures.map Signature.undocumented
    enums := c.enums.map EnumDef.undocumented }

theorem place_undocumented (s : Service) (procedure : Text) :
    place s.undocumented.classes procedure = place s.classes procedure := by
  unfold place
  simp only [Service.undocumented, Dict.contains_map]

theorem buildSignature_undocumented (own : Text) (p : Procedure) (place : Place) (name : Text) :
    buildSignature own p.undocumented place name = (buildSignature own p place name).map Signature.undocumented := by
  have hreturn : buildReturn own p.undocumented = buildReturn own p := rfl
  have hparameters : p.undocumented.parameters = p.parameters := rfl
  unfold buildSignature
  rw [hreturn, hparameters]
  cases place.isMethod with
  | true => cases buildParams own 1 p.parameters.tail <;> cases buildReturn own p <;> rfl
  | false => cases buildParams own 0 p.parameters <;> cases buildReturn own p <;> rfl

theorem step_undocumented (s : Service) (st : Placed) (procedure : Text) (p : Procedure) :
    Placed.step s.undocumented st.undocumented procedure p.undocumented =
      (Placed.step s st procedure p).map Placed.undocumented := by
  have hname : s.undocumented.name = s.name := rfl
  have htaken : st.undocumented.taken = st.taken := rfl
  unfold Placed.step
  simp only [place_undocumented, buildSignature_undocumented, hname, htaken]
  generalize place s.classes procedure = place
  split
  next => rfl
  next =>
    split
    next => rfl
    next =>
      cases buildSignature s.name p place (place.declared procedure) with
      | error cause => rfl
      | ok sig =>
        cases place with
        | free => simp [Except.map, Placed.undocumented, Dict.map_insert]
        | method cls name =>
          have hmethods : (st.undocumented.methods.get? cls).getD Dict.empty =
              ((st.methods.get? cls).getD Dict.empty).map fun _ => Signature.undocumented := by
            rw [Placed.undocumented, Dict.get?_map]
            cases st.methods.get? cls <;> rfl
          simp only [Except.map, hmethods, ← Dict.map_insert]
          simp only [Placed.undocumented, Dict.map_insert]
          rfl

theorem run_undocumented (s : Service) (st : Placed) (es : List (Text × Procedure)) :
    Placed.run s.undocumented st.undocumented (es.map fun e => (e.1, e.2.undocumented)) =
      ((Placed.run s st es).1.undocumented, (Placed.run s st es).2) := by
  induction es generalizing st with
  | nil => rfl
  | cons e es ih =>
    rw [List.map_cons, Placed.run, Placed.run, step_undocumented]
    cases Placed.step s st e.1 e.2 with
    | error f => rfl
    | ok next => exact ih next

theorem Placed.partition_undocumented (s : Service) (st : Placed) :
    st.undocumented.partition s.undocumented = (st.partition s).undocumented := by
  have hdoc (name : Text) : Naming.oneLine ((s.undocumented.classes.get? name).elim [] (·.documentation)) = [] := by
    rw [Service.undocumented, Dict.get?_map]
    cases s.classes.get? name <;> rfl
  simp only [Placed.partition, hdoc]
  simp [Partition.undocumented, Placed.undocumented, Dict.map, Dict.values, ClassMethods.undocumented, Function.comp_def]

theorem partition_undocumented (s : Service) :
    partition s.undocumented = (partition s).map Partition.undocumented := by
  have hstart : Placed.start s.undocumented = (Placed.start s).undocumented := by
    simp only [Placed.start, Placed.undocumented, Service.undocumented, Dict.map_map]
    rfl
  have hentries : s.undocumented.procedures.entries = s.procedures.entries.map fun e => (e.1, e.2.undocumented) := rfl
  unfold partition partitionRun
  rw [hstart, hentries, run_undocumented]
  cases Placed.run s (Placed.start s) s.procedures.entries with
  | mk st fault =>
    cases fault with
    | some f => rfl
    | none => exact congrArg Except.ok (Placed.partition_undocumented s st)

theorem buildEnums_undocumented (s : Service) :
    buildEnums s.undocumented = (buildEnums s).map (List.map EnumDef.undocumented) := by
  have hentries : s.undocumented.enumerations.entries =
    s.enumerations.entries.map fun e => (e.1, e.2.undocumented) := rfl
  unfold buildEnums
  rw [hentries, List.mapM_map, ← mapM_map_result]
  congr 1
  funext e
  cases hmembers : buildMembers e.1 e.2.members <;> simp [hmembers, Enumeration.undocumented, Except.map, EnumDef.undocumented]
  rfl

theorem dependencies_undocumented (s : Service) : dependencies s.undocumented = dependencies s := by
  unfold dependencies
  simp only [Service.undocumented, Dict.map, List.foldlM_map]
  rfl

theorem buildContext_undocumented (s : Service) :
    buildContext s.undocumented = (buildContext s).map Context.undocumented := by
  unfold buildContext
  rw [dependencies_undocumented, partition_undocumented, buildEnums_undocumented]
  cases dependencies s with
  | error f => rfl
  | ok deps =>
    cases partition s with
    | error f => rfl
    | ok parts => cases buildEnums s <;> rfl

end Binding

/-! ## Lines of code -/

namespace Render

open Binding

def isRemark (line : Text) : Bool :=
  let start := line.dropWhile (· == 32)
  ("///" : Text).isPrefixOf start || ("//!" : Text).isPrefixOf start

def codeLines (t : Text) : List Text := (Text.splitOn 10 t).filter fun line => !isRemark line

def withoutRemarks (t : Text) : Text := Text.join [10] (codeLines t)

theorem codeLines_append (a b : Text) : codeLines (a ++ 10 :: b) = codeLines a ++ codeLines b := by
  rw [codeLines, Text.splitOn_append, List.filter_append]
  rfl

theorem codeLines_remark {line : Text} (hbreak : 10 ∉ line) (h : isRemark line = true) : codeLines line = [] := by
  rw [codeLines, Text.splitOn_of_not_mem hbreak]
  simp [h]

theorem not_mem_oneLine (doc : Text) : 10 ∉ Naming.oneLine doc := by
  intro h
  rcases Naming.of_mem_oneLine h with h | h
  · cases h
  · cases h.2

/-- Two texts that hold the same code, wherever they stand. -/
def Alike (t t' : Text) : Prop := ∀ a b, codeLines (a ++ t ++ b) = codeLines (a ++ t' ++ b)

namespace Alike

theorem refl (t : Text) : Alike t t := fun _ _ => rfl

theorem append {t t' u u' : Text} (h : Alike t t') (h' : Alike u u') : Alike (t ++ u) (t' ++ u') := by
  intro a b
  calc codeLines (a ++ (t ++ u) ++ b) = codeLines (a ++ t ++ (u ++ b)) := by simp only [List.append_assoc]
    _ = codeLines (a ++ t' ++ (u ++ b)) := h a (u ++ b)
    _ = codeLines (a ++ t' ++ u ++ b) := by simp only [List.append_assoc]
    _ = codeLines (a ++ t' ++ u' ++ b) := h' (a ++ t') b
    _ = codeLines (a ++ (t' ++ u') ++ b) := by simp only [List.append_assoc]

theorem flatMap {α : Type} {f g : α → Text} (h : ∀ x, Alike (f x) (g x)) (xs : List α) :
    Alike (xs.flatMap f) (xs.flatMap g) := by
  induction xs with
  | nil => exact refl []
  | cons x xs ih => exact (h x).append ih

theorem join {α : Type} {f g : α → Text} (h : ∀ x, Alike (f x) (g x)) (sep : Text) (xs : List α) :
    Alike (Text.join sep (xs.map f)) (Text.join sep (xs.map g)) := by
  induction xs with
  | nil => exact refl []
  | cons x xs ih =>
    cases xs with
    | nil => exact h x
    | cons y xs => exact ((h x).append (refl sep)).append ih

end Alike

theorem alike_commented {mark : Text} (hmark : ∀ line, 10 ∉ line → codeLines (mark ++ line) = []) (doc rest : Text) :
    Alike (commented (10 :: mark) doc ++ 10 :: rest) (10 :: rest) := by
  intro a b
  unfold commented
  split
  next => rfl
  next =>
    -- one line on its own, and a comment: it is dropped whatever stands in front of it and behind it
    have hline := hmark (Naming.oneLine doc) (not_mem_oneLine doc)
    calc codeLines (a ++ (10 :: mark ++ Naming.oneLine doc ++ 10 :: rest) ++ b)
        = codeLines (a ++ 10 :: ((mark ++ Naming.oneLine doc) ++ 10 :: (rest ++ b))) := by simp
      _ = codeLines a ++ (codeLines (mark ++ Naming.oneLine doc) ++ codeLines (rest ++ b)) := by
          rw [codeLines_append, codeLines_append]
      _ = codeLines a ++ codeLines (rest ++ b) := by rw [hline, List.nil_append]
      _ = codeLines (a ++ 10 :: rest ++ b) := by rw [← codeLines_append]; simp

theorem alike_of_commented {mark doc t u : Text} (hmark : ∀ line, 10 ∉ line → codeLines (mark ++ line) = [])
    (ht : t = commented (10 :: mark) doc ++ u) (hu : u.head? = some 10) : Alike t u := by
  obtain ⟨rest, rfl⟩ := List.head?_eq_some_iff.mp hu
  rw [ht]
  exact alike_commented hmark doc rest

theorem codeLines_outer {line : Text} (h : 10 ∉ line) : codeLines (("/// " : Text) ++ line) = [] := by
  have hmark : ("/// " : Text) = [47, 47, 47, 32] := by decide
  rw [hmark]
  exact codeLines_remark (by simpa using h) rfl

theorem codeLines_indented {line : Text} (h : 10 ∉ line) : codeLines (("    /// " : Text) ++ line) = [] := by
  have hmark : ("    /// " : Text) = [32, 32, 32, 32, 47, 47, 47, 32] := by decide
  rw [hmark]
  exact codeLines_remark (by simpa using h) rfl

theorem codeLines_inner {line : Text} (h : 10 ∉ line) : codeLines (("//!\n//! " : Text) ++ line) = [] := by
  have hmark : ("//!\n//! " : Text) ++ line = [47, 47, 33] ++ 10 :: ([47, 47, 33, 32] ++ line) := rfl
  have hfirst : codeLines [47, 47, 33] = [] := codeLines_remark (by decide) rfl
  have hsecond : codeLines ([47, 47, 33, 32] ++ line) = [] := codeLines_remark (by simpa using h) rfl
  rw [hmark, codeLines_append, hfirst, hsecond, List.nil_append]

theorem alike_function (isMethod : Bool) (s : Signature) :
    Alike (Function.ofSignature isMethod s).text (Function.ofSignature isMethod s.undocumented).text := by
  have htext : (Function.ofSignature isMethod s).text =
      commented ("\n" ++ (Function.ofSignature isMethod s).indent ++ "/// ") s.doc ++
        (Function.ofSignature isMethod s.undocumented).text := by
    cases isMethod <;>
      simp [Function.text, Function.opening, Function.ofSignature, Signature.undocumented, commented, Function.indent]
  have hcode : (Function.ofSignature isMethod s.undocumented).text.head? = some 10 := rfl
  cases isMethod with
  | false => exact alike_of_commented (fun _ => codeLines_outer) htext hcode
  | true => exact alike_of_commented (fun _ => codeLines_indented) htext hcode

theorem alike_item (i : Item) : Alike i.text { i with doc := [] }.text :=
  alike_of_commented (fun _ => codeLines_outer) rfl rfl

theorem alike_enumBlock (e : EnumDef) : Alike (enumBlock e) (enumBlock e.undocumented) :=
  (Alike.refl _).append (alike_item (Item.ofEnum e))

theorem alike_functions (k : ClassMethods) : Alike (Item.functions k) (Item.functions k.undocumented) := by
  unfold Item.functions
  cases hmethods : k.methods with
  | nil => simpa [ClassMethods.undocumented, hmethods] using Alike.refl []
  | cons m methods =>
    have hjoin := Alike.join (alike_function true) "\n" (m :: methods)
    simpa [ClassMethods.undocumented, hmethods, Function.comp_def] using
      ((Alike.refl ("\n\nimpl " ++ Naming.identifier k.name ++ " \x7b")).append hjoin).append (Alike.refl "\n\x7d")

theorem alike_classBlock (k : ClassMethods) : Alike (classBlock k) (classBlock k.undocumented) := by
  have hempty : Alike (classBlock { k with methods := [] }) (classBlock { k.undocumented with methods := [] }) :=
    (Alike.refl _).append (alike_item (Item.ofClass { k with methods := [] }))
  rw [classBlock_eq k, classBlock_eq k.undocumented]
  exact hempty.append (alike_functions k)

theorem alike_procedureBlock (s : Signature) : Alike (procedureBlock s) (procedureBlock s.undocumented) :=
  (Alike.refl _).append (alike_function false s)

theorem passage_blank (line : String) (lines : List String) :
    passage ("" :: line :: lines) = 10 :: passage (line :: lines) := passage_cons [] line lines

theorem alike_header (source version name doc : Text) (imports : List Text) :
    Alike (header source version name doc imports) (header source version name [] imports) := by
  let row := headerRow id (if source.isEmpty then [] else "\n// Source file: " ++ source) version name []
    (if imports.isEmpty then [] else "\n" ++ imports.flatMap fun m => (importRow id m).flatten)
  have hrow (doc : Text) : header source version name doc imports =
      (row.take 7).flatten ++ (commented "\n//!\n//! " doc ++ (row.drop 8).flatten) := by
    simp [row, header, headerRow]
  have hcode : ((row.drop 8).flatten).head? = some 10 := by
    simp [row, headerRow, passage_blank]
  rw [hrow, hrow]
  exact (Alike.refl _).append (alike_of_commented (fun _ => codeLines_inner) rfl hcode)

theorem alike_moduleText (version : Text) (c : Context) :
    Alike (moduleText version c) (moduleText version c.undocumented) := by
  have hblocks {α : Type} {block : α → Text} {bare : α → α} (h : ∀ a, Alike (block a) (block (bare a))) (as : List α) :
      Alike (as.flatMap block) ((as.map bare).flatMap block) := by
    rw [List.flatMap_map]
    exact Alike.flatMap h as
  exact ((((alike_header _ _ _ _ _).append (hblocks alike_enumBlock _)).append (hblocks alike_classBlock _)).append
    (hblocks alike_procedureBlock _)).append (Alike.refl _)

theorem Alike.withoutRemarks_eq {t t' : Text} (h : Alike t t') : withoutRemarks t = withoutRemarks t' := by
  have hlines := h [] []
  rw [List.nil_append, List.append_nil, List.nil_append, List.append_nil] at hlines
  rw [withoutRemarks, withoutRemarks, hlines]

/-- Documentation cannot influence generated code: the modules of two services that differ in documentation only are the
same, line by line, but for the lines that are doc comments. -/
theorem code_of_undocumented_eq {s s' : Service} {c c' : Context} (hservice : s.undocumented = s'.undocumented)
    (hc : buildContext s = .ok c) (hc' : buildContext s' = .ok c') (version source : Text) :
    ∃ t t', (Renderer.embedded version).bind (fun r => r.service { c with source }) = .ok t ∧
      (Renderer.embedded version).bind (fun r => r.service { c' with source }) = .ok t' ∧
      withoutRemarks t = withoutRemarks t' := by
  have hbare : c.undocumented = c'.undocumented := by
    have hcontext := buildContext_undocumented s
    rw [hservice, buildContext_undocumented s', hc, hc'] at hcontext
    exact (Except.ok.inj hcontext).symm
  have hsource : ({ c with source } : Context).undocumented = ({ c' with source } : Context).undocumented := by
    change { c.undocumented with source } = { c'.undocumented with source }
    rw [hbare]
  refine ⟨_, _, service_embedded version _, service_embedded version _, ?_⟩
  rw [(alike_moduleText version { c with source }).withoutRemarks_eq,
    (alike_moduleText version { c' with source }).withoutRemarks_eq, hsource]

def hangarService (doc : Text) : Service where
  name := "Hangar"
  id := 1
  documentation := doc
  procedures := .ofList
    [("Door_Open", ⟨"Door_Open", 1, doc, [⟨"this", .reference .object "Hangar" "Door"⟩], none, false⟩),
     ("Close", ⟨"Close", 2, doc, [], none, false⟩)]
  classes := .ofList [("Door", ⟨"Door", doc⟩)]
  enumerations := .ofList [("Side", ⟨"Side", doc, [⟨"Left", 0⟩, ⟨"Right", 1⟩]⟩)]

theorem code_of_undocumented_eq_hangar :
    ∃ c c', buildContext (hangarService "*/\n\r\nfn open()") = .ok c ∧ buildContext (hangarService []) = .ok c' ∧
      c.doc ≠ c'.doc ∧
      ∃ t t', (Renderer.embedded "v1").bind (fun r => r.service { c with source := "Hangar.json" }) = .ok t ∧
        (Renderer.embedded "v1").bind (fun r => r.service { c' with source := "Hangar.json" }) = .ok t' ∧
        withoutRemarks t = withoutRemarks t' := by
  have hbuilt : ((buildContext (hangarService "*/\n\r\nfn open()")).toOption.bind fun c =>
      (buildContext (hangarService [])).toOption.map fun c' => decide (c.doc ≠ c'.doc)) = some true := by decide +kernel
  obtain ⟨c, hc, hbuilt⟩ := Option.bind_eq_some_iff.mp hbuilt
  obtain ⟨c', hc', hdoc⟩ := Option.map_eq_some_iff.mp hbuilt
  rw [toOption_eq_some] at hc hc'
  have hservice : (hangarService "*/\n\r\nfn open()").undocumented = (hangarService []).undocumented := rfl
  exact ⟨c, c', hc, hc', of_decide_eq_true hdoc, code_of_undocumented_eq hservice hc hc' "v1" "Hangar.json"⟩

end Render

end RpcBindings
