import RpcBindings.Proofs.Layout

/-!
# The text of a module

What is generated for a service, written directly: a header, then a block for each enumeration, class and free procedure
in their order. Each block is a function of its own element. The built-in templates write exactly this text, whatever the
service, and never fail.
-/

namespace RpcBindings.Render

open Binding Template

/-! ## Texts -/

def commented (mark doc : Text) : Text := if doc.isEmpty then [] else mark ++ Naming.oneLine doc

/-- A generated function: the identifiers and types of its parameters, and what it passes on to which procedure. -/
structure Function where
  isMethod : Bool
  doc : Text
  identifier : Text
  inputs : List (Text × Text)
  result : Text
  arguments : List (Nat × Text)
  procedure : Text

namespace Function

def input (p : Param) : Text × Text := (p.name, (if p.byRef then ("&" : Text) else []) ++ p.type.expr)

def argument (p : Param) : Nat × Text := (p.position, if p.byRef then p.name else "&" ++ p.name)

def resultType : Option Return → Text
  | none => "()"
  | some r => if r.nullable then "Option<" ++ r.type.expr ++ ">" else r.type.expr

def ofSignature (isMethod : Bool) (s : Signature) : Function where
  isMethod := isMethod
  doc := s.doc
  identifier := Naming.functionName s.name
  inputs := s.params.map input
  result := resultType s.result
  arguments := (if isMethod then [(0, ("self" : Text))] else []) ++ s.params.map argument
  procedure := s.rpcName

def indent (f : Function) : Text := if f.isMethod then ("    " : Text) else []

def inputText (i : Text × Text) : Text := i.1 ++ ": " ++ i.2

def argumentText (indent : Text) (a : Nat × Text) : Text :=
  "\n" ++ indent ++ "        rpc::argument(" ++ Text.ofNat a.1 ++ ", " ++ a.2 ++ "),"

def opening (f : Function) : Text :=
  commented ("\n" ++ f.indent ++ "/// ") f.doc ++ "\n" ++ f.indent ++ "pub fn " ++ f.identifier ++ "(" ++
    Text.join ", " ((if f.isMethod then [("&self" : Text)] else []) ++ f.inputs.map inputText) ++
    ") -> CallHandle<" ++ f.result ++ "> \x7b\n"

def call (indent : Text) (arguments : List (Nat × Text)) (procedure : Text) : Text :=
  indent ++ "    let arguments = vec![" ++ arguments.flatMap (argumentText indent) ++ "\n" ++ indent ++ "    ];\n" ++
    indent ++ "    rpc::call(\"" ++ procedure ++ "\", arguments)\n" ++ indent ++ "\x7d"

def text (f : Function) : Text := f.opening ++ call f.indent f.arguments f.procedure

end Function

structure Item where
  traits : Text
  keyword : Text
  doc : Text
  identifier : Text
  body : List Text

namespace Item

def text (i : Item) : Text :=
  (typeRow id i.traits i.keyword (commented "\n/// " i.doc) i.identifier i.body).flatten

def members (e : EnumDef) : List (Text × Text) :=
  e.values.map fun m => (Naming.identifier m.name, Text.ofInt m.value.toInt)

def ofEnum (e : EnumDef) : Item where
  traits := enumTraits
  keyword := "enum"
  doc := e.doc
  identifier := Naming.identifier e.name
  body := enumRow id (Naming.identifier e.name)
    ((members e).flatMap fun m => (memberRow id m.1).flatten)
    ((members e).flatMap fun m => (valueRow id (Naming.identifier e.name) m.1 m.2).flatten)
    ((members e).flatMap fun m => (patternRow id (Naming.identifier e.name) m.1 m.2).flatten)

def functions (k : ClassMethods) : Text :=
  if k.methods.isEmpty then [] else
    "\n\nimpl " ++ Naming.identifier k.name ++ " \x7b" ++
      Text.join "\n" (k.methods.map fun m => (Function.ofSignature true m).text) ++ "\n\x7d"

def ofClass (k : ClassMethods) : Item where
  traits := classTraits
  keyword := "struct"
  doc := k.doc
  identifier := Naming.identifier k.name
  body := classRow id (Naming.identifier k.name) (functions k)

end Item

def header (source version name doc : Text) (imports : List Text) : Text :=
  (headerRow id (if source.isEmpty then [] else "\n// Source file: " ++ source) version name
    (commented "\n//!\n//! " doc)
    (if imports.isEmpty then [] else "\n" ++ imports.flatMap fun m => (importRow id m).flatten)).flatten

def enumBlock (e : EnumDef) : Text := "\n" ++ (Item.ofEnum e).text

def classBlock (k : ClassMethods) : Text := "\n" ++ (Item.ofClass k).text

def procedureBlock (s : Signature) : Text := "\n" ++ (Function.ofSignature false s).text

def moduleText (version : Text) (c : Context) : Text :=
  header c.source version c.name c.doc c.imports ++ c.enums.flatMap enumBlock ++ c.classes.flatMap classBlock ++
    c.procedures.flatMap procedureBlock ++ "\n"

/-! ## What the templates write -/

section

variable {call : Text → Value → Except ExecFault Text} {env : Env} {scope : Scope} {version : Text}

theorem writes_shown {command : List Expr} {t : Text} (h : Gives env scope command (.text t)) :
    (Node.action (.single command)).Writes call env scope t := writes_action h

theorem ite_not_isEmpty {α : Type} (l : List α) (t : Text) :
    (if (!l.isEmpty) = true then t else []) = if l.isEmpty then [] else t := by
  cases l <;> rfl

theorem writes_remark {doc : Text} (mark : Text) (h : Gives env scope [.field ["Doc"]] (.text doc)) :
    (Layout.remark mark).Writes call env scope (commented mark doc) := by
  have hbody : Writes call { env with dot := .text doc } scope [.text mark, Layout.filtered "one_line" .dot]
      [mark, Naming.oneLine doc].flatten :=
    writes_flatten (.cons (writes_text mark) <| .cons (writes_shown rfl) .nil)
  have hfocus := writes_focus h hbody
  rw [Value.truth, ite_not_isEmpty] at hfocus
  simpa [commented, Layout.remark] using hfocus

theorem writes_separator {t : Text} {place : Nat} (h : Gives env scope [.variable "$i" []] (.number .plain place)) :
    (Layout.separator t).Writes call env scope (if place = 0 then [] else t) := by
  have hbody : Writes call env scope [.text t] (t ++ []) := writes_cons (writes_text t) writes_nil
  have hbranch := writes_branch h hbody
  by_cases hplace : place = 0
  · simpa [Layout.separator, Value.truth, hplace] using hbranch
  · simpa [Layout.separator, Value.truth, hplace] using hbranch

theorem writes_input {operand : List Text → Expr} {p : Param}
    (h : ∀ path v, Value.path? (.param p) path = some v → Gives env scope [operand path] v) :
    Writes call env scope (Layout.input operand) (Function.inputText (Function.input p)) := by
  have hmark : Writes call env scope [.text "&"] (("&" : Text) ++ []) := writes_cons (writes_text _) writes_nil
  have hbyRef := writes_branch (h ["ByRef"] (.bool p.byRef) rfl) hmark
  have hname := h ["Name"] (.text p.name) rfl
  have htype := h ["Type", "Expr"] (.text p.type.expr) rfl
  have hrow := writes_flatten (.cons (writes_shown hname) <| .cons (writes_text ": ") <| .cons hbyRef <|
    .cons (writes_shown htype) .nil)
  simpa [Layout.input, inputRow, Layout.shown, Function.inputText, Function.input, Value.truth] using hrow

theorem argumentText_eq (indent : Text) (a : Nat × Text) :
    Function.argumentText indent a = (argumentRow id indent (Text.ofNat a.1) a.2).flatten := by
  simp [Function.argumentText, argumentRow]

theorem returnType_eq_resultType (result : Option Return) : returnType result = Function.resultType result := by
  cases result <;> rfl

theorem writes_arguments (indent : Text) (s : Signature) :
    (Layout.arguments indent).Writes call ⟨version, .signature s⟩ scope
      (s.params.flatMap fun p => Function.argumentText indent (Function.argument p)) := by
  refine writes_loop (v := .params s.params) rfl rfl fun p => ?_
  rw [argumentText_eq]
  exact writes_flatten
    (.cons (writes_text _) <| .cons (writes_action (v := .number .plain p.position) rfl) <|
     .cons (writes_text _) <| .cons (writes_shown rfl) <| .cons (writes_text _) .nil)

theorem writes_function (indent taken given : Text) {inputs : Node} {s : Signature} {t : Text}
    (h : inputs.Writes call ⟨version, .signature s⟩ scope t) :
    Writes call ⟨version, .signature s⟩ scope (Layout.function indent taken given inputs)
      (functionRow id indent taken given (commented ("\n" ++ indent ++ "/// ") s.doc) (Naming.functionName s.name) t
        (Function.resultType s.result) (s.params.flatMap fun p => Function.argumentText indent (Function.argument p))
        s.rpcName).flatten := by
  rw [← returnType_eq_resultType]
  exact writes_flatten
    (.cons (writes_remark _ rfl) <| .cons (writes_text _) <| .cons (writes_shown rfl) <| .cons (writes_text _) <|
     .cons h <| .cons (writes_text _) <| .cons (writes_shown rfl) <| .cons (writes_text _) <|
     .cons (writes_arguments indent s) <| .cons (writes_text _) <| .cons (writes_shown rfl) <| .cons (writes_text _) .nil)

theorem passage_opening : passage ["> ⦃", ""] = "> \x7b\n" := by decide

theorem passage_closing : passage ["⦄"] = "\x7d" := by decide

theorem writes_methodNodes (s : Signature) :
    Writes call ⟨version, .signature s⟩ scope Layout.methodNodes (Function.ofSignature true s).text := by
  have hinputs : (Layout.each "Params" (.text ", " :: Layout.input .field)).Writes call ⟨version, .signature s⟩ scope
      (s.params.flatMap fun p => ", " ++ Function.inputText (Function.input p)) :=
    writes_loop (v := .params s.params) rfl rfl fun p => writes_cons (writes_text _)
      (writes_input fun path v hpath => by simp [Gives, evalCommand, evalExpr, follow, hpath, Except.map])
  have hself : ("\n            rpc::argument(0, self)," : Text) = Function.argumentText "    " (0, "self") := by decide
  have hrow := writes_function "    " "&self" "\n            rpc::argument(0, self)," hinputs
  simpa [Layout.methodNodes, Function.text, Function.opening, Function.call, Function.ofSignature, Function.indent,
    functionRow, passage_opening, passage_closing, Text.join_cons, hself, List.flatMap_map] using hrow

theorem writes_procedureNodes (s : Signature) :
    Writes call ⟨version, .signature s⟩ scope Layout.procedureNodes (Function.ofSignature false s).text := by
  have hinputs : (Layout.eachPlaced "$p" "Params" (Layout.separator ", " :: Layout.input (.variable "$p"))).Writes call
      ⟨version, .signature s⟩ scope (Text.join ", " (s.params.map (Function.inputText ∘ Function.input))) := by
    rw [← numbered_eq_join]
    exact writes_numbered (v := .params s.params) rfl rfl fun place p => writes_cons (writes_separator rfl)
      (writes_input fun path v hpath => by simp [Gives, evalCommand, evalExpr, follow, hpath, Except.map])
  have hrow := writes_function [] [] [] hinputs
  simpa [Layout.procedureNodes, Function.text, Function.opening, Function.call, Function.ofSignature, Function.indent,
    functionRow, passage_opening, passage_closing, List.flatMap_map] using hrow

theorem writes_values {e : EnumDef} {body : List Node} (write : Text × Text → Text)
    (h : ∀ m : EnumMember, Writes call ⟨version, .member m⟩ scope body
      (write (Naming.identifier m.name, Text.ofInt m.value.toInt))) :
    (Layout.each "Values" body).Writes call ⟨version, .enum e⟩ scope ((Item.members e).flatMap write) := by
  rw [Item.members, List.flatMap_map]
  exact writes_loop (v := .members e.values) rfl rfl h

theorem writes_enumNodes (e : EnumDef) :
    Writes call ⟨version, .enum e⟩ [("$", .enum e)] Layout.enumNodes (Item.ofEnum e).text := by
  have hmembers : (Layout.each "Values" (memberRow .text Layout.name)).Writes call ⟨version, .enum e⟩ [("$", .enum e)]
      ((Item.members e).flatMap fun m => (memberRow id m.1).flatten) :=
    writes_values _ fun m => writes_flatten
      (.cons (writes_text _) <| .cons (writes_shown rfl) <| .cons (writes_text _) .nil)
  have harms : (Layout.each "Values" (valueRow .text Layout.wholeName Layout.name (Layout.shown (.field ["Value"])))).Writes
      call ⟨version, .enum e⟩ [("$", .enum e)]
      ((Item.members e).flatMap fun m => (valueRow id (Naming.identifier e.name) m.1 m.2).flatten) :=
    writes_values _ fun m => writes_flatten
      (.cons (writes_text _) <| .cons (writes_shown rfl) <| .cons (writes_text _) <| .cons (writes_shown rfl) <|
       .cons (writes_text _) <| .cons (writes_action (v := .number .signed32 m.value.toInt) rfl) <|
       .cons (writes_text _) .nil)
  have hpatterns :
      (Layout.each "Values" (patternRow .text Layout.wholeName Layout.name (Layout.shown (.field ["Value"])))).Writes
      call ⟨version, .enum e⟩ [("$", .enum e)]
      ((Item.members e).flatMap fun m => (patternRow id (Naming.identifier e.name) m.1 m.2).flatten) :=
    writes_values _ fun m => writes_flatten
      (.cons (writes_text _) <| .cons (writes_action (v := .number .signed32 m.value.toInt) rfl) <|
       .cons (writes_text _) <| .cons (writes_shown rfl) <| .cons (writes_text _) <| .cons (writes_shown rfl) <|
       .cons (writes_text _) .nil)
  exact writes_flatten
    (.cons (writes_remark _ rfl) <| .cons (writes_text _) <| .cons (writes_shown rfl) <| .cons (writes_text _) <|
     .cons hmembers <| .cons (writes_text _) <| .cons (writes_shown rfl) <| .cons (writes_text _) <| .cons harms <|
     .cons (writes_text _) <| .cons hpatterns <| .cons (writes_text _) <| .cons (writes_shown rfl) <|
     .cons (writes_text _) <| .cons (writes_shown rfl) <| .cons (writes_text _) <| .cons (writes_shown rfl) <|
     .cons (writes_text _) .nil)

theorem functions_eq (k : ClassMethods) : Item.functions k = if k.methods.isEmpty then [] else
    (implRow id (Naming.identifier k.name)
      (Text.join "\n" (k.methods.map fun m => (Function.ofSignature true m).text))).flatten := by
  have hopen : passage [" ⦃"] = " \x7b" := by decide
  have hclose : passage ["", "⦄"] = "\n\x7d" := by decide
  simp [Item.functions, implRow, hopen, hclose]

theorem writes_classNodes (k : ClassMethods)
    (hcall : ∀ s : Signature, call "rust.method" (.signature s) = .ok (Function.ofSignature true s).text) :
    Writes call ⟨version, .object k⟩ [("$", .object k)] Layout.classNodes (Item.ofClass k).text := by
  have hfunctions : (Layout.eachPlaced "$m" "Methods"
      [Layout.separator "\n", .call "rust.method" (some (.single [.variable "$m" []]))]).Writes call ⟨version, .object k⟩
        [("$", .object k)] (Text.join "\n" (k.methods.map fun m => (Function.ofSignature true m).text)) := by
    rw [← numbered_eq_join]
    refine writes_numbered (v := .signatures k.methods) rfl rfl fun place m => writes_cons (writes_separator rfl) ?_
    rw [← List.append_nil (Function.text _)]
    exact writes_cons (writes_call (v := .signature m) rfl (hcall m)) writes_nil
  have himpl : Writes call ⟨version, .object k⟩ [("$", .object k)] (implRow .text Layout.name (Layout.eachPlaced "$m" "Methods"
      [Layout.separator "\n", .call "rust.method" (some (.single [.variable "$m" []]))]))
      (implRow id (Naming.identifier k.name)
        (Text.join "\n" (k.methods.map fun m => (Function.ofSignature true m).text))).flatten :=
    writes_flatten (.cons (writes_text _) <| .cons (writes_shown rfl) <| .cons (writes_text _) <| .cons hfunctions <|
      .cons (writes_text _) .nil)
  have hmethods : Gives ⟨version, .object k⟩ [("$", .object k)] [.field ["Methods"]] (.signatures k.methods) := rfl
  have hbranch := writes_branch hmethods himpl
  rw [Value.truth, ite_not_isEmpty, ← functions_eq] at hbranch
  exact writes_flatten
    (.cons (writes_remark _ rfl) <| .cons (writes_text _) <| .cons (writes_shown rfl) <| .cons (writes_text _) <|
     .cons (writes_shown rfl) <| .cons (writes_text _) <| .cons (writes_shown rfl) <| .cons (writes_text _) <|
     .cons (writes_shown rfl) <| .cons (writes_text _) <| .cons hbranch .nil)

theorem writes_blocks {α : Type} {field template : Text} {v : Value} {mk : α → Value} {text : α → Text} {items : List α}
    (h : Gives env scope [.field [field]] v) (hitems : loopItems? 0 v = some (items.map mk))
    (hcall : ∀ a, call template (mk a) = .ok (text a)) :
    (Layout.blocks field template).Writes call env scope (items.flatMap fun a => "\n" ++ text a) := by
  refine writes_loop h hitems fun a => writes_cons (writes_text _) ?_
  rw [← List.append_nil (text a)]
  exact writes_cons (writes_call rfl (hcall a)) writes_nil

theorem writes_source (c : Context) :
    (Node.focus (.single [.field ["Source"]]) [.text "\n// Source file: ", Layout.shown .dot] []).Writes call
      ⟨version, .context c⟩ scope (if c.source.isEmpty then [] else "\n// Source file: " ++ c.source) := by
  have hsource : Gives ⟨version, .context c⟩ scope [.field ["Source"]] (.text c.source) := rfl
  have hbody : Writes call ⟨version, .text c.source⟩ scope [.text "\n// Source file: ", Layout.shown .dot]
      [("\n// Source file: " : Text), c.source].flatten :=
    writes_flatten (.cons (writes_text _) <| .cons (writes_shown rfl) .nil)
  have hfocus := writes_focus hsource hbody
  rw [Value.truth, ite_not_isEmpty] at hfocus
  simpa using hfocus

theorem writes_imports (c : Context) :
    (Node.branch (.single [.field ["Imports"]])
      [.text "\n", Layout.each "Imports" (importRow .text (Layout.shown .dot))] []).Writes call ⟨version, .context c⟩ scope
      (if c.imports.isEmpty then [] else "\n" ++ c.imports.flatMap fun m => (importRow id m).flatten) := by
  have himports : Gives ⟨version, .context c⟩ scope [.field ["Imports"]] (.texts c.imports) := rfl
  have heach : (Layout.each "Imports" (importRow .text (Layout.shown .dot))).Writes call ⟨version, .context c⟩ scope
      (c.imports.flatMap fun m => (importRow id m).flatten) :=
    writes_loop himports rfl fun m => writes_flatten
      (.cons (writes_text _) <| .cons (writes_shown rfl) <| .cons (writes_text _) .nil)
  have hbranch := writes_branch himports (writes_cons (writes_text "\n") (writes_cons heach writes_nil))
  rw [Value.truth, ite_not_isEmpty] at hbranch
  simpa using hbranch

theorem writes_serviceNodes (c : Context)
    (henum : ∀ e, call "rust.enum" (.enum e) = .ok (Item.ofEnum e).text)
    (hclass : ∀ k, call "rust.class" (.object k) = .ok (Item.ofClass k).text)
    (hprocedure : ∀ s, call "rust.procedure" (.signature s) = .ok (Function.ofSignature false s).text) :
    Writes call ⟨version, .context c⟩ [("$", .context c)] Layout.serviceNodes (moduleText version c) := by
  have htext : moduleText version c = (headerRow id (if c.source.isEmpty then [] else "\n// Source file: " ++ c.source)
      version c.name (commented "\n//!\n//! " c.doc)
      (if c.imports.isEmpty then [] else "\n" ++ c.imports.flatMap fun m => (importRow id m).flatten) ++
        [c.enums.flatMap enumBlock, c.classes.flatMap classBlock, c.procedures.flatMap procedureBlock,
         ("\n" : Text)]).flatten := by
    simp [moduleText, header]
  rw [htext]
  exact writes_flatten
    (.cons (writes_text _) <| .cons (writes_source c) <| .cons (writes_text _) <| .cons (writes_shown rfl) <|
     .cons (writes_text _) <| .cons (writes_shown rfl) <| .cons (writes_text _) <| .cons (writes_remark _ rfl) <|
     .cons (writes_text _) <| .cons (writes_imports c) <| .cons (writes_text _) <| .cons (writes_shown rfl) <|
     .cons (writes_text _) <| .cons (writes_blocks (v := .enums c.enums) rfl rfl henum) <|
     .cons (writes_blocks (v := .classes c.classes) rfl rfl hclass) <|
     .cons (writes_blocks (v := .signatures c.procedures) rfl rfl hprocedure) <| .cons (writes_text _) .nil)

end

section

variable (version : Text) (depth : Nat)

theorem invoke_enum (e : EnumDef) :
    invoke Layout.library version (depth + 1) "rust.enum" (.enum e) = .ok (Item.ofEnum e).text := by
  have hget : Layout.library.get? "rust.enum" = some Layout.enumNodes := rfl
  exact invoke_of_writes hget (writes_enumNodes e)

theorem invoke_method (s : Signature) :
    invoke Layout.library version (depth + 1) "rust.method" (.signature s) = .ok (Function.ofSignature true s).text := by
  have hget : Layout.library.get? "rust.method" = some Layout.methodNodes := rfl
  exact invoke_of_writes hget (writes_methodNodes s)

theorem invoke_class (k : ClassMethods) :
    invoke Layout.library version (depth + 2) "rust.class" (.object k) = .ok (Item.ofClass k).text := by
  have hget : Layout.library.get? "rust.class" = some Layout.classNodes := rfl
  exact invoke_of_writes hget (writes_classNodes k (invoke_method version depth))

theorem invoke_procedure (s : Signature) :
    invoke Layout.library version (depth + 1) "rust.procedure" (.signature s) = .ok (Function.ofSignature false s).text := by
  have hget : Layout.library.get? "rust.procedure" = some Layout.procedureNodes := rfl
  exact invoke_of_writes hget (writes_procedureNodes s)

theorem invoke_service (c : Context) :
    invoke Layout.library version (depth + 3) serviceName (.context c) = .ok (moduleText version c) := by
  have hget : Layout.library.get? serviceName = some Layout.serviceNodes := rfl
  exact invoke_of_writes hget (writes_serviceNodes c (invoke_enum version (depth + 1)) (invoke_class version depth)
    (invoke_procedure version (depth + 1)))

theorem service_embedded (c : Context) :
    (Renderer.embedded version).bind (fun r => r.service c) = .ok (moduleText version c) := by
  have hcontains : Layout.library.contains serviceName = true := by decide
  have hexecute : Template.execute Layout.library version serviceName (.context c) = .ok (moduleText version c) :=
    invoke_service version 99997 c
  rw [Renderer.embedded, embedded?_eq]
  simp only [Renderer.ofParsed, Except.bind, Renderer.service, Renderer.execute, hcontains, if_true, hexecute]
  rfl

end

/-! ## Composition -/

theorem classBlock_eq (k : ClassMethods) : classBlock k = classBlock { k with methods := [] } ++ Item.functions k := by
  simp [classBlock, Item.text, Item.ofClass, typeRow, classRow, Item.functions]

/-- The built-in service template always gives a text: the header, then a block for each enumeration, each class and each
free procedure, each in its order. A class has a function for each method and nothing more that depends on its methods.
Each function passes the arguments of its parameters in order, after the object itself in a method. -/
theorem service_composed (version : Text) (c : Context) :
    (Renderer.embedded version).bind (fun r => r.service c) =
      .ok (header c.source version c.name c.doc c.imports ++ c.enums.flatMap enumBlock ++ c.classes.flatMap classBlock ++
        c.procedures.flatMap procedureBlock ++ "\n") ∧
    (∀ k : ClassMethods, classBlock k = classBlock { k with methods := [] } ++ (if k.methods.isEmpty then [] else
      "\n\nimpl " ++ Naming.identifier k.name ++ " \x7b" ++
        Text.join "\n" (k.methods.map fun m => (Function.ofSignature true m).text) ++ "\n\x7d" : Text)) ∧
    ∀ (isMethod : Bool) (s : Signature), (Function.ofSignature isMethod s).text =
      (Function.ofSignature isMethod s).opening ++ Function.call (if isMethod then ("    " : Text) else [])
        ((if isMethod then [(0, ("self" : Text))] else []) ++ s.params.map fun p : Param =>
          (p.position, if p.byRef then p.name else "&" ++ p.name))
        s.rpcName :=
  ⟨service_embedded version c, classBlock_eq, fun _ _ => rfl⟩

end RpcBindings.Render
