import RpcBindings.Proofs.Execution
import RpcBindings.Proofs.Text
import RpcBindings.Render.Renderer

/-!
# The layout of generated modules

A module is laid out in rows of pieces: fixed passages, and places for what differs from service to service. Filled with
texts a row is a part of the module, filled with nodes it is a template. The built-in templates are these rows of nodes.
-/

namespace RpcBindings.Render

open Binding Template

def passage (lines : List String) : Text := Text.join [10] (lines.map fun line => line.toList.flatMap meant)

def enumTraits : Text := "Clone, Copy, Debug, PartialEq, Eq, Hash"

def classTraits : Text := "Clone, Debug, PartialEq, Eq, Hash"

/-! ## Rows -/

section

variable {α : Type} (fixed : Text → α)

def typeRow (traits keyword : Text) (remark name : α) (body : List α) : List α :=
  remark :: fixed ("\n#[derive(" ++ traits ++ ")]\npub " ++ keyword ++ " ") :: name :: body

def memberRow (member : α) : List α := [fixed "\n    ", member, fixed ","]

def valueRow (name member value : α) : List α :=
  [fixed "\n            ", name, fixed "::", member, fixed " => ", value, fixed ","]

def patternRow (name member value : α) : List α :=
  [fixed "\n            ", value, fixed " => Some(", name, fixed "::", member, fixed "),"]

def enumRow (name members values patterns : α) : List α :=
  [fixed (passage [" ⦃"]), members,
   fixed (passage ["", "⦄", "", "impl "]), name,
   fixed (passage
    [" ⦃",
     "    /// Wire value of this member.",
     "    pub fn value(&self) -> i32 ⦃",
     "        match *self ⦃"]), values,
   fixed (passage
    ["",
     "        ⦄",
     "    ⦄",
     "",
     "    /// Member for a wire value, None when the value is unknown.",
     "    #[allow(unreachable_patterns)]",
     "    pub fn from_value(value: i32) -> Option<Self> ⦃",
     "        match value ⦃"]), patterns,
   fixed (passage
    ["",
     "            _ => None,",
     "        ⦄",
     "    ⦄",
     "⦄",
     "",
     "impl RPCEncodable for "]), name,
   fixed (passage
    [" ⦃",
     "    fn encode(&self, output: &mut protobuf::CodedOutputStream) -> Result<(), protobuf::ProtobufError> ⦃",
     "        self.value().encode(output)",
     "    ⦄",
     "⦄",
     "",
     "impl RPCExtractable for "]), name,
   fixed (passage
    [" ⦃",
     "    fn extract_value(input: &mut protobuf::CodedInputStream) -> Result<Self, protobuf::ProtobufError> ⦃",
     "        let value = i32::extract_value(input)?;",
     "        "]), name,
   fixed (passage
    ["::from_value(value)",
     "            .ok_or(protobuf::ProtobufError::WireError(protobuf::error::WireError::Other))",
     "    ⦄",
     "⦄"])]

def implRow (name functions : α) : List α :=
  [fixed "\n\nimpl ", name, fixed (passage [" ⦃"]), functions, fixed (passage ["", "⦄"])]

def classRow (name implementation : α) : List α :=
  [fixed (passage
    [" ⦃",
     "    id: u64,",
     "⦄",
     "",
     "impl RPCEncodable for "]), name,
   fixed (passage
    [" ⦃",
     "    fn encode(&self, output: &mut protobuf::CodedOutputStream) -> Result<(), protobuf::ProtobufError> ⦃",
     "        self.id.encode(output)",
     "    ⦄",
     "⦄",
     "",
     "impl RPCExtractable for "]), name,
   fixed (passage
    [" ⦃",
     "    fn extract_value(input: &mut protobuf::CodedInputStream) -> Result<Self, protobuf::ProtobufError> ⦃",
     "        let id = u64::extract_value(input)?;",
     "        Ok("]), name,
   fixed (passage
    [" ⦃ id ⦄)",
     "    ⦄",
     "⦄"]), implementation]

def inputRow (name reference type : α) : List α := [name, fixed ": ", reference, type]

def argumentRow (indent : Text) (place expression : α) : List α :=
  [fixed ("\n" ++ indent ++ "        rpc::argument("), place, fixed ", ", expression, fixed "),"]

/-- A function of the module or of a class. The texts `taken` and `given` stand in front of its parameters and of the
arguments of its call. -/
def functionRow (indent taken given : Text) (remark name inputs result arguments procedure : α) : List α :=
  [remark, fixed ("\n" ++ indent ++ "pub fn "), name, fixed ("(" ++ taken), inputs,
   fixed ") -> CallHandle<", result,
   fixed (passage ["> ⦃", ""] ++ indent ++ "    let arguments = vec![" ++ given), arguments,
   fixed ("\n" ++ indent ++ "    ];\n" ++ indent ++ "    rpc::call(\""), procedure,
   fixed ("\", arguments)\n" ++ indent ++ passage ["⦄"])]

def importRow (module : α) : List α := [fixed "\nuse super::", module, fixed ";"]

def headerRow (source version name doc imports : α) : List α :=
  [fixed (passage
    ["// Code generated by krpcgen from kRPC service definitions. DO NOT EDIT.",
     "// Regenerate with: krpcgen generate"]), source,
   fixed "\n// Generator version: ", version,
   fixed (passage ["", "", "//! Bindings for the kRPC service `"]), name,
   fixed "`.", doc,
   fixed (passage
    ["",
     "",
     "#![allow(clippy::all)]",
     "#![allow(dead_code)]",
     "#![allow(unused_imports)]",
     "",
     "use krpc_mars::client::CallHandle;",
     "use krpc_mars::codec::RPCEncodable;",
     "use krpc_mars::codec::RPCExtractable;",
     "use krpc_mars::krpc;",
     "use krpc_mars::protobuf;"]), imports,
   fixed (passage
    ["",
     "",
     "/// Name of the service on the wire.",
     "pub const SERVICE: &str = \""]), name,
   fixed (passage
    ["\";",
     "",
     "mod rpc ⦃",
     "    use krpc_mars::client::CallHandle;",
     "    use krpc_mars::codec::RPCEncodable;",
     "    use krpc_mars::codec::RPCExtractable;",
     "    use krpc_mars::krpc;",
     "    use krpc_mars::protobuf;",
     "",
     "    pub fn argument<T: RPCEncodable + ?Sized>(position: u32, value: &T) -> krpc::Argument ⦃",
     "        let mut arg = krpc::Argument::new();",
     "        arg.set_position(position);",
     "        arg.set_value(value.encode_to_bytes().unwrap());",
     "        arg",
     "    ⦄",
     "",
     "    pub fn call<T: RPCExtractable>(procedure: &str, arguments: Vec<krpc::Argument>) -> CallHandle<T> ⦃",
     "        let mut proc_call = krpc::ProcedureCall::new();",
     "        proc_call.set_service(String::from(super::SERVICE));",
     "        proc_call.set_procedure(String::from(procedure));",
     "        proc_call.set_arguments(protobuf::RepeatedField::from_vec(arguments));",
     "        CallHandle::<T>::new(proc_call)",
     "    ⦄",
     "⦄"])]

end

/-! ## Templates -/

namespace Layout

def shown (e : Expr) : Node := .action (.single [e])

def filtered (function : Text) (e : Expr) : Node := .action (.single [.function function, e])

def remark (mark : Text) : Node := .focus (.single [.field ["Doc"]]) [.text mark, filtered "one_line" .dot] []

def name : Node := filtered "rust_ident" (.field ["Name"])

def wholeName : Node := filtered "rust_ident" (.variable "$" ["Name"])

def each (field : Text) (body : List Node) : Node := .loop (.single [.field [field]]) body []

def eachPlaced (item field : Text) (body : List Node) : Node := .loop ⟨["$i", item], false, [[.field [field]]]⟩ body []

def separator (t : Text) : Node := .branch (.single [.variable "$i" []]) [.text t] []

def input (operand : List Text → Expr) : List Node :=
  inputRow .text (shown (operand ["Name"])) (.branch (.single [operand ["ByRef"]]) [.text "&"] [])
    (shown (operand ["Type", "Expr"]))

def arguments (indent : Text) : Node :=
  each "Params" (argumentRow .text indent (shown (.field ["Position"])) (filtered "arg_expr" .dot))

def function (indent taken given : Text) (inputs : Node) : List Node :=
  functionRow .text indent taken given (remark ("\n" ++ indent ++ "/// ")) (filtered "fn_name" (.field ["Name"])) inputs
    (filtered "return_type" (.field ["Return"])) (arguments indent) (shown (.field ["RPCName"]))

def methodNodes : List Node :=
  function "    " "&self" "\n            rpc::argument(0, self)," (each "Params" (.text ", " :: input .field))

def procedureNodes : List Node :=
  function [] [] [] (eachPlaced "$p" "Params" (separator ", " :: input (.variable "$p")))

def enumNodes : List Node :=
  typeRow .text enumTraits "enum" (remark "\n/// ") name
    (enumRow .text name
      (each "Values" (memberRow .text name))
      (each "Values" (valueRow .text wholeName name (shown (.field ["Value"]))))
      (each "Values" (patternRow .text wholeName name (shown (.field ["Value"])))))

def classNodes : List Node :=
  typeRow .text classTraits "struct" (remark "\n/// ") name
    (classRow .text name
      (.branch (.single [.field ["Methods"]])
        (implRow .text name
          (eachPlaced "$m" "Methods"
            [separator "\n", .call "rust.method" (some (.single [.variable "$m" []]))])) []))

def blocks (field template : Text) : Node := each field [.text "\n", .call template (some (.single [.dot]))]

def serviceNodes : List Node :=
  headerRow .text (.focus (.single [.field ["Source"]]) [.text "\n// Source file: ", shown .dot] [])
    (shown (.function "generator_version")) (shown (.field ["Name"])) (remark "\n//!\n//! ")
    (.branch (.single [.field ["Imports"]]) [.text "\n", each "Imports" (importRow .text (shown .dot))] []) ++
  [blocks "Enums" "rust.enum", blocks "Classes" "rust.class", blocks "Procedures" "rust.procedure", .text "\n"]

def indexNodes : List Node :=
  [.text (passage
    ["// Code generated by krpcgen from kRPC service definitions. DO NOT EDIT.",
     "// Regenerate with: krpcgen generate",
     "// Generator version: "]),
   shown (.function "generator_version"), .text "\n", each "Modules" [.text "\npub mod ", shown .dot, .text ";"],
   .text "\n"]

def templates : List (Text × List Node) :=
  [(indexName, indexNodes), ("rust.class", classNodes), ("rust.enum", enumNodes), ("rust.method", methodNodes),
   ("rust.procedure", procedureNodes), (serviceName, serviceNodes)]

def library : Library := ⟨templates, by decide⟩

end Layout

end RpcBindings.Render

/-! ## Telling templates apart -/

namespace RpcBindings.Template

def sameEach {α : Type} (same : α → α → Bool) : List α → List α → Bool
  | [], [] => true
  | a :: as, b :: bs => same a b && sameEach same as bs
  | _, _ => false

theorem eq_of_sameEach {α : Type} {same : α → α → Bool} (hsame : ∀ a b, same a b = true → a = b) (as bs : List α)
    (h : sameEach same as bs = true) : as = bs := by
  fun_induction sameEach same as bs with
  | case1 => rfl
  | case2 a as b bs ih =>
    rw [Bool.and_eq_true] at h
    rw [hsame a b h.1, ih h.2]
  | case3 => cases h

def Expr.same : Expr → Expr → Bool
  | .dot, .dot => true
  | .field p, .field q => p == q
  | .variable n p, .variable m q => n == m && p == q
  | .function n, .function m => n == m
  | _, _ => false

theorem Expr.eq_of_same {e e' : Expr} (h : e.same e' = true) : e = e' := by
  unfold Expr.same at h
  split at h <;> simp_all

def Pipeline.same (p q : Pipeline) : Bool :=
  p.targets == q.targets && (p.assigns == q.assigns && sameEach (sameEach Expr.same) p.commands q.commands)

theorem Pipeline.eq_of_same {p q : Pipeline} (h : p.same q = true) : p = q := by
  cases p with
  | mk targets assigns commands =>
    cases q with
    | mk targets' assigns' commands' =>
      simp only [Pipeline.same, Bool.and_eq_true, beq_iff_eq] at h
      obtain ⟨rfl, rfl, hcommands⟩ := h
      rw [eq_of_sameEach (eq_of_sameEach fun _ _ => Expr.eq_of_same) _ _ hcommands]

mutual

def Node.same : Node → Node → Bool
  | .text t, .text u => t == u
  | .action p, .action q => p.same q
  | .branch p body other, .branch q body' other' => p.same q && (sameNodes body body' && sameNodes other other')
  | .focus p body other, .focus q body' other' => p.same q && (sameNodes body body' && sameNodes other other')
  | .loop p body other, .loop q body' other' => p.same q && (sameNodes body body' && sameNodes other other')
  | .call n (some p), .call m (some q) => n == m && p.same q
  | _, _ => false

def sameNodes : List Node → List Node → Bool
  | [], [] => true
  | n :: ns, m :: ms => n.same m && sameNodes ns ms
  | _, _ => false

end

mutual

theorem Node.eq_of_same : ∀ n m : Node, n.same m = true → n = m
  | .text t, m, h => by
    cases m with
    | text u => rw [beq_iff_eq.mp h]
    | _ => cases h
  | .action p, m, h => by
    cases m with
    | action q => rw [Pipeline.eq_of_same h]
    | _ => cases h
  | .branch p body other, m, h => by
    cases m with
    | branch q body' other' =>
      simp only [Node.same, Bool.and_eq_true] at h
      rw [Pipeline.eq_of_same h.1, eq_of_sameNodes body body' h.2.1, eq_of_sameNodes other other' h.2.2]
    | _ => cases h
  | .focus p body other, m, h => by
    cases m with
    | focus q body' other' =>
      simp only [Node.same, Bool.and_eq_true] at h
      rw [Pipeline.eq_of_same h.1, eq_of_sameNodes body body' h.2.1, eq_of_sameNodes other other' h.2.2]
    | _ => cases h
  | .loop p body other, m, h => by
    cases m with
    | loop q body' other' =>
      simp only [Node.same, Bool.and_eq_true] at h
      rw [Pipeline.eq_of_same h.1, eq_of_sameNodes body body' h.2.1, eq_of_sameNodes other other' h.2.2]
    | _ => cases h
  | .call n none, m, h => by cases m <;> cases h
  | .call n (some p), m, h => by
    cases m with
    | call n' p' =>
      cases p' with
      | none => cases h
      | some q =>
        simp only [Node.same, Bool.and_eq_true, beq_iff_eq] at h
        rw [h.1, Pipeline.eq_of_same h.2]
    | _ => cases h
  | .leave, m, h => by cases m <;> cases h
  | .next, m, h => by cases m <;> cases h

theorem eq_of_sameNodes : ∀ ns ms : List Node, sameNodes ns ms = true → ns = ms
  | [], [], _ => rfl
  | n :: ns, m :: ms, h => by
    rw [sameNodes, Bool.and_eq_true] at h
    rw [Node.eq_of_same n m h.1, eq_of_sameNodes ns ms h.2]

end

def sameTemplates (es es' : List (Text × List Node)) : Bool := sameEach (fun a b => a.1 == b.1 && sameNodes a.2 b.2) es es'

theorem eq_of_sameTemplates {es es' : List (Text × List Node)} (h : sameTemplates es es' = true) : es = es' := by
  refine eq_of_sameEach (fun a b hab => ?_) es es' h
  rw [Bool.and_eq_true, beq_iff_eq] at hab
  exact Prod.ext hab.1 (eq_of_sameNodes _ _ hab.2)

end RpcBindings.Template

/-! ## The built-in templates -/

namespace RpcBindings.Render

open Template

theorem template_cons (cs : List Char) (lines : List String) :
    template (String.ofList cs :: lines) = cs.flatMap meant ++ 10 :: template lines := by
  simp [template]

theorem template_line {cs : List Char} {lines : List String} {t : Text} (h : template lines = t) :
    template (String.ofList cs :: lines) = cs.flatMap meant ++ 10 :: t := by
  rw [template_cons, h]

theorem passage_singleton (cs : List Char) : passage [String.ofList cs] = cs.flatMap meant := by
  simp [passage]

theorem passage_cons (cs : List Char) (line : String) (lines : List String) :
    passage (String.ofList cs :: line :: lines) = cs.flatMap meant ++ 10 :: passage (line :: lines) := by
  simp [passage, Text.join]

theorem passage_line {cs : List Char} {line : String} {lines : List String} {t : Text} (h : passage (line :: lines) = t) :
    passage (String.ofList cs :: line :: lines) = cs.flatMap meant ++ 10 :: t := by
  rw [passage_cons, h]

theorem embedded?_of_texts {service index : Text} {templates : List (Text × List Node)} (hservice : serviceText = service)
    (hindex : indexText = index) (htemplates : Layout.templates = templates)
    (h : ((Library.addFile? functionNames Dict.empty indexName index).bind fun l =>
      Library.addFile? functionNames l serviceName service).any
        (fun l => sameTemplates (Dict.entries l) templates) = true) : embedded? = some Layout.library := by
  subst hservice hindex htemplates
  cases hparsed : embedded? with
  | none =>
    have hnone : (embedded?.any fun l => sameTemplates (Dict.entries l) Layout.templates) = true := h
    rw [hparsed] at hnone
    cases hnone
  | some l =>
    have hsome : (embedded?.any fun l => sameTemplates (Dict.entries l) Layout.templates) = true := h
    rw [hparsed] at hsome
    cases l with
    | mk entries ascending =>
      obtain rfl : entries = Layout.templates := eq_of_sameTemplates hsome
      rfl

set_option maxRecDepth 10000 in
/-- Parsing the built-in templates gives them as they are laid out. -/
theorem embedded?_eq : embedded? = some Layout.library := by
  apply embedded?_of_texts
  case hservice =>
    unfold serviceText
    repeat apply template_line
    rfl
  case hindex =>
    unfold indexText
    repeat apply template_line
    rfl
  case htemplates =>
    simp only [Layout.templates, Layout.indexNodes, Layout.serviceNodes, Layout.enumNodes, Layout.classNodes,
      Layout.methodNodes, Layout.procedureNodes, Layout.function, typeRow, enumRow, classRow, implRow, functionRow, headerRow]
    repeat rewrite [passage_cons]
    repeat rewrite [passage_singleton]
    rfl
  case h => decide +kernel

end RpcBindings.Render
