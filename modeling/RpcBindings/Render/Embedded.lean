import RpcBindings.Text.Utf8

/-!
# The built-in templates

The texts of the templates for a service module and for the module index. Lines are written with `⟦` and `⟧` for the
double braces of an action, and with `⦃` and `⦄` for single braces.
-/

namespace RpcBindings.Render

def meant (c : Char) : Text :=
  match c with
  | '⟦' => [123, 123]
  | '⟧' => [125, 125]
  | '⦃' => [123]
  | '⦄' => [125]
  | _ => Text.ofChar c

def template (lines : List String) : Text := lines.flatMap fun line => line.toList.flatMap meant ++ [10]

def serviceName : Text := "service.rs.tmpl"

def indexName : Text := "mod.rs.tmpl"

def indexText : Text := template
  ["// Code generated by krpcgen from kRPC service definitions. DO NOT EDIT.",
   "// Regenerate with: krpcgen generate",
   "// Generator version: ⟦generator_version⟧",
   "⟦range .Modules⟧",
   "pub mod ⟦.⟧;",
   "⟦- end⟧"]

def serviceText : Text := template
  ["⟦define \"rust.enum\" -⟧",
   "⟦- with .Doc⟧",
   "/// ⟦one_line .⟧",
   "⟦- end⟧",
   "#[derive(Clone, Copy, Debug, PartialEq, Eq, Hash)]",
   "pub enum ⟦rust_ident .Name⟧ ⦃",
   "⟦- range .Values⟧",
   "    ⟦rust_ident .Name⟧,",
   "⟦- end⟧",
   "⦄",
   "",
   "impl ⟦rust_ident .Name⟧ ⦃",
   "    /// Wire value of this member.",
   "    pub fn value(&self) -> i32 ⦃",
   "        match *self ⦃",
   "⟦- range .Values⟧",
   "            ⟦rust_ident $.Name⟧::⟦rust_ident .Name⟧ => ⟦.Value⟧,",
   "⟦- end⟧",
   "        ⦄",
   "    ⦄",
   "",
   "    /// Member for a wire value, None when the value is unknown.",
   "    #[allow(unreachable_patterns)]",
   "    pub fn from_value(value: i32) -> Option<Self> ⦃",
   "        match value ⦃",
   "⟦- range .Values⟧",
   "            ⟦.Value⟧ => Some(⟦rust_ident $.Name⟧::⟦rust_ident .Name⟧),",
   "⟦- end⟧",
   "            _ => None,",
   "        ⦄",
   "    ⦄",
   "⦄",
   "",
   "impl RPCEncodable for ⟦rust_ident .Name⟧ ⦃",
   "    fn encode(&self, output: &mut protobuf::CodedOutputStream) -> Result<(), protobuf::ProtobufError> ⦃",
   "        self.value().encode(output)",
   "    ⦄",
   "⦄",
   "",
   "impl RPCExtractable for ⟦rust_ident .Name⟧ ⦃",
   "    fn extract_value(input: &mut protobuf::CodedInputStream) -> Result<Self, protobuf::ProtobufError> ⦃",
   "        let value = i32::extract_value(input)?;",
   "        ⟦rust_ident .Name⟧::from_value(value)",
   "            .ok_or(protobuf::ProtobufError::WireError(protobuf::error::WireError::Other))",
   "    ⦄",
   "⦄",
   "⟦- end -⟧",
   "",
   "⟦define \"rust.method\" -⟧",
   "⟦- with .Doc⟧",
   "    /// ⟦one_line .⟧",
   "⟦- end⟧",
   "    pub fn ⟦fn_name .Name⟧(&self⟦range .Params⟧, ⟦.Name⟧: ⟦if .ByRef⟧&⟦end⟧⟦.Type.Expr⟧⟦end⟧) -> CallHandle<⟦return_type .Return⟧> ⦃",
   "        let arguments = vec![",
   "            rpc::argument(0, self),",
   "⟦- range .Params⟧",
   "            rpc::argument(⟦.Position⟧, ⟦arg_expr .⟧),",
   "⟦- end⟧",
   "        ];",
   "        rpc::call(\"⟦.RPCName⟧\", arguments)",
   "    ⦄",
   "⟦- end -⟧",
   "",
   "⟦define \"rust.class\" -⟧",
   "⟦- with .Doc⟧",
   "/// ⟦one_line .⟧",
   "⟦- end⟧",
   "#[derive(Clone, Debug, PartialEq, Eq, Hash)]",
   "pub struct ⟦rust_ident .Name⟧ ⦃",
   "    id: u64,",
   "⦄",
   "",
   "impl RPCEncodable for ⟦rust_ident .Name⟧ ⦃",
   "    fn encode(&self, output: &mut protobuf::CodedOutputStream) -> Result<(), protobuf::ProtobufError> ⦃",
   "        self.id.encode(output)",
   "    ⦄",
   "⦄",
   "",
   "impl RPCExtractable for ⟦rust_ident .Name⟧ ⦃",
   "    fn extract_value(input: &mut protobuf::CodedInputStream) -> Result<Self, protobuf::ProtobufError> ⦃",
   "        let id = u64::extract_value(input)?;",
   "        Ok(⟦rust_ident .Name⟧ ⦃ id ⦄)",
   "    ⦄",
   "⦄",
   "⟦- if .Methods⟧",
   "",
   "impl ⟦rust_ident .Name⟧ ⦃",
   "⟦- range $i, $m := .Methods⟧",
   "⟦- if $i⟧",
   "⟦end⟧",
   "⟦- template \"rust.method\" $m⟧",
   "⟦- end⟧",
   "⦄",
   "⟦- end⟧",
   "⟦- end -⟧",
   "",
   "⟦define \"rust.procedure\" -⟧",
   "⟦- with .Doc⟧",
   "/// ⟦one_line .⟧",
   "⟦- end⟧",
   "pub fn ⟦fn_name .Name⟧(⟦range $i, $p := .Params⟧⟦if $i⟧, ⟦end⟧⟦$p.Name⟧: ⟦if $p.ByRef⟧&⟦end⟧⟦$p.Type.Expr⟧⟦end⟧) -> CallHandle<⟦return_type .Return⟧> ⦃",
   "    let arguments = vec![",
   "⟦- range .Params⟧",
   "        rpc::argument(⟦.Position⟧, ⟦arg_expr .⟧),",
   "⟦- end⟧",
   "    ];",
   "    rpc::call(\"⟦.RPCName⟧\", arguments)",
   "⦄",
   "⟦- end -⟧",
   "",
   "// Code generated by krpcgen from kRPC service definitions. DO NOT EDIT.",
   "// Regenerate with: krpcgen generate",
   "⟦- with .Source⟧",
   "// Source file: ⟦.⟧",
   "⟦- end⟧",
   "// Generator version: ⟦generator_version⟧",
   "",
   "//! Bindings for the kRPC service `⟦.Name⟧`.",
   "⟦- with .Doc⟧",
   "//!",
   "//! ⟦one_line .⟧",
   "⟦- end⟧",
   "",
   "#![allow(clippy::all)]",
   "#![allow(dead_code)]",
   "#![allow(unused_imports)]",
   "",
   "use krpc_mars::client::CallHandle;",
   "use krpc_mars::codec::RPCEncodable;",
   "use krpc_mars::codec::RPCExtractable;",
   "use krpc_mars::krpc;",
   "use krpc_mars::protobuf;",
   "⟦- if .Imports⟧",
   "⟦range .Imports⟧",
   "use super::⟦.⟧;",
   "⟦- end⟧",
   "⟦- end⟧",
   "",
   "/// Name of the service on the wire.",
   "pub const SERVICE: &str = \"⟦.Name⟧\";",
   "",
   "mod rpc ⦃",
   "    use krpc_mars::client::CallHandle;",
   "    use krpc_mars::codec::RPCEncodable;",
   "    use krpc_mars::codec::RPCExtractable;",
   "    use krpc_mars::krpc;",
   "    use krpc_mars::protobuf;",
   "",
   "    pub fn argument<T: RPCEncodable + ?Sized>(position: u32, value: &T) -> krpc::Argument ⦃",
   "        let mut arg = krpc::Argument::new();",
   "        arg.set_position(position);",
   "        arg.set_value(value.encode_to_bytes().unwrap());",
   "        arg",
   "    ⦄",
   "",
   "    pub fn call<T: RPCExtractable>(procedure: &str, arguments: Vec<krpc::Argument>) -> CallHandle<T> ⦃",
   "        let mut proc_call = krpc::ProcedureCall::new();",
   "        proc_call.set_service(String::from(super::SERVICE));",
   "        proc_call.set_procedure(String::from(procedure));",
   "        proc_call.set_arguments(protobuf::RepeatedField::from_vec(arguments));",
   "        CallHandle::<T>::new(proc_call)",
   "    ⦄",
   "⦄",
   "⟦- range .Enums⟧",
   "⟦template \"rust.enum\" .⟧",
   "⟦- end⟧",
   "⟦- range .Classes⟧",
   "⟦template \"rust.class\" .⟧",
   "⟦- end⟧",
   "⟦- range .Procedures⟧",
   "⟦template \"rust.procedure\" .⟧",
   "⟦- end⟧"]

end RpcBindings.Render
