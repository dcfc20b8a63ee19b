import RpcBindings.Binding.Context
import RpcBindings.Format.Tree

/-!
# The outline of a context

A rendering context as a tree, the form in which it is shown to users.
-/

namespace RpcBindings

open Format

def TypeRef.outline (t : TypeRef) : Tree := .groups
  [[("expr", .text t.expr), ("kind", .text t.kind.text)], if t.deps.isEmpty then [] else [("deps", .texts t.deps)]]

namespace Binding

def Param.outline (p : Param) : Tree := .record
  [("name", .text p.name), ("raw_name", .text p.rawName), ("position", .number p.position), ("type", p.type.outline),
   ("by_ref", .bool p.byRef)]

def Return.outline (r : Return) : Tree := .record
  [("type", r.type.outline), ("is_class", .bool r.isClass), ("nullable", .bool r.nullable)]

def Signature.outline (s : Signature) : Tree := .groups
  [[("name", .text s.name), ("rpc_name", .text s.rpcName), ("id", .number s.id.toNat)], Tree.optional "doc" s.doc,
   [("params", .list (s.params.map Param.outline))],
   match s.result with
   | none => []
   | some r => [("return", r.outline)]]

def ClassMethods.outline (c : ClassMethods) : Tree := .groups
  [[("name", .text c.name)], Tree.optional "doc" c.doc, [("methods", .list (c.methods.map Signature.outline))]]

def EnumMember.outline (m : EnumMember) : Tree := .record [("name", .text m.name), ("value", .number m.value.toInt)]

def EnumDef.outline (e : EnumDef) : Tree := .groups
  [[("name", .text e.name)], Tree.optional "doc" e.doc, [("values", .list (e.values.map EnumMember.outline))]]

def Partition.outline (p : Partition) : Tree := .record
  [("classes", .list (p.classes.map ClassMethods.outline)), ("procedures", .list (p.procedures.map Signature.outline))]

def Context.outline (c : Context) : Tree := .groups
  [[("name", .text c.name), ("module", .text c.module), ("id", .number c.id.toNat)], Tree.optional "doc" c.doc,
   Tree.optional "source" c.source,
   [("dependencies", .texts c.dependencies), ("imports", .texts c.imports),
    ("classes", .list (c.classes.map ClassMethods.outline)),
    ("procedures", .list (c.procedures.map Signature.outline)), ("enums", .list (c.enums.map EnumDef.outline))]]

end Binding

end RpcBindings
