import RpcBindings.Binding.Resolve
import RpcBindings.Log.Entry
import RpcBindings.Naming
import RpcBindings.Schema.Service

/-!
# Methods and free procedures

A procedure named `Class_Method` after a declared class is a method of that class; every other procedure stands free. In
the generated module each class and the module itself are scopes, and within a scope two procedures must not generate
one function.
-/

namespace RpcBindings.Binding

structure Param where
  name : Text
  rawName : Text
  position : Nat
  type : TypeRef
  byRef : Bool
  deriving DecidableEq

structure Return where
  type : TypeRef
  isClass : Bool
  nullable : Bool
  deriving DecidableEq

structure Signature where
  name : Text
  rpcName : Text
  id : UInt32
  doc : Text
  params : List Param
  result : Option Return
  deriving DecidableEq

structure ClassMethods where
  name : Text
  doc : Text
  methods : List Signature
  deriving DecidableEq

structure Partition where
  classes : List ClassMethods
  procedures : List Signature
  deriving DecidableEq

namespace Partition

def methodCount (p : Partition) : Nat := p.classes.foldr (fun c n => c.methods.length + n) 0

def class? (p : Partition) (name : Text) : Option ClassMethods := p.classes.find? fun c => c.name == name

end Partition

inductive SignatureFault where
  | parameter (name : Text) (cause : TypeFault)
  | result (cause : TypeFault)
  deriving DecidableEq

inductive PartitionFault where
  | emptyMethod (procedure cls : Text)
  | collision (first second function : Text)
  | signature (procedure : Text) (cause : SignatureFault)
  deriving DecidableEq

namespace SignatureFault

def fault : SignatureFault → Fault
  | parameter name cause => .within ("parameter " ++ Text.guarded name) cause.fault
  | result cause => .within "return type" cause.fault

end SignatureFault

namespace PartitionFault

def fault : PartitionFault → Fault
  | emptyMethod procedure cls =>
    .hinted ("methods of " ++ cls ++ " are named " ++ cls ++ "_<Method>")
      (.ofMalformedType ("procedure " ++ Text.guarded procedure ++ ": empty method name after class prefix " ++
        Text.guarded cls))
  | collision first second function =>
    .hinted "procedure names must stay distinct after case conversion"
      (.ofMalformedType ("procedures " ++ Text.guarded first ++ " and " ++ Text.guarded second ++
        " both generate fn " ++ Text.guarded function))
  | signature procedure cause => .within ("procedure " ++ Text.guarded procedure) cause.fault

end PartitionFault

inductive Place where
  | free
  | method (cls name : Text)
  deriving DecidableEq

def splitName? (procedure : Text) : Option (Text × Text) := Text.cut? 95 procedure

def place (classes : Dict ClassDecl) (procedure : Text) : Place :=
  match splitName? procedure with
  | none => .free
  | some (cls, name) => if classes.contains cls then .method cls name else .free

namespace Place

/-- The scope of a place: the class of a method, and the empty name for what stands free. -/
def scope : Place → Text
  | free => []
  | method cls _ => cls

def declared (procedure : Text) : Place → Text
  | free => procedure
  | method _ name => name

def isMethod : Place → Bool
  | free => false
  | method _ _ => true

end Place

def buildParams (own : Text) (position : Nat) : List Parameter → Except SignatureFault (List Param)
  | [] => .ok []
  | p :: rest =>
    match resolve own p.type with
    | .error cause => .error (.parameter p.name cause)
    | .ok ref =>
      (buildParams own (position + 1) rest).map
        ({ name := Naming.functionName p.name, rawName := p.name, position, type := ref
           byRef := !ref.kind.byValue } :: ·)

def buildReturn (own : Text) (p : Procedure) : Except SignatureFault (Option Return) :=
  match p.result with
  | none => .ok none
  | some t =>
    match resolve own t with
    | .error cause => .error (.result cause)
    | .ok ref => .ok (some ⟨ref, ref.kind == .object, p.nullable⟩)

/-- The function of a procedure. The first parameter of a method is the object it is called on. -/
def buildSignature (own : Text) (p : Procedure) (place : Place) (name : Text) : Except SignatureFault Signature := do
  let params ← if place.isMethod then buildParams own 1 p.parameters.tail else buildParams own 0 p.parameters
  let result ← buildReturn own p
  return { name, rpcName := p.name, id := p.id, doc := Naming.oneLine p.documentation, params, result }

structure Placed where
  methods : Dict (Dict Signature)
  free : Dict Signature
  taken : List ((Text × Text) × Text)
  receiverless : List (Text × Text)

namespace Placed

def start (s : Service) : Placed := ⟨s.classes.map fun _ _ => Dict.empty, Dict.empty, [], []⟩

def step (s : Service) (st : Placed) (procedure : Text) (p : Procedure) : Except PartitionFault Placed :=
  let place := place s.classes procedure
  let declared := place.declared procedure
  let function := Naming.functionName declared
  let key := (place.scope, function)
  if place.isMethod ∧ declared.isEmpty then .error (.emptyMethod procedure place.scope)
  else match st.taken.lookup key with
    | some first => .error (.collision first procedure function)
    | none =>
      match buildSignature s.name p place declared with
      | .error cause => .error (.signature procedure cause)
      | .ok sig =>
        let st := { st with taken := (key, procedure) :: st.taken }
        match place with
        | .free => .ok { st with free := st.free.insert procedure sig }
        | .method cls name =>
          .ok { st with
            methods := st.methods.insert cls (((st.methods.get? cls).getD Dict.empty).insert name sig)
            receiverless := if p.parameters.isEmpty then (cls, procedure) :: st.receiverless else st.receiverless }

def run (s : Service) : Placed → List (Text × Procedure) → Placed × Option PartitionFault
  | st, [] => (st, none)
  | st, (procedure, p) :: rest =>
    match step s st procedure p with
    | .error f => (st, some f)
    | .ok st => run s st rest

def partition (s : Service) (st : Placed) : Partition where
  classes := st.methods.entries.map fun e =>
    { name := e.1
      doc := Naming.oneLine ((s.classes.get? e.1).elim [] (·.documentation))
      methods := e.2.values }
  procedures := st.free.values

end Placed

def partitionRun (s : Service) : Placed × Option PartitionFault := Placed.run s (Placed.start s) s.procedures.entries

def partition (s : Service) : Except PartitionFault Partition :=
  match partitionRun s with
  | (_, some f) => .error f
  | (st, none) => .ok (st.partition s)

def partitionLog (s : Service) : List Log.Entry :=
  (partitionRun s).1.receiverless.reverse.map fun (cls, procedure) =>
    { level := .debug, component := [], message := "Method has no receiver parameter"
      fields := [("service", .text s.name), ("procedure", .text procedure), ("class", .text cls)] }

end RpcBindings.Binding
