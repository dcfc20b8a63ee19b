import RpcBindings.Dict
import RpcBindings.Schema.DataType

/-!
# Services

A document declares services; a service declares procedures, classes and enumerations. Each is kept under its name.
-/

namespace RpcBindings

structure Parameter where
  name : Text
  type : DataType

structure Procedure where
  name : Text
  id : UInt32
  documentation : Text
  parameters : List Parameter
  result : Option DataType
  nullable : Bool

structure ClassDecl where
  name : Text
  documentation : Text

structure Member where
  name : Text
  value : UInt32

structure Enumeration where
  name : Text
  documentation : Text
  members : List Member

structure Service where
  name : Text
  id : UInt32
  documentation : Text
  procedures : Dict Procedure
  classes : Dict ClassDecl
  enumerations : Dict Enumeration

/-- The services of one service file. The path is empty for a document that was not read from a file. -/
structure Document where
  path : Text
  services : Dict Service

end RpcBindings
