import RpcBindings.Text.Trim

/-!
# Type codes

A type node of a service document names its form by a code. Codes are read regardless of case and of white space at
their ends.
-/

namespace RpcBindings

inductive Code where
  | bool | sint32 | uint32 | sint64 | uint64 | double | float | string | bytes
  | list | set | tuple | dictionary
  | object | enumeration
  | event | procedureCall | stream | services | status
  deriving DecidableEq, Repr

namespace Code

def text : Code → Text
  | bool => "BOOL"
  | sint32 => "SINT32"
  | uint32 => "UINT32"
  | sint64 => "SINT64"
  | uint64 => "UINT64"
  | double => "DOUBLE"
  | float => "FLOAT"
  | string => "STRING"
  | bytes => "BYTES"
  | list => "LIST"
  | set => "SET"
  | tuple => "TUPLE"
  | dictionary => "DICTIONARY"
  | object => "CLASS"
  | enumeration => "ENUMERATION"
  | event => "EVENT"
  | procedureCall => "PROCEDURE_CALL"
  | stream => "STREAM"
  | services => "SERVICES"
  | status => "STATUS"

def all : List Code :=
  [bool, sint32, uint32, sint64, uint64, double, float, string, bytes, list, set, tuple, dictionary, object,
   enumeration, event, procedureCall, stream, services, status]

/-- The capital of a character, as far as a code can hold it: an ASCII letter, the long s or the dotless i. -/
def capital (c : Char) : Char :=
  if 'a' ≤ c ∧ c ≤ 'z' then Char.ofNat (c.toNat - 32)
  else if c.toNat = 0x17F then 'S'
  else if c.toNat = 0x131 then 'I'
  else c

def parse? (t : Text) : Option Code :=
  let spelling := Text.ofChars ((Text.runes (Text.trim t)).map capital)
  all.find? fun c => c.text == spelling

def supported : Text := "[" ++ Text.join " " (all.map text) ++ "]"

end Code

end RpcBindings
