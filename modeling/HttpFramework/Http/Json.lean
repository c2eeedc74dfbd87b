import HttpFramework.Cpp

/-! The JSON values of the library `nlohmann::json`, as far as the handlers look into them. How
texts are parsed and values are printed is left to the library. -/

namespace HttpFramework.Http

/-- A number is given by the `int` it converts to. -/
inductive Json where
  | null
  | boolean (value : Bool)
  | number (value : Int)
  | string (text : Bytes)
  | array (items : List Json)
  | object (fields : List (Bytes × Json))

namespace Json

def typeName : Json → Bytes
  | .null => ascii "null"
  | .boolean _ => ascii "boolean"
  | .number _ => ascii "number"
  | .string _ => ascii "string"
  | .array _ => ascii "array"
  | .object _ => ascii "object"

/-- `operator[]`: a null value becomes an object, in which a missing field is null. The error is
the text of the exception. -/
def field (key : Bytes) : Json → Except Bytes Json
  | .null => .ok .null
  | .object fields => .ok (((fields.find? fun field => field.1 = key).map Prod.snd).getD .null)
  | other => .error (ascii "[json.exception.type_error.305] cannot use operator[] with a string argument with " ++
      other.typeName)

def toBytes : Json → Except Bytes Bytes
  | .string text => .ok text
  | other => .error (ascii "[json.exception.type_error.302] type must be string, but is " ++ other.typeName)

def toInt : Json → Except Bytes Int
  | .number value => .ok value
  | .boolean value => .ok (if value then 1 else 0)
  | other => .error (ascii "[json.exception.type_error.302] type must be number, but is " ++ other.typeName)

end Json

def isUtf8 (text : Bytes) : Bool := ByteArray.validateUTF8 ⟨text.toArray⟩

mutual

/-- All texts in the value are valid UTF-8, so that it can be printed. -/
def Json.printable : Json → Bool
  | .null | .boolean _ | .number _ => true
  | .string text => isUtf8 text
  | .array items => printableItems items
  | .object fields => printableFields fields

def printableItems : List Json → Bool
  | [] => true
  | item :: rest => item.printable && printableItems rest

def printableFields : List (Bytes × Json) → Bool
  | [] => true
  | (key, value) :: rest => isUtf8 key && value.printable && printableFields rest

end

/-- What is relied on of the library. The errors are the texts of its exceptions. -/
structure JsonLibrary where
  parse : Bytes → Except Bytes Json
  dump (indent : Int) : Json → Except Bytes Bytes
  dumps : ∀ indent (json : Json), json.printable = true → ∃ text, dump indent json = .ok text

end HttpFramework.Http
