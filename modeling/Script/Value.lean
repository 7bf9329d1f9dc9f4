import Script.Integer
import Script.Quoted
/-!
# Types and values

A value has one of five types.  Each type has the name under which answers show it, and two of
them can also be written in a shorter way.  Printed values have the form of literals.
-/

namespace Script

inductive Ty
  | integer
  | string
  | char
  | boolean
  | void
deriving DecidableEq

structure UnknownType where
  name : String
deriving DecidableEq

def UnknownType.message (unknown : UnknownType) : String := "Unknown type: " ++ unknown.name

namespace Ty

def name : Ty → String
  | integer => "integer"
  | string => "string"
  | char => "char"
  | boolean => "boolean"
  | void => "void"

def ofName (name : String) : Except UnknownType Ty :=
  if name = "int" ∨ name = "integer" then .ok integer
  else if name = "string" then .ok string
  else if name = "char" then .ok char
  else if name = "bool" ∨ name = "boolean" then .ok boolean
  else if name = "void" then .ok void
  else .error ⟨name⟩

theorem ofName_name (ty : Ty) : ofName ty.name = .ok ty := by
  cases ty <;> rfl

end Ty

inductive Value
  | integer (i : Integer)
  | text (s : String)
  | character (c : Char)
  | boolean (b : Bool)
  | void
deriving DecidableEq

namespace Value

def ty : Value → Ty
  | integer _ => .integer
  | text _ => .string
  | character _ => .char
  | boolean _ => .boolean
  | void => .void

def asBoolean? : Value → Option Bool
  | boolean b => some b
  | _ => none

def render : Value → String
  | integer i => i.render
  | text s => String.ofList (Quoted.encode '"' s.toList)
  | character c => String.ofList (Quoted.encode '\'' [c])
  | boolean true => "true"
  | boolean false => "false"
  | void => "void"

end Value

end Script
