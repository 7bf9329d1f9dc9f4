import Script.Grammar.Fault
import Script.Step
/-!
# Readers

A reader takes tokens from the front of a list.  It ends with a result and the tokens that it has
left, or with a fault and the tokens that it had not read when it met the fault.  The list holds
no token of kind `eof`: the end of the list stands for it.
-/

namespace Script.Grammar

abbrev Reader (α : Type) := Step Fault (List Token) α

def headKind : List Token → Kind
  | [] => .eof
  | token :: _ => token.kind

/-- The kind of the next token, which is left where it is. -/
def peek : Reader Kind := fun tokens => .ok (headKind tokens) tokens

def advance : Reader Unit := fun tokens => .ok () tokens.tail

def expect (kind : Kind) (what : Expectation) : Reader Token
  | [] => .error (.expected what) []
  | token :: rest =>
    if token.kind = kind then .ok token rest else .error (.expected what) (token :: rest)

/-- Takes the name of a type.  A name that names no type has been read when it turns out so. -/
def typeName (what : Expectation) : Reader Ty := do
  let token ← expect .identifier what
  match Ty.ofName token.lexeme with
  | .ok ty => pure ty
  | .error _ => throw (.unknownType token)

@[simp] theorem peek_apply (tokens : List Token) : peek tokens = .ok (headKind tokens) tokens :=
  rfl

@[simp] theorem advance_apply (tokens : List Token) : advance tokens = .ok () tokens.tail := rfl

end Script.Grammar
