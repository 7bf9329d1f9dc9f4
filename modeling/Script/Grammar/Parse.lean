import Script.Grammar.Statement
/-!
# Programs

A list of tokens is read statement by statement up to the first token of kind `eof`.  The first
statement that does not follow the grammar ends the reading; the statements before it are kept.
-/

namespace Script

/-- An error in a program together with the number of tokens that had been read when it was
found. -/
structure ParseFailure where
  error : GrammarError
  position : Nat
deriving DecidableEq

structure Parse where
  statements : List Node
  failure : Option ParseFailure

namespace Parse

def error? (parse : Parse) : Option GrammarError := parse.failure.map (·.error)

end Parse

namespace Grammar

def nestingLimit : Nat := 256

def beforeEnd (tokens : List Token) : List Token := tokens.takeWhile (·.kind ≠ .eof)

/-- The line on which a list of tokens ends: that of its end mark, or of its last token if it has
no end mark. -/
def endLine (tokens : List Token) : Nat :=
  match tokens.find? (·.kind = .eof) with
  | some token => token.line
  | none => (tokens.getLast?.map (·.line)).getD 1

/-- The line that a fault concerns: the one of the first token that has not been read, except that
the name of an unknown type has been read already. -/
def Fault.line (fault : Fault) (rest : List Token) (endLine : Nat) : Nat :=
  match fault with
  | .unknownType token => token.line
  | _ =>
    match rest with
    | token :: _ => token.line
    | [] => endLine

/-- Reads statements to the end of the list, or to the first fault, which comes with the tokens
that had not been read.  Each statement takes at least one token, so the tokens at hand bound the
number of statements. -/
def statementsFrom (limit : Nat) : (bound tokens : List Token) →
    List Node × Option (Fault × List Token)
  | [], _ => ([], none)
  | _ :: _, [] => ([], none)
  | _ :: bound, tokens =>
    match statement limit tokens with
    | .ok node rest =>
      let others := statementsFrom limit bound rest
      (node :: others.1, others.2)
    | .error fault rest => ([], some (fault, rest))

def parseWithin (limit : Nat) (tokens : List Token) : Parse :=
  let stream := beforeEnd tokens
  let found := statementsFrom limit stream stream
  { statements := found.1
    failure := found.2.map fun (fault, rest) =>
      ⟨⟨fault, fault.line rest (endLine tokens)⟩, stream.length - rest.length⟩ }

end Grammar

def parse (tokens : List Token) : Parse := Grammar.parseWithin Grammar.nestingLimit tokens

end Script
