import Script.Character.Letter
import Script.Character.Numeral
import Script.Integer
import Script.Quoted
import Script.Token.Basic
/-!
# The lexeme at the front of a text

`Lexeme.read c cs` says what the text `c :: cs` begins with, if `c` is neither blank nor the
start of a comment: a lexeme, or the reason why there is none.  In both cases it tells the
characters that it has looked at and accepted or found faulty, which are always a prefix of the
text.
-/

namespace Script

namespace Lexeme

inductive Fault
  | unterminatedText
  | unterminatedCharacter
  | emptyCharacter
  | unknownEscape (c : Char)
  | integerTooLarge
  | unrecognized (c : Char)
deriving DecidableEq

def Fault.message : Fault → String
  | unterminatedText => "unterminated string literal"
  | unterminatedCharacter => "unterminated character literal"
  | emptyCharacter => "empty character literal"
  | unknownEscape c => "unknown escape sequence '\\" ++ String.singleton c ++ "'"
  | integerTooLarge => "integer literal too large"
  | unrecognized c => "unrecognized character '" ++ String.singleton c ++ "'"

/-- What a text begins with.  The characters `taken` stand at its front, `rest` is what follows
them. -/
inductive Reading
  | lexeme (kind : Kind) (content taken rest : List Char)
  | malformed (fault : Fault) (taken : List Char)
deriving DecidableEq

/-- What follows the opening quote of a literal: its content up to the closing quote, or the
reason why it is not closed. -/
inductive Body
  | closed (content taken rest : List Char)
  | broken (fault : Fault) (taken : List Char)
deriving DecidableEq

namespace Body

def cons (c : Char) (spelling : List Char) : Body → Body
  | closed content taken rest => closed (c :: content) (spelling ++ taken) rest
  | broken fault taken => broken fault (spelling ++ taken)

def toReading (kind : Kind) (quote : Char) : Body → Reading
  | closed content taken rest => .lexeme kind content (quote :: taken) rest
  | broken fault taken => .malformed fault (quote :: taken)

end Body

/-- The body of a text literal, which may stretch over several lines. -/
def textBody : List Char → Body
  | [] => .broken .unterminatedText []
  | c :: cs =>
    if c = '"' then .closed [] ['"'] cs
    else if c = '\\' then
      match cs with
      | [] => .broken .unterminatedText ['\\']
      | e :: cs =>
        match Quoted.unescape? e with
        | some decoded => (textBody cs).cons decoded ['\\', e]
        | none => .broken (.unknownEscape e) ['\\', e]
    else (textBody cs).cons c [c]

/-- The end of a character literal of which the character `c`, spelled as `spelling`, has been
read.  A character other than the closing quote is not part of the literal. -/
def closeCharacter (c : Char) (spelling : List Char) : List Char → Body
  | [] => .broken .unterminatedCharacter spelling
  | d :: cs =>
    if d = '\'' then .closed [c] (spelling ++ ['\'']) cs
    else .broken .unterminatedCharacter spelling

/-- The body of a character literal: one character, which may not be a plain line break. -/
def characterBody : List Char → Body
  | [] => .broken .unterminatedCharacter []
  | c :: cs =>
    if c = '\'' then .broken .emptyCharacter ['\'']
    else if c = '\\' then
      match cs with
      | [] => .broken .unterminatedCharacter ['\\']
      | e :: cs =>
        match Quoted.unescape? e with
        | some decoded => closeCharacter decoded ['\\', e] cs
        | none => .broken (.unknownEscape e) ['\\', e]
    else if c = '\n' then .broken .unterminatedCharacter ['\n']
    else closeCharacter c [c] cs

def startsWord (c : Char) : Bool := Character.isLetter c || c = '_'

def continuesWord (c : Char) : Bool :=
  Character.isLetter c || Character.isNumeral c || c = '_'

def word (c : Char) (cs : List Char) : Reading :=
  .lexeme (Kind.ofWord (String.ofList (c :: cs.takeWhile continuesWord)))
    (c :: cs.takeWhile continuesWord) (c :: cs.takeWhile continuesWord)
    (cs.dropWhile continuesWord)

def integer (c : Char) (cs : List Char) : Reading :=
  match Integer.ofNumeral? (c :: cs.takeWhile Char.isDigit) with
  | some _ =>
    .lexeme .integer (c :: cs.takeWhile Char.isDigit) (c :: cs.takeWhile Char.isDigit)
      (cs.dropWhile Char.isDigit)
  | none => .malformed .integerTooLarge (c :: cs.takeWhile Char.isDigit)

/-- The operator or punctuation mark that begins with `c`.  A symbol of two characters is
preferred to one of a single character. -/
def symbol (c : Char) (cs : List Char) : Reading :=
  match cs.head?.bind (Kind.ofPair? c) with
  | some kind => .lexeme kind (c :: cs.take 1) (c :: cs.take 1) (cs.drop 1)
  | none =>
    match Kind.ofSymbol? c with
    | some kind => .lexeme kind [c] [c] cs
    | none => .malformed (.unrecognized c) [c]

def read (c : Char) (cs : List Char) : Reading :=
  if c = '"' then (textBody cs).toReading .string '"'
  else if c = '\'' then (characterBody cs).toReading .char '\''
  else if c.isDigit then integer c cs
  else if startsWord c then word c cs
  else symbol c cs

/-- The text `whole` is made of what a reading has taken and of what it leaves. -/
def Reading.Splits (whole : List Char) : Reading → Prop
  | lexeme _ _ taken rest => taken ≠ [] ∧ taken ++ rest = whole
  | malformed _ taken => taken ≠ [] ∧ taken <+: whole

def Body.Splits (whole : List Char) : Body → Prop
  | closed _ taken rest => taken ++ rest = whole
  | broken _ taken => taken <+: whole

theorem Body.Splits.cons {whole : List Char} {body : Body} (h : body.Splits whole) (c : Char)
    (spelling : List Char) : (body.cons c spelling).Splits (spelling ++ whole) := by
  cases body with
  | closed content taken rest =>
      simp only [Body.Splits] at h
      simp [Body.cons, Body.Splits, h]
  | broken fault taken =>
      simpa [Body.cons, Body.Splits, List.prefix_append_right_inj] using h

theorem Body.Splits.toReading {whole : List Char} {body : Body} (h : body.Splits whole)
    (kind : Kind) (quote : Char) : (body.toReading kind quote).Splits (quote :: whole) := by
  cases body with
  | closed content taken rest =>
      simp only [Body.Splits] at h
      simp [Body.toReading, Reading.Splits, h]
  | broken fault taken =>
      simpa [Body.toReading, Reading.Splits, List.cons_prefix_cons, Body.Splits] using h

theorem textBody_splits (cs : List Char) : (textBody cs).Splits cs := by
  fun_induction textBody cs with
  | case1 => simp [Body.Splits]
  | case2 => simp [Body.Splits]
  | case3 => simp [Body.Splits]
  | case4 e cs decoded _ _ ih => exact ih.cons decoded ['\\', e]
  | case5 => simp [Body.Splits]
  | case6 c cs _ _ ih => exact ih.cons c [c]

theorem closeCharacter_splits (c : Char) (spelling cs : List Char) :
    (closeCharacter c spelling cs).Splits (spelling ++ cs) := by
  cases cs with
  | nil => simp [closeCharacter, Body.Splits]
  | cons d cs =>
      by_cases hd : d = '\'' <;> simp [closeCharacter, Body.Splits, hd]

theorem characterBody_splits (cs : List Char) : (characterBody cs).Splits cs := by
  fun_cases characterBody cs with
  | case1 => simp [Body.Splits]
  | case2 => simp [Body.Splits]
  | case3 => simp [Body.Splits]
  | case4 e cs decoded _ _ => exact closeCharacter_splits decoded ['\\', e] cs
  | case5 => simp [Body.Splits]
  | case6 => simp [Body.Splits]
  | case7 c cs => exact closeCharacter_splits c [c] cs

theorem read_splits (c : Char) (cs : List Char) : (read c cs).Splits (c :: cs) := by
  unfold read
  split
  · subst c
    exact (textBody_splits cs).toReading .string '"'
  · split
    · subst c
      exact (characterBody_splits cs).toReading .char '\''
    · split
      · unfold integer
        split
        · simp [Reading.Splits]
        · simp [Reading.Splits, List.cons_prefix_cons, List.takeWhile_prefix]
      · split
        · simp [word, Reading.Splits]
        · unfold symbol
          split
          · cases cs <;> simp [Reading.Splits]
          · split <;> simp [Reading.Splits, List.cons_prefix_cons]

theorem length_rest_lt {c : Char} {cs : List Char} {kind : Kind} {content taken rest : List Char}
    (h : read c cs = .lexeme kind content taken rest) : rest.length < (c :: cs).length := by
  have splits := read_splits c cs
  rw [h] at splits
  obtain ⟨nonempty, whole⟩ := splits
  rw [← whole, List.length_append]
  have := List.length_pos_iff.2 nonempty
  omega

end Lexeme

end Script
