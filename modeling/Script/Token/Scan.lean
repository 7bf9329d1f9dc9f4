import Script.Character.Blank
import Script.Token.Lexeme
/-!
# Tokens of a text

Between lexemes a text may hold blanks and comments, which run from a number sign to the end of
the line.  Scanning a text yields its tokens up to the first malformed lexeme, and how it ends:
with the last line or with that lexeme.
-/

namespace Script

inductive Ending
  | complete (line : Nat)
  | malformed (fault : Lexeme.Fault) (line : Nat) (taken : List Char)
deriving DecidableEq

/-- The tokens of a text, without the one that marks the end. -/
structure Scan where
  tokens : List Token
  ending : Ending
deriving DecidableEq

namespace Scan

def cons (token : Token) (scan : Scan) : Scan := { scan with tokens := token :: scan.tokens }

/-- Scans the text `cs`, which begins on the given line.  Each round takes at least one character
off the text, so a `bound` that is no shorter than the text is never used up before it. -/
def rounds : (bound : List Char) → (line : Nat) → (cs : List Char) → Scan
  | [], line, _ => ⟨[], .complete line⟩
  | _ :: _, line, [] => ⟨[], .complete line⟩
  | _ :: bound, line, c :: cs =>
    if c = '\n' then rounds bound (line + 1) cs
    else if Character.isBlank c then rounds bound line cs
    else if c = '#' then rounds bound line (cs.dropWhile (· ≠ '\n'))
    else
      match Lexeme.read c cs with
      | .lexeme kind content taken rest =>
        (rounds bound (line + taken.count '\n') rest).cons ⟨kind, String.ofList content, line⟩
      | .malformed fault taken => ⟨[], .malformed fault line taken⟩

def ofChars (line : Nat) (cs : List Char) : Scan := rounds cs line cs

theorem length_dropWhile_le (p : Char → Bool) (cs : List Char) :
    (cs.dropWhile p).length ≤ cs.length :=
  (List.dropWhile_suffix p).length_le

theorem rounds_eq_of_le {bound cs : List Char} (h : cs.length ≤ bound.length) (line : Nat) :
    rounds bound line cs = ofChars line cs := by
  suffices general : ∀ (n : Nat) (bound bound' cs : List Char) (line : Nat), cs.length ≤ n →
      cs.length ≤ bound.length → cs.length ≤ bound'.length →
      rounds bound line cs = rounds bound' line cs from
    general _ _ _ _ _ (Nat.le_refl _) h (Nat.le_refl _)
  intro n
  -- on a bound for the length of the text, since a round may take off more than one character
  induction n with
  | zero =>
      intro bound bound' cs line hn _ _
      have : cs = [] := List.length_eq_zero_iff.1 (by omega)
      subst this
      cases bound <;> cases bound' <;> rfl
  | succ n ih =>
      intro bound bound' cs line hn hbound hbound'
      cases cs with
      | nil => cases bound <;> cases bound' <;> rfl
      | cons c cs =>
          cases bound with
          | nil => simp at hbound
          | cons _ bound =>
              cases bound' with
              | nil => simp at hbound'
              | cons _ bound' =>
                  simp only [List.length_cons, Nat.add_le_add_iff_right] at hn hbound hbound'
                  unfold rounds
                  split
                  · exact ih _ _ _ _ hn hbound hbound'
                  · split
                    · exact ih _ _ _ _ hn hbound hbound'
                    · split
                      · have := length_dropWhile_le (· ≠ '\n') cs
                        exact ih _ _ _ _ (by omega) (by omega) (by omega)
                      · split
                        · rename_i hread
                          have := Lexeme.length_rest_lt hread
                          rw [List.length_cons] at this
                          exact congrArg (cons _) (ih _ _ _ _ (by omega) (by omega) (by omega))
                        · rfl

@[simp] theorem ofChars_nil (line : Nat) : ofChars line [] = ⟨[], .complete line⟩ := rfl

theorem ofChars_cons (line : Nat) (c : Char) (cs : List Char) :
    ofChars line (c :: cs) =
      if c = '\n' then ofChars (line + 1) cs
      else if Character.isBlank c then ofChars line cs
      else if c = '#' then ofChars line (cs.dropWhile (· ≠ '\n'))
      else
        match Lexeme.read c cs with
        | .lexeme kind content taken rest =>
          (ofChars (line + taken.count '\n') rest).cons ⟨kind, String.ofList content, line⟩
        | .malformed fault taken => ⟨[], .malformed fault line taken⟩ := by
  have hdrop := length_dropWhile_le (· ≠ '\n') cs
  conv => lhs; unfold ofChars rounds
  rw [rounds_eq_of_le (Nat.le_refl _), rounds_eq_of_le (Nat.le_refl _), rounds_eq_of_le hdrop]
  split
  · rfl
  · split
    · rfl
    · split
      · rfl
      · split
        · rename_i hread
          have := Lexeme.length_rest_lt hread
          rw [List.length_cons] at this
          rw [rounds_eq_of_le (by omega)]
        · rfl

end Scan

/-- The first malformed lexeme of a text.  The tokens before it are kept, and a last token of kind
`bad` holds the part of the text that was read as this lexeme. -/
structure ScanError where
  fault : Lexeme.Fault
  line : Nat
  tokens : List Token
deriving DecidableEq

def locate (message : String) (line : Nat) : String := message ++ " on line " ++ toString line

def ScanError.message (error : ScanError) : String := locate error.fault.message error.line

/-- The tokens of a text, of which the last one marks the end. -/
def scan (source : String) : Except ScanError (List Token) :=
  let found := Scan.ofChars 1 source.toList
  match found.ending with
  | .complete line => .ok (found.tokens ++ [⟨.eof, "", line⟩])
  | .malformed fault line taken =>
    .error ⟨fault, line, found.tokens ++ [⟨.bad, String.ofList taken, line⟩]⟩

end Script
