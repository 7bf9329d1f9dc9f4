import Script.Proofs.Grammar.Program
/-!
# Programs one after the other

A program without an error has all its statements closed, so it can be put in front of any list of
tokens.  The list is then read as it is read alone, also if it begins with a token that could go on
with an expression or an `if`.
-/

namespace Script

/-- The failure as it is found when there are more tokens in front of the program. -/
def ParseFailure.further (tokens : Nat) (failure : ParseFailure) : ParseFailure :=
  { failure with position := tokens + failure.position }

namespace Grammar

theorem suffix_of_statementsFrom {limit : Nat} {bound tokens rest : List Token} {fault : Fault}
    (h : (statementsFrom limit bound tokens).2 = some (fault, rest)) : rest <:+ tokens := by
  induction bound generalizing tokens with
  | nil => cases h
  | cons _ bound ih =>
      cases tokens with
      | nil => cases h
      | cons token others =>
          simp only [statementsFrom] at h
          cases hrun : statement limit (token :: others) with
          | ok node middle =>
              rw [hrun] at h
              exact (ih h).trans ((takes_statement limit).ok hrun).1
          | error found left =>
              simp only [hrun, Option.some.injEq, Prod.mk.injEq] at h
              exact h.2 ▸ (takes_statement limit).error hrun

/-- Statements that are read to the end of their tokens are read before what follows. -/
theorem statementsFrom_append {limit : Nat} {first : List Token}
    (accepted : (statementsFrom limit first first).2 = none) (second : List Token) :
    statementsFrom limit (first ++ second) (first ++ second) =
      ((statementsFrom limit first first).1 ++ (statementsFrom limit second second).1,
        (statementsFrom limit second second).2) := by
  obtain ⟨readable, rest, ⟨written, hspells, hfirst⟩, hend⟩ := statementsFrom_sound limit first
  rw [hend accepted, List.append_nil] at hfirst
  exact statementsFrom_of_spans readable ⟨written, hspells, by rw [← hfirst]⟩

end Grammar

open Grammar

/-- The statements of a program without an error are read first, and then what follows it is read as
it is read alone, with the same error on the same line. -/
theorem parse_append {first : List Token} (isOpen : ∀ token ∈ first, token.kind ≠ .eof)
    (accepted : (parse first).error? = none) (second : List Token) :
    (parse (first ++ second)).statements = (parse first).statements ++ (parse second).statements ∧
      (parse (first ++ second)).error? = (parse second).error? ∧
      (parse (first ++ second)).failure =
        (parse second).failure.map (ParseFailure.further first.length) := by
  have hbefore : beforeEnd first = first := beforeEnd_of_open isOpen
  have haccepted : (statementsFrom nestingLimit first first).2 = none := by
    simpa [parse, parseWithin, Parse.error?, hbefore] using accepted
  have hwhole := statementsFrom_append haccepted (beforeEnd second)
  have hfailure : (parse (first ++ second)).failure =
      (parse second).failure.map (ParseFailure.further first.length) := by
    simp only [parse, parseWithin, beforeEnd_append_of_open second isOpen, hwhole]
    cases hfound : (statementsFrom nestingLimit (beforeEnd second) (beforeEnd second)).2 with
    | none => rfl
    | some found =>
        obtain ⟨fault, rest⟩ := found
        have hrest := (suffix_of_statementsFrom hfound).length_le
        have nonempty : second ≠ [] := by
          rintro rfl
          cases hfound
        have hposition : (first ++ beforeEnd second).length - rest.length =
            first.length + ((beforeEnd second).length - rest.length) := by
          rw [List.length_append]
          omega
        simp only [Option.map_some, endLine_append isOpen nonempty, hposition]
        rfl
  refine ⟨?_, ?_, hfailure⟩
  · simp only [parse, parseWithin, beforeEnd_append_of_open second isOpen, hbefore, hwhole]
  · rw [Parse.error?, hfailure, Option.map_map]
    rfl

def closedIf : List Token :=
  [⟨.kwIf, "if", 1⟩, ⟨.identifier, "a", 1⟩, ⟨.kwThen, "then", 1⟩, ⟨.identifier, "b", 1⟩,
    ⟨.semicolon, ";", 1⟩, ⟨.kwEndIf, "endif", 2⟩]

/-- An `else` that follows begins a statement, with which the error is. -/
theorem parse_append_else :
    ((∀ token ∈ closedIf, token.kind ≠ .eof) ∧ (parse closedIf).error? = none) ∧
      (parse (closedIf ++ [⟨.kwElse, "else", 3⟩, ⟨.kwThen, "then", 3⟩])).statements =
        [.ifChain (.when (.identifier "a") [.identifier "b"] .done)] ∧
      (parse (closedIf ++ [⟨.kwElse, "else", 3⟩, ⟨.kwThen, "then", 3⟩])).error? =
        some ⟨.expected .expression, 3⟩ := by
  have isOpen : ∀ token ∈ closedIf, token.kind ≠ .eof := by decide
  have accepted : (parse closedIf).error? = none := by decide
  obtain ⟨hstatements, herror, -⟩ :=
    parse_append isOpen accepted [⟨.kwElse, "else", 3⟩, ⟨.kwThen, "then", 3⟩]
  exact ⟨⟨isOpen, accepted⟩, hstatements, herror⟩

end Script
