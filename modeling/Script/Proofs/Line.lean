import Script.Proofs.Character
import Script.Proofs.Evaluation.Evolution
import Script.Proofs.Token.Printed
/-!
# Texts on one line

Whatever a program computes, its answers are written on lines of their own.  In a printed value a
line break is spelled with a backslash, and the names that a message mentions are words.
-/

namespace Script

def IsLine (text : String) : Prop := '\n' ∉ text.toList

instance : DecidablePred IsLine := fun text => inferInstanceAs (Decidable ('\n' ∉ text.toList))

theorem IsLine.append {first second : String} (hfirst : IsLine first) (hsecond : IsLine second) :
    IsLine (first ++ second) := by
  unfold IsLine
  rw [String.toList_append, List.mem_append, not_or]
  exact ⟨hfirst, hsecond⟩

theorem isLine_of_isLexeme {spelling : List Char} {name : String}
    (h : Lexeme.IsLexeme spelling .identifier name.toList) : IsLine name := by
  unfold IsLine
  rw [h.content_eq (by decide) (by decide)]
  exact h.newline_not_mem (by decide)

theorem BinaryOp.isLine_symbol (op : BinaryOp) : IsLine op.symbol := by
  cases op with
  | arithmetic op => cases op <;> decide
  | order op => cases op <;> decide
  | equals | notEquals | and | or => decide

theorem UnaryOp.isLine_symbol (op : UnaryOp) : IsLine op.symbol := by
  cases op <;> decide

theorem Ty.isLine_name (ty : Ty) : IsLine ty.name := by
  cases ty <;> decide

theorem newline_not_mem_toDigits (n : Nat) : '\n' ∉ Nat.toDigits 10 n := by
  intro mem
  exact absurd (Integer.isDigit_toDigits n _ mem) (by decide)

theorem Integer.isLine_render (i : Integer) : IsLine i.render := by
  unfold IsLine
  by_cases h : 0 ≤ i.val
  · rw [toList_render_of_nonneg h]
    exact newline_not_mem_toDigits _
  · rw [toList_render_of_neg (Int.not_le.1 h), List.mem_cons, not_or]
    exact ⟨by decide, newline_not_mem_toDigits _⟩

theorem Value.isLine_render (v : Value) : IsLine v.render := by
  cases v with
  | integer i => exact i.isLine_render
  | text s =>
      unfold IsLine
      rw [Value.render, String.toList_ofList]
      exact Quoted.newline_not_mem_encode (.inl rfl) _
  | character c =>
      unfold IsLine
      rw [Value.render, String.toList_ofList]
      exact Quoted.newline_not_mem_encode (.inr rfl) _
  | boolean b => cases b <;> decide
  | void => decide

namespace Evaluation

theorem Mismatch.isLine_message {mismatch : Mismatch} (h : mismatch.MentionsOnly IsLine) :
    IsLine mismatch.message := by
  have hoperator : IsLine "type mismatch: cannot apply operator '" := by decide +kernel
  have hto : IsLine "' to " := by decide +kernel
  cases mismatch with
  | operands op left right =>
      have hleft := ((hoperator.append op.isLine_symbol).append hto).append left.isLine_name
      have hand : IsLine " and " := by decide +kernel
      exact (hleft.append hand).append right.isLine_name
  | booleanOperand op =>
      have hbooleans : IsLine "' to boolean values" := by decide +kernel
      exact (hoperator.append op.isLine_symbol).append hbooleans
  | operand op found =>
      exact ((hoperator.append op.isLine_symbol).append hto).append found.isLine_name
  | conditional found =>
      have hconditional : IsLine
          "type mismatch: conditional expression requires a boolean condition, found " := by
        decide +kernel
      exact hconditional.append found.isLine_name
  | condition construct found =>
      have hmismatch : IsLine "type mismatch: '" := by decide +kernel
      have hword : IsLine construct.word := by cases construct <;> decide +kernel
      have hcondition : IsLine "' condition must be boolean, found " := by decide +kernel
      exact ((hmismatch.append hword).append hcondition).append found.isLine_name
  | initial name declared found =>
      have hinitial : IsLine "type mismatch: cannot initialize '" := by decide +kernel
      have htype : IsLine "' of type " := by decide +kernel
      have hwith : IsLine " with " := by decide +kernel
      have hdeclared := ((hinitial.append h).append htype).append declared.isLine_name
      exact (hdeclared.append hwith).append found.isLine_name

theorem Overflow.isLine_render (computation : Overflow) : IsLine computation.render := by
  have hblank : IsLine " " := by decide +kernel
  have hminus : IsLine "-" := by decide +kernel
  cases computation with
  | binary op left right =>
      have hsymbol : IsLine op.symbol := (BinaryOp.arithmetic op).isLine_symbol
      have hleft := (left.isLine_render.append hblank).append hsymbol
      exact (hleft.append hblank).append right.isLine_render
  | negation operand => exact hminus.append operand.isLine_render

theorem Fault.isLine_message {fault : Fault} (h : fault.MentionsOnly IsLine) :
    IsLine fault.message := by
  cases fault with
  | redeclared name =>
      have hquote : IsLine "'" := by decide +kernel
      have hdeclared : IsLine "' is already declared in this scope" := by decide +kernel
      exact (hquote.append h).append hdeclared
  | undefined name =>
      have hundefined : IsLine "undefined variable '" := by decide +kernel
      have hquote : IsLine "'" := by decide +kernel
      exact (hundefined.append h).append hquote
  | mismatch m => exact Mismatch.isLine_message h
  | divisionByZero => decide +kernel
  | overflow computation =>
      have hoverflows : IsLine " overflows" := by decide +kernel
      exact computation.isLine_render.append hoverflows
  | jumpOutsideLoop jump => cases jump <;> decide +kernel
  | returnOutsideFunction => decide +kernel

theorem Response.isLine_of_mem_lines {response : Response} (h : response.MentionsOnly IsLine) :
    ∀ line ∈ response.lines, IsLine line := by
  have herror : IsLine "error: " := by decide +kernel
  unfold lines
  rw [List.forall_mem_append, List.forall_mem_map, List.forall_mem_singleton]
  constructor
  · intro mismatch mem
    exact herror.append (Mismatch.isLine_message (h.reports mismatch mem))
  · cases hresult : response.result with
    | ok v => exact v.isLine_render
    | error fault => exact herror.append (Fault.isLine_message (h.result fault hresult))

end Evaluation

end Script
