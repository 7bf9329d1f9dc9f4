import Script.Evaluation.Response
import Script.Proofs.Grammar.Source
import Script.Proofs.Token.Printed
/-!
# Printed values read back

The printed form of a value is itself an expression, and evaluating it gives the value back.  Two
values make an exception.  Nothing in the language writes the value `void`.  The least integer is
written as a sign before a numeral that is out of range on its own.
-/

namespace Script

open Lexeme Scan Evaluation

def Integer.least : Integer := ⟨-9223372036854775808, by decide, by decide⟩

def Integer.negate (i : Integer) (h : i ≠ least) : Integer where
  val := -i.val
  least_le := by have := i.le_greatest; omega
  le_greatest := by
    have := i.least_le
    have : i.val ≠ -9223372036854775808 := fun hval => h (Integer.ext hval)
    omega

theorem Integer.render_of_neg {i : Integer} (h : i.val < 0) (bounded : i ≠ least) :
    i.render = "-" ++ (i.negate bounded).render := by
  have hnonneg : 0 ≤ (i.negate bounded).val := Int.neg_nonneg_of_nonpos (Int.le_of_lt h)
  rw [← String.toList_inj, toList_render_of_neg h, String.toList_append,
    toList_render_of_nonneg hnonneg, Integer.negate]
  rfl

theorem Value.spellsValue_item {v : Value} (nonvoid : v ≠ void) :
    Token.SpellsValue ⟨v.item.1, v.item.2, 1⟩ v := by
  cases v with
  | void => exact absurd rfl nonvoid
  | integer i => exact ⟨rfl, Integer.ofNumeral?_render i⟩
  | text s => exact ⟨rfl, rfl⟩
  | character c => exact ⟨rfl, by simp [Value.item]⟩
  | boolean b => cases b <;> exact ⟨rfl, by decide⟩

theorem spells_semicolon : Spells [] ";".toList [(.semicolon, ";")] :=
  spells_symbol rfl (by decide) []

theorem readsAs_literal {v : Value} (unsigned : v.IsUnsigned) (nonvoid : v ≠ .void) :
    ReadsAs (v.render ++ ";") [.literal v] := by
  have hspells : Spells [] (v.render ++ ";").toList [v.item, (.semicolon, ";")] := by
    rw [String.toList_append]
    exact (v.spells_render unsigned (endsLexeme_cons (by decide) [])).cons spells_semicolon
  refine readsAs_of_spells hspells (List.forall_mem_singleton.2 ?_) ?_
  · exact ⟨.expression (.literal nonvoid), by simp [Node.depth, Node.nesting, Grammar.nestingLimit],
      by simp [Node.IsSeparated]⟩
  · exact .cons (Value.spellsValue_item nonvoid) (.cons rfl .nil)

theorem readsAs_negated {i : Integer} (h : 0 ≤ i.val) :
    ReadsAs ("-" ++ i.render ++ ";") [.unary .minus (.literal (.integer i))] := by
  have hnumeral : Spells (";".toList ++ []) i.render.toList [(Value.integer i).item] :=
    Value.spells_render (v := .integer i) h (endsLexeme_cons (by decide) [])
  have hspells : Spells [] ("-" ++ i.render ++ ";").toList
      [(.minus, "-"), (Value.integer i).item, (.semicolon, ";")] := by
    rw [String.toList_append, String.toList_append, List.append_assoc]
    exact (spells_symbol rfl (by decide) _).cons (hnumeral.cons spells_semicolon)
  refine readsAs_of_spells hspells (List.forall_mem_singleton.2 ?_) ?_
  · exact ⟨.expression (.unary (.literal (by simp))),
      by simp [Node.depth, Node.nesting, Grammar.nestingLimit], by simp [Node.IsSeparated]⟩
  · exact .cons rfl (.cons (Value.spellsValue_item (v := .integer i) (by simp)) (.cons rfl .nil))

theorem unary_minus_negate {i : Integer} (h : i ≠ .least) :
    unary .minus (.integer (i.negate h)) = .value (.integer i) := by
  have hback : Integer.ofInt? (-(i.negate h).val) = some i :=
    Integer.ofInt?_eq_some_iff.2 (Int.neg_neg i.val).symm
  rw [Evaluation.unary, ranged, hback]

theorem respond_negated (rounds : Nat) (log : Log) {i : Integer} (h : i ≠ .least) :
    ∃ after, respond rounds (.unary .minus (.literal (.integer (i.negate h)))) (.fresh log) =
      .ok ⟨[], .ok (.integer i)⟩ after := by
  simp [respond, attempt, eval, asValue_apply, Signal.toValue, unary_minus_negate h, settle,
    State.fresh]

/-- The printed form of a value, with a semicolon after it, is the text of a statement that is
answered with this value and nothing else, unless the value is `void` or the least integer. -/
theorem render_reads_back_iff (rounds : Nat) (log : Log) (v : Value) :
    (∃ node after, ReadsAs (v.render ++ ";") [node] ∧
      respond rounds node (.fresh log) = .ok ⟨[], .ok v⟩ after) ↔
      v ≠ .void ∧ v ≠ .integer .least := by
  constructor
  · rintro ⟨node, after, hreads, hresponse⟩
    constructor
    · rintro rfl
      have hvoid : ReadsAs "void;" [.identifier "void"] := ⟨_, rfl, rfl⟩
      have hnode := (List.cons.inj (hreads.unique hvoid)).1
      rw [hnode] at hresponse
      cases hresponse
    · rintro rfl
      obtain ⟨tokens, hscan, -⟩ := hreads
      have hrefused : (scan "-9223372036854775808;").toOption = none := by decide +kernel
      have hsource : (Value.integer .least).render ++ ";" = "-9223372036854775808;" := by
        decide +kernel
      rw [← hsource, hscan] at hrefused
      cases hrefused
  · rintro ⟨nonvoid, bounded⟩
    by_cases unsigned : v.IsUnsigned
    · exact ⟨.literal v, _, readsAs_literal unsigned nonvoid, rfl⟩
    · cases v with
      | integer i =>
          have hneg : i.val < 0 := Int.not_le.1 unsigned
          have hi : i ≠ .least := fun h => bounded (congrArg Value.integer h)
          have hreads := readsAs_negated (i := i.negate hi)
            (Int.neg_nonneg_of_nonpos (Int.le_of_lt hneg))
          rw [← Integer.render_of_neg hneg hi] at hreads
          obtain ⟨after, hresponse⟩ := respond_negated rounds log hi
          exact ⟨_, after, hreads, hresponse⟩
      | _ => exact absurd trivial unsigned

end Script
