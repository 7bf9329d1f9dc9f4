import Script.Evaluation.Response
import Script.Proofs.Grammar.Shape
/-!
# The meaning of expressions

An expression has a meaning apart from any state: the reports and the value or fault that it comes
to where its variables have given values.  Evaluating it comes to just that wherever these values
are visible, and changes nothing but the reports.
-/

namespace Script

open Evaluation (Response)

/-- A tree of literals, variables and operators, whichever operators are inside of which. -/
inductive Node.IsFormula : Node → Prop
  | literal (value : Value) : Node.IsFormula (.literal value)
  | identifier (name : String) : Node.IsFormula (.identifier name)
  | binary (op : BinaryOp) {left right : Node} (onLeft : left.IsFormula)
      (onRight : right.IsFormula) : Node.IsFormula (.binary op left right)
  | unary (op : UnaryOp) {operand : Node} (inner : operand.IsFormula) :
      Node.IsFormula (.unary op operand)
  | conditional {condition onTrue onFalse : Node} (ofCondition : condition.IsFormula)
      (ofTrue : onTrue.IsFormula) (ofFalse : onFalse.IsFormula) :
      Node.IsFormula (.conditional condition onTrue onFalse)

theorem Node.IsExpression.isFormula {level : Nat} {node : Node} (h : node.IsExpression level) :
    node.IsFormula := by
  induction h with
  | literal => exact .literal _
  | identifier => exact .identifier _
  | unary _ ih => exact .unary _ ih
  | binary _ _ _ ihLeft ihRight => exact .binary _ ihLeft ihRight
  | conditional _ _ _ _ ihCondition ihTrue ihFalse => exact .conditional ihCondition ihTrue ihFalse

def Node.variables : Node → List String
  | .identifier name => [name]
  | .binary _ left right => left.variables ++ right.variables
  | .unary _ operand => operand.variables
  | .conditional condition onTrue onFalse =>
    condition.variables ++ (onTrue.variables ++ onFalse.variables)
  | _ => []

namespace Evaluation

/-- Goes on with the value of a response, if it has one.  The reports before that are kept. -/
def Response.andThen (first : Response) (next : Value → Response) : Response :=
  match first.result with
  | .ok v => ⟨first.reports ++ (next v).reports, (next v).result⟩
  | .error _ => first

def Answer.response : Answer → Response
  | value v => ⟨[], .ok v⟩
  | mismatch m => ⟨[m], .ok (.boolean false)⟩
  | fault f => ⟨[], .error f⟩

end Evaluation

/-- What an expression comes to where `visible` tells the values of names.  An operator evaluates
all its operands, and a conditional only one of its branches. -/
def Node.meaning (visible : String → Option Value) : Node → Response
  | .literal v => ⟨[], .ok v⟩
  | .identifier name =>
    match visible name with
    | some v => ⟨[], .ok v⟩
    | none => ⟨[], .error (.undefined name)⟩
  | .binary op left right =>
    (left.meaning visible).andThen fun l =>
      (right.meaning visible).andThen fun r => (Evaluation.binary op l r).response
  | .unary op operand =>
    (operand.meaning visible).andThen fun v => (Evaluation.unary op v).response
  | .conditional condition onTrue onFalse =>
    (condition.meaning visible).andThen fun v =>
      match v.asBoolean? with
      | some true => onTrue.meaning visible
      | some false => onFalse.meaning visible
      | none => ⟨[.conditional v.ty], .ok (.boolean false)⟩
  | _ => ⟨[], .ok .void⟩

theorem Node.IsFormula.meaning_congr {node : Node} (h : node.IsFormula)
    {visible visible' : String → Option Value}
    (same : ∀ name ∈ node.variables, visible name = visible' name) :
    node.meaning visible = node.meaning visible' := by
  induction h with
  | literal v => rfl
  | identifier name => rw [Node.meaning, Node.meaning, same name (List.mem_singleton_self name)]
  | binary op _ _ ihLeft ihRight =>
      rw [Node.variables, List.forall_mem_append] at same
      rw [Node.meaning, Node.meaning, ihLeft same.1, ihRight same.2]
  | unary op _ ih => rw [Node.meaning, Node.meaning, ih same]
  | conditional _ _ _ ihCondition ihTrue ihFalse =>
      rw [Node.variables, List.forall_mem_append, List.forall_mem_append] at same
      obtain ⟨sameCondition, sameTrue, sameFalse⟩ := same
      rw [Node.meaning, Node.meaning, ihCondition sameCondition, ihTrue sameTrue,
        ihFalse sameFalse]

namespace Evaluation

def Response.ending (response : Response) (after : State) : EStateM.Result Stop State Signal :=
  match response.result with
  | .ok v => .ok (.value v) after
  | .error fault => .error (.fault fault) after

/-- Whether an evaluation from `state` ends with the given response and changes nothing else: its
reports are added to those before it, and scopes and functions stay as they are. -/
def ComesTo (evaluation : Eval Signal) (state : State) (response : Response) : Prop :=
  ∃ after, evaluation state = response.ending after ∧ after.scopes = state.scopes ∧
    after.functions = state.functions ∧
      after.reports.toList = state.reports.toList ++ response.reports

namespace ComesTo

variable {state : State}

theorem pure (v : Value) : ComesTo (pure (.value v)) state ⟨[], .ok v⟩ :=
  ⟨state, rfl, rfl, rfl, (List.append_nil _).symm⟩

theorem report (mismatch : Mismatch) :
    ComesTo (.value <$> report mismatch) state ⟨[mismatch], .ok (.boolean false)⟩ :=
  ⟨state.report mismatch, rfl, rfl, rfl, Array.toList_push⟩

theorem fail (fault : Fault) : ComesTo (.value <$> fail fault) state ⟨[], .error fault⟩ :=
  ⟨state, rfl, rfl, rfl, (List.append_nil _).symm⟩

theorem settle (answer : Answer) : ComesTo (.value <$> settle answer) state answer.response := by
  cases answer with
  | value v => exact pure v
  | mismatch mismatch => exact report mismatch
  | fault fault => exact fail fault

theorem variableValue (name : String) :
    ComesTo (.value <$> variableValue name) state
      ((Node.identifier name).meaning state.scopes.get?) := by
  unfold ComesTo Node.meaning
  rw [Step.map_apply, variableValue_apply]
  cases state.scopes.get? name with
  | some v => exact pure v
  | none => exact fail (.undefined name)

/-- An evaluation goes on with a value where the scopes are those from the beginning. -/
theorem bind {evaluation : Eval Signal} {next : Value → Eval Signal} {response : Response}
    {others : Value → Response} (first : ComesTo evaluation state response)
    (second : ∀ v after, after.scopes = state.scopes → ComesTo (next v) after (others v)) :
    ComesTo (asValue evaluation >>= next) state (response.andThen others) := by
  obtain ⟨reports, result⟩ := response
  obtain ⟨after, hrun, hscopes, hfunctions, hreports⟩ := first
  unfold ComesTo
  rw [Step.bind_apply, asValue_apply, hrun]
  cases result with
  | error fault => exact ⟨after, rfl, hscopes, hfunctions, hreports⟩
  | ok v =>
      obtain ⟨last, hrun', hscopes', hfunctions', hreports'⟩ := second v after hscopes
      have happended : last.reports.toList =
          state.reports.toList ++ (reports ++ (others v).reports) := by
        rw [hreports', hreports, List.append_assoc]
      exact ⟨last, hrun', hscopes'.trans hscopes, hfunctions'.trans hfunctions, happended⟩

/-- Asking for the value of a value is no step. -/
theorem map_asValue {evaluation : Eval Signal} {response : Response}
    (h : ComesTo evaluation state response) :
    ComesTo (.value <$> asValue evaluation) state response := by
  obtain ⟨after, hrun, hrest⟩ := h
  refine ⟨after, ?_, hrest⟩
  rw [Step.map_apply, asValue_apply, hrun]
  unfold Response.ending
  cases response.result with
  | ok v => rfl
  | error fault => rfl

end ComesTo

theorem comesTo_eval {node : Node} (h : node.IsFormula) (rounds : Nat) (state : State) :
    ComesTo (eval rounds node) state (node.meaning state.scopes.get?) := by
  induction h generalizing state with
  | literal v => exact .pure v
  | identifier name => exact .variableValue name
  | binary op _ _ ihLeft ihRight =>
      rw [eval, Node.meaning]
      apply ComesTo.bind (ihLeft state)
      intro l middle hmiddle
      rw [← hmiddle]
      apply ComesTo.bind (ihRight middle)
      intro r after _
      exact .settle _
  | unary op _ ih =>
      rw [eval, Node.meaning]
      apply ComesTo.bind (ih state)
      intro v after _
      exact .settle _
  | conditional _ _ _ ihCondition ihTrue ihFalse =>
      rw [eval, Node.meaning]
      apply ComesTo.bind (ihCondition state)
      intro v after hafter
      rw [← hafter]
      cases v.asBoolean? with
      | none => exact .report _
      | some b =>
          cases b with
          | true => exact .map_asValue (ihTrue after)
          | false => exact .map_asValue (ihFalse after)

/-- In two states that agree on the variables of an expression, whether these are bound and to which
values, evaluating the expression comes to the same response.  It ends within any number of rounds,
and in both states it changes nothing but that it adds the reports. -/
theorem eval_eq_of_get?_eq {node : Node} (formula : node.IsFormula) {state other : State}
    (same : ∀ name ∈ node.variables, state.scopes.get? name = other.scopes.get? name) :
    ∃ response : Response, ∀ rounds,
      ComesTo (eval rounds node) state response ∧ ComesTo (eval rounds node) other response := by
  refine ⟨node.meaning state.scopes.get?, fun rounds => ⟨comesTo_eval formula rounds state, ?_⟩⟩
  rw [formula.meaning_congr same]
  exact comesTo_eval formula rounds other

/-- A state in which a text hides a boolean from two frames further in. -/
def sheltered : State :=
  ⟨⟨.empty, [⟨[("s", .text "a")]⟩, ⟨[("s", .boolean true), ("n", .void)]⟩]⟩, [], #[],
    .empty .error⟩

def shallow : State :=
  ⟨⟨⟨[("t", .boolean true), ("s", .text "a")]⟩, []⟩, [⟨⟨"f", [], .void⟩, []⟩],
    #[.conditional .string], .empty .error⟩

def halfReported : Node :=
  .binary .equals (.binary (.arithmetic .add) (.identifier "s") (.unary .not (.identifier "s")))
    (.conditional (.literal (.boolean true)) (.identifier "missing") (.identifier "s"))

/-- The name that is bound in neither state is one of the names on which the states agree. -/
theorem eval_halfReported :
    halfReported.IsFormula ∧
      (∀ name ∈ halfReported.variables,
        sheltered.scopes.get? name = shallow.scopes.get? name) ∧
      ∃ response : Response, ∀ rounds, ComesTo (eval rounds halfReported) sheltered response ∧
        ComesTo (eval rounds halfReported) shallow response := by
  have s : (Node.identifier "s").IsFormula := .identifier "s"
  have formula : halfReported.IsFormula :=
    .binary _ (.binary _ s (.unary _ s)) (.conditional (.literal _) (.identifier _) s)
  have same : ∀ name ∈ halfReported.variables,
      sheltered.scopes.get? name = shallow.scopes.get? name := by decide
  exact ⟨formula, same, eval_eq_of_get?_eq formula same⟩

end Evaluation

end Script
