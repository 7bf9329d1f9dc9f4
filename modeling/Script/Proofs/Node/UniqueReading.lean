import Script.Proofs.Node.Items
/-!
# Unique reading

The textual form of a statement tells which statement it is, except that a declaration without an
ascription looks like an assignment.  The reason is that a form is told by its first two lexemes,
and that each part of a statement ends where a lexeme follows that cannot go on with it.
-/

namespace Script

open Grammar

mutual

/-- The tree with an assignment in place of each declaration without an ascription. -/
def Node.withoutLet : Node → Node
  | .declaration name none initial => .assignment name initial.withoutLet
  | .declaration name (some ty) initial => .declaration name (some ty) initial.withoutLet
  | .assignment name value => .assignment name value.withoutLet
  | .binary op left right => .binary op left.withoutLet right.withoutLet
  | .unary op operand => .unary op operand.withoutLet
  | .conditional condition onTrue onFalse =>
    .conditional condition.withoutLet onTrue.withoutLet onFalse.withoutLet
  | .ifChain chain => .ifChain chain.withoutLet
  | .whileLoop condition body => .whileLoop condition.withoutLet (bodyWithoutLet body)
  | .function signature body => .function signature (bodyWithoutLet body)
  | .returnValue value => .returnValue value.withoutLet
  | .literal value => .literal value
  | .identifier name => .identifier name
  | .breakLoop => .breakLoop
  | .nextRound => .nextRound
  | .malformed => .malformed
  | .endOfInput => .endOfInput

def Chain.withoutLet : Chain → Chain
  | .done => .done
  | .when condition body others =>
    .when condition.withoutLet (bodyWithoutLet body) others.withoutLet
  | .always body others => .always (bodyWithoutLet body) others.withoutLet

def bodyWithoutLet : List Node → List Node
  | [] => []
  | statement :: rest => statement.withoutLet :: bodyWithoutLet rest

end

theorem bodyWithoutLet_isEmpty (body : List Node) :
    (bodyWithoutLet body).isEmpty = body.isEmpty := by
  cases body <;> rfl

theorem Chain.lead_withoutLet (links : Chain) : links.withoutLet.lead = links.lead := by
  cases links <;> rfl

mutual

/-- The textual form does not show whether a variable is declared or assigned. -/
theorem Node.render_withoutLet (node : Node) : node.withoutLet.render = node.render := by
  cases node with
  | declaration name ascription initial =>
      cases ascription <;> simp only [Node.withoutLet, Node.render, initial.render_withoutLet]
  | assignment name value => simp only [Node.withoutLet, Node.render, value.render_withoutLet]
  | binary op left right =>
      simp only [Node.withoutLet, Node.render, left.render_withoutLet, right.render_withoutLet]
  | unary op operand =>
      cases op <;> simp only [Node.withoutLet, Node.render, operand.render_withoutLet]
  | conditional condition onTrue onFalse =>
      simp only [Node.withoutLet, Node.render, condition.render_withoutLet,
        onTrue.render_withoutLet, onFalse.render_withoutLet]
  | ifChain chain => simp only [Node.withoutLet, Node.render, chain.render_withoutLet]
  | whileLoop condition body =>
      simp only [Node.withoutLet, Node.render, condition.render_withoutLet,
        render_bodyWithoutLet body]
  | function signature body =>
      simp only [Node.withoutLet, Node.render, render_bodyWithoutLet body]
  | returnValue value => simp only [Node.withoutLet, Node.render, value.render_withoutLet]
  | literal value => rfl
  | identifier name => rfl
  | breakLoop => rfl
  | nextRound => rfl
  | malformed => rfl
  | endOfInput => rfl

theorem Chain.render_withoutLet (links : Chain) : links.withoutLet.render = links.render := by
  cases links with
  | done => rfl
  | when condition body others =>
      simp only [Chain.withoutLet, Chain.render, condition.render_withoutLet,
        render_bodyWithoutLet body, others.lead_withoutLet, others.render_withoutLet]
  | always body others =>
      simp only [Chain.withoutLet, Chain.render, render_bodyWithoutLet body,
        others.lead_withoutLet, others.render_withoutLet]

theorem render_bodyWithoutLet (body : List Node) :
    renderBody (bodyWithoutLet body) = renderBody body := by
  cases body with
  | nil => rfl
  | cons statement rest =>
      simp only [bodyWithoutLet, renderBody, bodyWithoutLet_isEmpty, statement.render_withoutLet,
        render_bodyWithoutLet rest]

end

theorem Node.IsExpression.withoutLet_eq {level : Nat} {node : Node}
    (shape : node.IsExpression level) : node.withoutLet = node := by
  induction shape with
  | literal => rfl
  | identifier => rfl
  | unary _ ih => rw [Node.withoutLet, ih]
  | binary _ _ _ ihLeft ihRight => rw [Node.withoutLet, ihLeft, ihRight]
  | conditional _ _ _ _ ihCondition ihTrue ihFalse =>
      rw [Node.withoutLet, ihCondition, ihTrue, ihFalse]

/-! ### Operators, types and values -/

theorem BinaryOp.eq_of_kind_eq {op op' : BinaryOp} (h : op.kind = op'.kind) : op = op' := by
  have hop := binaryOp?_eq_some_iff.2 (rfl : op.kind = op.kind)
  rw [h, binaryOp?_eq_some_iff.2 rfl, Option.some.injEq] at hop
  exact hop.symm

theorem UnaryOp.eq_of_kind_eq {op op' : UnaryOp} (h : op.kind = op'.kind) : op = op' := by
  have hop := unaryOp?_eq_some_iff.2 (rfl : op.kind = op.kind)
  rw [h, unaryOp?_eq_some_iff.2 rfl, Option.some.injEq] at hop
  exact hop.symm

theorem Ty.eq_of_name_eq {ty ty' : Ty} (h : ty.name = ty'.name) : ty = ty' := by
  have hty := Ty.ofName_name ty
  rw [h, Ty.ofName_name, Except.ok.injEq] at hty
  exact hty.symm

theorem Integer.eq_of_render_eq {i j : Integer} (h : i.render = j.render) : i = j := by
  have hi := Integer.ofNumeral?_render i
  rw [h, Integer.ofNumeral?_render, Option.some.injEq] at hi
  exact hi.symm

theorem Value.eq_of_item_eq {v w : Value} (h : v.item = w.item) : v = w := by
  obtain ⟨hkind, hlexeme⟩ := Prod.mk.inj h
  cases v with
  | integer i =>
      cases w with
      | integer j => exact congrArg Value.integer (Integer.eq_of_render_eq hlexeme)
      | _ => cases hkind
  | text s =>
      cases w with
      | text t => exact congrArg Value.text hlexeme
      | _ => cases hkind
  | character c =>
      cases w with
      | character d => exact congrArg Value.character (String.singleton_inj.1 hlexeme)
      | _ => cases hkind
  | boolean b =>
      cases w with
      | boolean d => revert hlexeme; cases b <;> cases d <;> decide
      | _ => cases hkind
  | void =>
      cases w with
      | void => rfl
      | _ => cases hkind

def leadKinds : List Kind := [.leftParen, .integer, .string, .char, .boolean, .identifier]

theorem Value.item_fst_mem (v : Value) : v.item.1 ∈ leadKinds.tail := by
  cases v <;> simp [Value.item, leadKinds]

theorem Value.item_ne_leftParen (v : Value) (text : String) : v.item ≠ (.leftParen, text) := by
  cases v <;> simp [Value.item]

theorem Value.item_ne_identifier {v : Value} (nonvoid : v ≠ void) (name : String) :
    v.item ≠ (.identifier, name) := by
  cases v with
  | void => exact absurd rfl nonvoid
  | _ => simp [Value.item]

theorem UnaryOp.kind_not_mem_leadKinds (op : UnaryOp) : op.kind ∉ leadKinds := by
  cases op <;> decide

theorem BinaryOp.kind_ne_kwThen (op : BinaryOp) : op.kind ≠ .kwThen := by
  unfold BinaryOp.kind
  split <;> decide

theorem Node.items_unary_append (op : UnaryOp) (operand : Node) (rest : List Item) :
    (Node.unary op operand).items ++ rest =
      (.leftParen, "(") :: (op.kind, op.symbol) ::
        (operand.items ++ (.rightParen, ")") :: rest) := by
  simp [Node.items]

theorem Node.items_binary_append (op : BinaryOp) (left right : Node) (rest : List Item) :
    (Node.binary op left right).items ++ rest =
      (.leftParen, "(") :: (left.items ++ (op.kind, op.symbol) :: (right.items ++
        (.rightParen, ")") :: rest)) := by
  simp [Node.items]

theorem Node.items_conditional_append (condition onTrue onFalse : Node) (rest : List Item) :
    (Node.conditional condition onTrue onFalse).items ++ rest =
      (.leftParen, "(") :: (condition.items ++ (.kwThen, "then") :: (onTrue.items ++
        (.kwElse, "else") :: (onFalse.items ++ (.rightParen, ")") :: rest))) := by
  simp [Node.items]

namespace Node.IsExpression

theorem exists_items_cons {level : Nat} {node : Node} (shape : node.IsExpression level) :
    ∃ item others, node.items = item :: others ∧ item.1 ∈ leadKinds := by
  cases shape with
  | @literal _ v => exact ⟨_, _, rfl, List.mem_of_mem_tail v.item_fst_mem⟩
  | identifier => exact ⟨_, _, rfl, by simp [leadKinds]⟩
  | unary => exact ⟨_, _, rfl, by simp [leadKinds]⟩
  | binary => exact ⟨_, _, rfl, by simp [leadKinds]⟩
  | conditional => exact ⟨_, _, rfl, by simp [leadKinds]⟩

theorem items_append_ne {level : Nat} {node : Node} (shape : node.IsExpression level) {kind : Kind}
    (h : kind ∉ leadKinds) (text : String) (rest others : List Item) :
    node.items ++ rest ≠ (kind, text) :: others := by
  obtain ⟨first, following, hitems, hmem⟩ := shape.exists_items_cons
  rw [hitems]
  intro heq
  rw [(List.cons.inj heq).1] at hmem
  exact h hmem

/-- An expression can be read off the front of a text in one way only. -/
theorem items_append_inj {level level' : Nat} {node node' : Node} {rest rest' : List Item}
    (shape : node.IsExpression level) (shape' : node'.IsExpression level')
    (h : node.items ++ rest = node'.items ++ rest') : node = node' ∧ rest = rest' := by
  -- Expressions of different forms differ in the first lexeme or in the one behind the parenthesis.
  -- Only an operator between operands and a conditional differ later, behind the first part.
  induction shape generalizing level' node' rest rest' with
  | @literal _ v nonvoid =>
      cases shape' with
      | literal =>
          obtain ⟨hitem, hrest⟩ := List.cons.inj h
          exact ⟨congrArg Node.literal (Value.eq_of_item_eq hitem), hrest⟩
      | identifier => exact absurd (List.cons.inj h).1 (v.item_ne_identifier nonvoid _)
      | unary => exact absurd (List.cons.inj h).1 (v.item_ne_leftParen _)
      | binary => exact absurd (List.cons.inj h).1 (v.item_ne_leftParen _)
      | conditional => exact absurd (List.cons.inj h).1 (v.item_ne_leftParen _)
  | identifier =>
      cases shape' with
      | @literal _ v nonvoid =>
          exact absurd (List.cons.inj h).1.symm (v.item_ne_identifier nonvoid _)
      | identifier =>
          obtain ⟨hitem, hrest⟩ := List.cons.inj h
          exact ⟨congrArg Node.identifier (Prod.mk.inj hitem).2, hrest⟩
      | _ => cases (List.cons.inj h).1
  | @unary _ op operand inner ih =>
      rw [items_unary_append] at h
      cases shape' with
      | @literal _ v => exact absurd (List.cons.inj h).1.symm (v.item_ne_leftParen _)
      | identifier => cases (List.cons.inj h).1
      | unary inner' =>
          rw [items_unary_append] at h
          obtain ⟨hop, hoperand⟩ := List.cons.inj (List.cons.inj h).2
          obtain ⟨rfl, hrest⟩ := ih inner' hoperand
          rw [UnaryOp.eq_of_kind_eq (Prod.mk.inj hop).1]
          exact ⟨rfl, (List.cons.inj hrest).2⟩
      | binary _ onLeft' =>
          rw [items_binary_append] at h
          have hlead := onLeft'.items_append_ne op.kind_not_mem_leadKinds op.symbol
          exact absurd (List.cons.inj h).2.symm (hlead _ _)
      | conditional _ ofCondition' =>
          rw [items_conditional_append] at h
          have hlead := ofCondition'.items_append_ne op.kind_not_mem_leadKinds op.symbol
          exact absurd (List.cons.inj h).2.symm (hlead _ _)
  | @binary _ op _ _ _ onLeft onRight ihLeft ihRight =>
      rw [items_binary_append] at h
      cases shape' with
      | @literal _ v => exact absurd (List.cons.inj h).1.symm (v.item_ne_leftParen _)
      | identifier => cases (List.cons.inj h).1
      | @unary _ op' _ inner' =>
          rw [items_unary_append] at h
          have hlead := onLeft.items_append_ne op'.kind_not_mem_leadKinds op'.symbol
          exact absurd (List.cons.inj h).2 (hlead _ _)
      | binary _ onLeft' onRight' =>
          rw [items_binary_append] at h
          obtain ⟨rfl, hinside⟩ := ihLeft onLeft' (List.cons.inj h).2
          obtain ⟨hop, hright⟩ := List.cons.inj hinside
          obtain ⟨rfl, hrest⟩ := ihRight onRight' hright
          rw [BinaryOp.eq_of_kind_eq (Prod.mk.inj hop).1]
          exact ⟨rfl, (List.cons.inj hrest).2⟩
      | conditional _ ofCondition' =>
          rw [items_conditional_append] at h
          have hthen := (List.cons.inj (ihLeft ofCondition' (List.cons.inj h).2).2).1
          exact absurd (Prod.mk.inj hthen).1 op.kind_ne_kwThen
  | conditional _ ofCondition ofTrue ofFalse ihCondition ihTrue ihFalse =>
      rw [items_conditional_append] at h
      cases shape' with
      | @literal _ v => exact absurd (List.cons.inj h).1.symm (v.item_ne_leftParen _)
      | identifier => cases (List.cons.inj h).1
      | @unary _ op' _ inner' =>
          rw [items_unary_append] at h
          have hlead := ofCondition.items_append_ne op'.kind_not_mem_leadKinds op'.symbol
          exact absurd (List.cons.inj h).2 (hlead _ _)
      | @binary _ op' _ _ _ onLeft' onRight' =>
          rw [items_binary_append] at h
          have hthen := (List.cons.inj (ihCondition onLeft' (List.cons.inj h).2).2).1
          exact absurd (Prod.mk.inj hthen).1.symm op'.kind_ne_kwThen
      | conditional _ ofCondition' ofTrue' ofFalse' =>
          rw [items_conditional_append] at h
          obtain ⟨rfl, hthen⟩ := ihCondition ofCondition' (List.cons.inj h).2
          obtain ⟨rfl, helse⟩ := ihTrue ofTrue' (List.cons.inj hthen).2
          obtain ⟨rfl, hrest⟩ := ihFalse ofFalse' (List.cons.inj helse).2
          exact ⟨rfl, (List.cons.inj hrest).2⟩

end Node.IsExpression

/-! ### Statements -/

theorem Parameter.items_append_inj {parameter parameter' : Parameter} {rest rest' : List Item}
    (h : parameter.items ++ rest = parameter'.items ++ rest') :
    parameter = parameter' ∧ rest = rest' := by
  simp only [Parameter.items, List.cons_append, List.nil_append, List.cons.injEq, Prod.mk.injEq,
    true_and] at h
  obtain ⟨hname, hty, hrest⟩ := h
  cases parameter
  cases parameter'
  rw [Parameter.mk.injEq]
  exact ⟨⟨hname, Ty.eq_of_name_eq hty⟩, hrest⟩

theorem itemsOfParameters_append_inj {parameters parameters' : List Parameter}
    {rest rest' : List Item}
    (h : itemsOfParameters parameters ++ (.rightParen, ")") :: rest =
      itemsOfParameters parameters' ++ (.rightParen, ")") :: rest') :
    parameters = parameters' ∧ rest = rest' := by
  induction parameters generalizing parameters' with
  | nil =>
      rcases parameters' with _ | ⟨first', _ | ⟨second', others'⟩⟩
      · exact ⟨rfl, (List.cons.inj h).2⟩
      · cases (List.cons.inj h).1
      · cases (List.cons.inj h).1
  | cons first others ih =>
      cases others with
      | nil =>
          rcases parameters' with _ | ⟨first', _ | ⟨second', others'⟩⟩
          · cases (List.cons.inj h).1
          · obtain ⟨rfl, hrest⟩ := Parameter.items_append_inj h
            exact ⟨rfl, (List.cons.inj hrest).2⟩
          · rw [itemsOfParameters, itemsOfParameters, List.append_assoc] at h
            cases (List.cons.inj (Parameter.items_append_inj h).2).1
      | cons second others =>
          rcases parameters' with _ | ⟨first', _ | ⟨second', others'⟩⟩
          · cases (List.cons.inj h).1
          · rw [itemsOfParameters, itemsOfParameters, List.append_assoc] at h
            cases (List.cons.inj (Parameter.items_append_inj h).2).1
          · rw [itemsOfParameters, itemsOfParameters, List.append_assoc, List.append_assoc] at h
            obtain ⟨rfl, hothers⟩ := Parameter.items_append_inj h
            obtain ⟨heq, hrest⟩ := ih (List.cons.inj hothers).2
            rw [heq]
            exact ⟨rfl, hrest⟩

theorem Signature.items_append_inj {signature signature' : Signature} {rest rest' : List Item}
    (h : signature.items ++ rest = signature'.items ++ rest') :
    signature = signature' ∧ rest = rest' := by
  simp only [Signature.items, List.cons_append, List.append_assoc, List.nil_append,
    List.cons.injEq, Prod.mk.injEq, true_and] at h
  obtain ⟨hname, h⟩ := h
  obtain ⟨hparameters, hresult⟩ := itemsOfParameters_append_inj h
  simp only [List.cons.injEq, Prod.mk.injEq, true_and] at hresult
  cases signature
  cases signature'
  rw [Signature.mk.injEq]
  exact ⟨⟨hname, hparameters, Ty.eq_of_name_eq hresult.1⟩, hresult.2⟩

/-- What tells the form of a statement: the word that it begins with, or else the mark after the
identifier that it begins with, or else that it is an expression. -/
def Node.form : Node → Option Kind
  | declaration _ (some _) _ => some .colon
  | declaration _ none _ => some .assign
  | assignment _ _ => some .assign
  | ifChain _ => some .kwIf
  | whileLoop _ _ => some .kwWhile
  | breakLoop => some .kwBreak
  | nextRound => some .kwNext
  | function _ _ => some .kwDef
  | returnValue _ => some .kwReturn
  | _ => none

def formOf : List Item → Option Kind
  | (.identifier, _) :: (kind, _) :: _ => if kind = .colon ∨ kind = .assign then some kind else none
  | (kind, _) :: _ => if kind ∈ leadKinds then none else some kind
  | [] => none

def closingKinds : List Kind := [.kwEnd, .kwEndIf, .kwElseIf, .kwElse]

/-- Whether lexemes begin in a way in which a statement cannot go on. -/
def EndsStatement (rest : List Item) : Prop :=
  ∀ item ∈ rest.head?, item.1 ∈ .semicolon :: closingKinds

theorem endsStatement_nil : EndsStatement [] := by
  simp [EndsStatement]

theorem Node.IsExpression.formOf_items {level : Nat} {node : Node} (shape : node.IsExpression level)
    {rest : List Item} (ends : EndsStatement rest) : formOf (node.items ++ rest) = none := by
  cases shape with
  | @literal _ v nonvoid =>
      cases v with
      | void => exact absurd rfl nonvoid
      | _ => rfl
  | identifier =>
      cases rest with
      | nil => rfl
      | cons item others =>
          have hkinds : ∀ kind ∈ .semicolon :: closingKinds,
              ¬ (kind = .colon ∨ kind = .assign) := by decide
          exact if_neg (hkinds _ (ends item rfl))
  | unary => rfl
  | binary => rfl
  | conditional => rfl

theorem Node.IsExpression.form_eq_none {level : Nat} {node : Node}
    (shape : node.IsExpression level) : node.form = none := by
  cases shape <;> rfl

theorem Node.IsStatement.formOf_items {node : Node} (shape : node.IsStatement)
    {rest : List Item} (ends : EndsStatement rest) : formOf (node.items ++ rest) = node.form := by
  cases shape with
  | @declaration _ ascribed _ _ => cases ascribed <;> rfl
  | expression value => rw [value.formOf_items ends, value.form_eq_none]
  | _ => rfl

def Node.Fits (node : Node) : Option Kind → Prop
  | none => node.IsExpression conditionalLevel
  | some .assign => ∃ name value, value.IsExpression conditionalLevel ∧
    node.items = (.identifier, name) :: (.assign, "=") :: value.items ∧
      node.withoutLet = .assignment name value
  | some .colon => ∃ name ty value, value.IsExpression conditionalLevel ∧
    node = .declaration name (some ty) value
  | some .kwIf => ∃ links : Chain, links.IsIf ∧ node = .ifChain links
  | some .kwWhile => ∃ condition body, condition.IsExpression conditionalLevel ∧
    (∀ node ∈ body, node.IsStatement) ∧ node = .whileLoop condition body
  | some .kwDef => ∃ signature body, (∀ node ∈ body, node.IsStatement) ∧
    node = .function signature body
  | some .kwReturn => ∃ value, value.IsExpression conditionalLevel ∧ node = .returnValue value
  | some .kwBreak => node = .breakLoop
  | some .kwNext => node = .nextRound
  | _ => False

theorem Node.IsStatement.fits {node : Node} (shape : node.IsStatement) : node.Fits node.form := by
  cases shape with
  | @declaration name ascribed initial value =>
      cases ascribed with
      | none => exact ⟨name, initial, value, rfl, by rw [Node.withoutLet, value.withoutLet_eq]⟩
      | some ty => exact ⟨name, ty, initial, value, rfl⟩
  | assignment value => exact ⟨_, _, value, rfl, by rw [Node.withoutLet, value.withoutLet_eq]⟩
  | ifChain links => exact ⟨_, links, rfl⟩
  | whileLoop head statements => exact ⟨_, _, head, statements, rfl⟩
  | breakLoop => rfl
  | nextRound => rfl
  | function statements => exact ⟨_, _, statements, rfl⟩
  | returnValue value => exact ⟨_, value, rfl⟩
  | expression value =>
      rw [value.form_eq_none]
      exact value

theorem Node.Fits.assignment_append_inj {node : Node} (fits : node.Fits (some .assign))
    {name : String} {assigned : Node} (value : assigned.IsExpression conditionalLevel)
    {rest rest' : List Item}
    (h : (.identifier, name) :: (.assign, "=") :: (assigned.items ++ rest) = node.items ++ rest') :
    .assignment name assigned = node.withoutLet ∧ rest = rest' := by
  obtain ⟨name', assigned', value', hitems, hnode⟩ := fits
  simp only [hitems, List.cons_append, List.cons.injEq, Prod.mk.injEq, true_and] at h
  obtain ⟨rfl, hvalue⟩ := h
  obtain ⟨rfl, hrest⟩ := value.items_append_inj value' hvalue
  exact ⟨hnode.symm, hrest⟩

theorem Node.IsStatement.exists_items_cons {node : Node} (shape : node.IsStatement) :
    ∃ item others, node.items = item :: others ∧ item.1 ∉ closingKinds := by
  cases shape with
  | @declaration _ ascribed _ _ => cases ascribed <;> exact ⟨_, _, rfl, by simp [closingKinds]⟩
  | expression value =>
      obtain ⟨item, others, hitems, hmem⟩ := value.exists_items_cons
      have hlead : ∀ kind ∈ leadKinds, kind ∉ closingKinds := by decide
      exact ⟨item, others, hitems, hlead _ hmem⟩
  | _ => exact ⟨_, _, rfl, by simp [closingKinds]⟩

def ClosesBody (rest : List Item) : Prop := ∃ item ∈ rest.head?, item.1 ∈ closingKinds

theorem ClosesBody.endsStatement {rest : List Item} (h : ClosesBody rest) : EndsStatement rest := by
  obtain ⟨item, hitem, hmem⟩ := h
  intro other hother
  rw [Option.mem_unique hother hitem]
  exact List.mem_cons_of_mem _ hmem

theorem closesBody_leadItem (links : Chain) (rest : List Item) :
    ClosesBody (links.leadItem :: rest) := by
  refine ⟨links.leadItem, rfl, ?_⟩
  cases links <;> simp [Chain.leadItem, closingKinds]

theorem closesBody_end (rest : List Item) : ClosesBody ((.kwEnd, "end") :: rest) :=
  ⟨(.kwEnd, "end"), rfl, by decide⟩

theorem endsStatement_others {others : List Node} {rest : List Item} (closes : ClosesBody rest) :
    EndsStatement ((if others.isEmpty then [] else [(.semicolon, ";")]) ++
      (itemsOfBody others ++ rest)) := by
  cases others with
  | nil => exact closes.endsStatement
  | cons second others =>
      rintro item ⟨⟩
      exact List.mem_cons_self ..

theorem ClosesBody.ne_itemsOfBody {rest : List Item} (h : ClosesBody rest) {first : Node}
    (shape : first.IsStatement) (others : List Node) (following : List Item) :
    rest ≠ itemsOfBody (first :: others) ++ following := by
  rintro rfl
  obtain ⟨item, more, hitems, hnot⟩ := shape.exists_items_cons
  obtain ⟨lead, hlead, hmem⟩ := h
  rw [itemsOfBody, hitems] at hlead
  cases hlead
  exact hnot hmem

/-- Where one body goes on after a statement, the other one does too. -/
theorem append_eq_of_separated {others others' : List Node} {rest rest' : List Item}
    (closes : ClosesBody rest) (closes' : ClosesBody rest')
    (h : (if others.isEmpty then [] else [(.semicolon, ";")]) ++ (itemsOfBody others ++ rest) =
      (if others'.isEmpty then [] else [(.semicolon, ";")]) ++ (itemsOfBody others' ++ rest')) :
    itemsOfBody others ++ rest = itemsOfBody others' ++ rest' := by
  have hsemicolon : ∀ {rest following : List Item}, ClosesBody rest →
      rest ≠ (.semicolon, ";") :: following := by
    rintro _ following ⟨item, hitem, hmem⟩ rfl
    cases hitem
    exact absurd hmem (by decide)
  cases others with
  | nil =>
      cases others' with
      | nil => exact h
      | cons => exact absurd h (hsemicolon closes)
  | cons =>
      cases others' with
      | nil => exact absurd h.symm (hsemicolon closes')
      | cons => exact (List.cons.inj h).2

theorem Chain.IsIf.when_cases {condition : Node} {body : List Node} {others : Chain}
    (h : (Chain.when condition body others).IsIf) :
    condition.IsExpression BinaryOp.loosest ∧ (∀ node ∈ body, node.IsStatement) ∧
      (others = .done ∨ (∃ final, (∀ node ∈ final, node.IsStatement) ∧
        others = .always final .done) ∨ others.IsIf) := by
  cases h with
  | last head statements => exact ⟨head, statements, .inl rfl⟩
  | otherwise head statements finals => exact ⟨head, statements, .inr (.inl ⟨_, finals, rfl⟩)⟩
  | link head statements links => exact ⟨head, statements, .inr (.inr links)⟩

theorem Chain.IsIf.leadItem_eq {links : Chain} (h : links.IsIf) :
    links.leadItem = (.kwElseIf, "elseif") := by
  obtain ⟨condition, body, others, rfl⟩ := h.exists_when
  rfl

mutual

theorem statement_append_inj (node node' : Node) (shape : node.IsStatement)
    (shape' : node'.IsStatement) {rest rest' : List Item} (ends : EndsStatement rest)
    (ends' : EndsStatement rest') (h : node.items ++ rest = node'.items ++ rest') :
    node.withoutLet = node'.withoutLet ∧ rest = rest' := by
  -- The first lexemes tell the form of the other statement.
  have fits := shape'.fits
  rw [← shape'.formOf_items ends', ← h, shape.formOf_items ends] at fits
  cases shape with
  | @declaration name ascribed initial value =>
      cases ascribed with
      | none =>
          rw [Node.withoutLet, value.withoutLet_eq]
          exact fits.assignment_append_inj value h
      | some ty =>
          obtain ⟨name', ty', initial', value', rfl⟩ := fits
          simp only [Node.items, List.cons_append, List.cons.injEq, Prod.mk.injEq, true_and] at h
          obtain ⟨rfl, hrest⟩ := value.items_append_inj value' h.2.2
          rw [h.1, Ty.eq_of_name_eq h.2.1]
          exact ⟨rfl, hrest⟩
  | assignment value =>
      rw [Node.withoutLet, value.withoutLet_eq]
      exact fits.assignment_append_inj value h
  | @ifChain links hlinks =>
      obtain ⟨links', hlinks', rfl⟩ := fits
      obtain ⟨heq, hrest⟩ := chain_append_inj links links' hlinks hlinks' (List.cons.inj h).2
      rw [Node.withoutLet, Node.withoutLet, heq]
      exact ⟨rfl, hrest⟩
  | @whileLoop condition content head statements =>
      obtain ⟨condition', content', head', statements', rfl⟩ := fits
      simp only [Node.items, List.cons_append, List.append_assoc, List.cons.injEq, true_and] at h
      obtain ⟨rfl, hbody⟩ := head.items_append_inj head' h
      obtain ⟨heq, hrest⟩ := body_append_inj content content' statements statements'
        (closesBody_end rest) (closesBody_end rest') hbody
      rw [Node.withoutLet, Node.withoutLet, heq]
      exact ⟨rfl, (List.cons.inj hrest).2⟩
  | breakLoop =>
      obtain rfl := fits
      exact ⟨rfl, (List.cons.inj h).2⟩
  | nextRound =>
      obtain rfl := fits
      exact ⟨rfl, (List.cons.inj h).2⟩
  | @function signature content statements =>
      obtain ⟨signature', content', statements', rfl⟩ := fits
      simp only [Node.items, List.cons_append, List.append_assoc, List.cons.injEq, true_and] at h
      obtain ⟨rfl, hbody⟩ := Signature.items_append_inj h
      obtain ⟨heq, hrest⟩ := body_append_inj content content' statements statements'
        (closesBody_end rest) (closesBody_end rest') hbody
      rw [Node.withoutLet, Node.withoutLet, heq]
      exact ⟨rfl, (List.cons.inj hrest).2⟩
  | returnValue value =>
      obtain ⟨returned', value', rfl⟩ := fits
      obtain ⟨rfl, hrest⟩ := value.items_append_inj value' (List.cons.inj h).2
      exact ⟨rfl, hrest⟩
  | expression value =>
      rw [value.form_eq_none] at fits
      rw [value.withoutLet_eq, fits.withoutLet_eq]
      exact value.items_append_inj fits h

theorem chain_append_inj (links links' : Chain) (shape : links.IsIf) (shape' : links'.IsIf)
    {rest rest' : List Item} (h : links.items ++ rest = links'.items ++ rest') :
    links.withoutLet = links'.withoutLet ∧ rest = rest' := by
  obtain ⟨condition', content', others', rfl⟩ := shape'.exists_when
  obtain ⟨head', statements', htail'⟩ := shape'.when_cases
  cases links with
  | done => cases shape
  | always => cases shape
  | when condition content others =>
      obtain ⟨head, statements, htail⟩ := shape.when_cases
      simp only [Chain.items, List.cons_append, List.append_assoc] at h
      obtain ⟨rfl, hbody⟩ := head.items_append_inj head' h
      obtain ⟨heq, hlead⟩ := body_append_inj content content' statements statements'
        (closesBody_leadItem others _) (closesBody_leadItem others' _) (List.cons.inj hbody).2
      obtain ⟨hlead, hothers⟩ := List.cons.inj hlead
      suffices hsuffices : others.withoutLet = others'.withoutLet ∧ rest = rest' by
        rw [Chain.withoutLet, Chain.withoutLet, heq, hsuffices.1]
        exact ⟨rfl, hsuffices.2⟩
      -- `hlead` compares the lexemes between the links, and these tell what kind of links follow
      rcases htail with rfl | ⟨final, finals, rfl⟩ | hlinks
      · rcases htail' with rfl | ⟨final', finals', rfl⟩ | hlinks'
        · exact ⟨rfl, hothers⟩
        · cases hlead
        · rw [hlinks'.leadItem_eq] at hlead
          cases hlead
      · rcases htail' with rfl | ⟨final', finals', rfl⟩ | hlinks'
        · cases hlead
        · simp only [Chain.items, List.cons_append, List.append_assoc, List.cons.injEq,
            true_and] at hothers
          obtain ⟨hfinal, hrest⟩ := body_append_inj final final' finals finals'
            (closesBody_leadItem .done _) (closesBody_leadItem .done _) hothers
          rw [Chain.withoutLet, Chain.withoutLet, hfinal]
          exact ⟨rfl, (List.cons.inj hrest).2⟩
        · rw [hlinks'.leadItem_eq] at hlead
          cases hlead
      · rw [hlinks.leadItem_eq] at hlead
        rcases htail' with rfl | ⟨final', finals', rfl⟩ | hlinks'
        · cases hlead
        · cases hlead
        · exact chain_append_inj others others' hlinks hlinks' hothers

theorem body_append_inj (body body' : List Node) (shape : ∀ node ∈ body, node.IsStatement)
    (shape' : ∀ node ∈ body', node.IsStatement) {rest rest' : List Item} (closes : ClosesBody rest)
    (closes' : ClosesBody rest') (h : itemsOfBody body ++ rest = itemsOfBody body' ++ rest') :
    bodyWithoutLet body = bodyWithoutLet body' ∧ rest = rest' := by
  -- what follows a body begins no statement, so the two bodies end together
  cases body with
  | nil =>
      cases body' with
      | nil => exact ⟨rfl, h⟩
      | cons first' others' =>
          have hfirst' := (List.forall_mem_cons.1 shape').1
          exact absurd h (closes.ne_itemsOfBody hfirst' others' rest')
  | cons first others =>
      obtain ⟨hfirst, shapes⟩ := List.forall_mem_cons.1 shape
      cases body' with
      | nil => exact absurd h.symm (closes'.ne_itemsOfBody hfirst others rest)
      | cons first' others' =>
          obtain ⟨hfirst', shapes'⟩ := List.forall_mem_cons.1 shape'
          rw [itemsOfBody, itemsOfBody, List.append_assoc, List.append_assoc, List.append_assoc,
            List.append_assoc] at h
          obtain ⟨heq, hothers⟩ := statement_append_inj first first' hfirst hfirst'
            (endsStatement_others closes) (endsStatement_others closes') h
          obtain ⟨hbody, hrest⟩ := body_append_inj others others' shapes shapes' closes closes'
            (append_eq_of_separated closes closes' hothers)
          rw [bodyWithoutLet, bodyWithoutLet, heq, hbody]
          exact ⟨rfl, hrest⟩

end

/-- The textual forms of two statements that are read from texts are the same exactly if the
statements are, up to the word that turns an assignment into a declaration. -/
theorem render_eq_iff_withoutLet_eq {source source' : String} {tokens tokens' : List Token}
    (hscan : scan source = .ok tokens) (hscan' : scan source' = .ok tokens') {node node' : Node}
    (mem : node ∈ (parse tokens).statements) (mem' : node' ∈ (parse tokens').statements) :
    node.render = node'.render ↔ node.withoutLet = node'.withoutLet := by
  obtain ⟨shape, found, hfound, hitems⟩ := exists_scan_render hscan mem
  obtain ⟨shape', found', hfound', hitems'⟩ := exists_scan_render hscan' mem'
  constructor
  · intro h
    rw [h, hfound', Except.ok.injEq] at hfound
    rw [← hfound, hitems'] at hitems
    have heq : node.items ++ [] = node'.items ++ [] := by
      rw [List.append_cancel_right hitems]
    exact (statement_append_inj node node' shape shape' endsStatement_nil endsStatement_nil heq).1
  · intro h
    rw [← node.render_withoutLet, h, node'.render_withoutLet]

/-- A declaration has the textual form of an assignment. -/
theorem render_declaration_eq :
    (Node.declaration "x" none (.identifier "y")).render =
      (Node.assignment "x" (.identifier "y")).render := by
  have hscan : scan "let x = y;" = .ok [⟨.kwLet, "let", 1⟩, ⟨.identifier, "x", 1⟩,
      ⟨.assign, "=", 1⟩, ⟨.identifier, "y", 1⟩, ⟨.semicolon, ";", 1⟩, ⟨.eof, "", 1⟩] := rfl
  have hscan' : scan "x=y;" = .ok [⟨.identifier, "x", 1⟩, ⟨.assign, "=", 1⟩,
      ⟨.identifier, "y", 1⟩, ⟨.semicolon, ";", 1⟩, ⟨.eof, "", 1⟩] := rfl
  exact (render_eq_iff_withoutLet_eq hscan hscan' (List.mem_singleton_self _)
    (List.mem_singleton_self _)).2 rfl

end Script
