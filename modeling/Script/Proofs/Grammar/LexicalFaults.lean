import Script.Proofs.Grammar.FirstFault
import Script.Proofs.Grammar.Walk
import Script.Proofs.Token.Spacing
/-!
# Faults about lexemes

A reader complains about the lexeme of a token only where the token stands for an operand: a numeral
may write no integer of the language, and a character literal may be without a character.  Neither
comes from a text, since a text with such a literal is not turned into tokens in the first place.
-/

namespace Script

namespace Grammar

variable {α β : Type}

/-- Whether each fault about a lexeme that a reader meets is one of a single token. -/
def BlamesAt (reader : Reader α) (tokens : List Token) : Prop :=
  (∀ a rest, reader tokens = .ok a rest → rest ⊆ tokens) ∧
    ∀ fault rest, reader tokens = .error fault rest → fault.IsLexical →
      ∃ token ∈ tokens, operand token = .error fault

theorem BlamesAt.bind {first : Reader α} {next : α → Reader β} {tokens : List Token}
    (hfirst : BlamesAt first tokens)
    (hnext : ∀ a rest, first tokens = .ok a rest → BlamesAt (next a) rest) :
    BlamesAt (first >>= next) tokens := by
  constructor
  · intro b last hrun
    obtain ⟨a, rest, hrest, hlast⟩ := (Step.bind_eq_ok_iff _).1 hrun
    exact List.Subset.trans ((hnext a rest hrest).1 b last hlast) (hfirst.1 a rest hrest)
  · intro fault last hrun lexical
    rcases (Step.bind_eq_error_iff _).1 hrun with hrun | ⟨a, rest, hrest, hlast⟩
    · exact hfirst.2 fault last hrun lexical
    · obtain ⟨token, mem, hoperand⟩ := (hnext a rest hrest).2 fault last hlast lexical
      exact ⟨token, hfirst.1 a rest hrest mem, hoperand⟩

theorem blamesAt_expect {what : Expectation} (general : what ≠ .character) (kind : Kind)
    (tokens : List Token) : BlamesAt (expect kind what) tokens := by
  have hgeneral : ¬ (Fault.expected what).IsLexical := by
    cases what <;> simp_all [Fault.IsLexical]
  cases tokens with
  | nil =>
      refine ⟨by simp [expect], fun fault rest hrun lexical => ?_⟩
      cases hrun
      exact absurd lexical hgeneral
  | cons token others =>
      unfold BlamesAt expect
      by_cases hkind : token.kind = kind
      · simp [hkind]
      · simp only [if_neg hkind]
        refine ⟨by simp, fun fault rest hrun lexical => ?_⟩
        cases hrun
        exact absurd lexical hgeneral

theorem blamesAt_primary (tokens : List Token) : BlamesAt primary tokens := by
  cases tokens with
  | nil =>
      refine ⟨by simp [primary], fun fault rest hrun lexical => ?_⟩
      cases hrun
      exact lexical.elim
  | cons token others =>
      cases hoperand : operand token with
      | ok node =>
          have hread : primary (token :: others) = .ok node others := by simp [primary, hoperand]
          simp [BlamesAt, hread]
      | error found =>
          have hread : primary (token :: others) = .error found (token :: others) := by
            simp [primary, hoperand]
          rw [BlamesAt, hread]
          refine ⟨by simp, fun fault rest hrun _ => ⟨token, List.mem_cons_self, ?_⟩⟩
          cases hrun
          exact hoperand

theorem walk_blamesAt : Walk BlamesAt where
  pure a tokens := by simp [BlamesAt]
  fails general tokens := by
    refine ⟨by simp, fun fault rest hrun lexical => ?_⟩
    cases hrun
    exact absurd lexical general
  bind := .bind
  peek tokens := by simp [BlamesAt]
  advance _ := by
    refine ⟨fun a rest hrun => ?_, by simp⟩
    cases hrun
    exact (List.tail_suffix _).subset
  expect _ general := blamesAt_expect general _
  primary := blamesAt_primary
  choice _ hfirst hsecond := by
    unfold BlamesAt
    simp only [Step.get_bind]
    split
    · exact hfirst
    · exact hsecond

theorem exists_of_isLexical {tokens : List Token} {error : GrammarError}
    (failed : (parse tokens).error? = some error) (lexical : error.fault.IsLexical) :
    ∃ token ∈ beforeEnd tokens, operand token = .error error.fault := by
  have hblames := walk_blamesAt.body (takes_statement nestingLimit)
    (walk_blamesAt.statement nestingLimit) [] (beforeEnd tokens)
  rw [parse, error?_parseWithin] at failed
  cases hrun : body (statement nestingLimit) [] (beforeEnd tokens) with
  | ok nodes rest => simp [hrun] at failed
  | error fault rest =>
      simp only [hrun, Option.some.injEq] at failed
      subst failed
      exact hblames.2 fault rest hrun lexical

/-- The lexemes of a text are no reason why a token should not stand for an operand: only its kind
can be. -/
theorem not_isLexical_of_operand {token : Token} (lexical : token.item.IsLexical) {fault : Fault}
    (h : operand token = .error fault) : ¬ fault.IsLexical := by
  obtain ⟨kind, lexeme, line⟩ := token
  -- only literals of numbers and characters have a content that could be wrong
  have plain (mem : kind ∈ Kind.plainKinds) : ¬ fault.IsLexical := by
    obtain ⟨-, noCharacter, noInteger⟩ := Kind.ne_literal_of_mem mem
    unfold operand at h
    split at h
    · contradiction
    · cases h
    · contradiction
    · cases h
    · cases h
    · cases h
      exact id
  cases lexical with
  | word => exact plain (List.mem_append_left _ (List.mem_append_left _ (Kind.ofWord_mem _)))
  | pair known =>
      exact plain (List.mem_append_left _ (List.mem_append_right _ (Kind.mem_of_ofPair? known)))
  | symbol known => exact plain (List.mem_append_right _ (Kind.mem_of_ofSymbol? known))
  | text => cases h
  | character c =>
      have hread : operand ⟨.char, String.singleton c, line⟩ = .ok (.literal (.character c)) := by
        simp [operand]
      exact absurd (hread.symm.trans h) (by simp)
  | @integer digits nonempty all inRange =>
      have hall : digits.all Char.isDigit = true := List.all_eq_true.2 all
      have hnumeral : Integer.ofNumeral? digits ≠ none := by
        rw [ne_eq, Integer.ofNumeral?_eq_none_iff nonempty hall]
        omega
      obtain ⟨i, hi⟩ := Option.ne_none_iff_exists'.1 hnumeral
      have hread :
          operand ⟨.integer, String.ofList digits, line⟩ = .ok (.literal (.integer i)) := by
        simp [operand, hi]
      exact absurd (hread.symm.trans h) (by simp)

/-- No program in a text has a fault about a lexeme. -/
theorem not_isLexical_of_scan {source : String} {tokens : List Token}
    (hscan : scan source = .ok tokens) {error : GrammarError}
    (failed : (parse tokens).error? = some error) : ¬ error.fault.IsLexical := by
  intro lexical
  obtain ⟨found, hlayout, rfl⟩ := exists_layout_of_scan hscan
  obtain ⟨token, mem, hoperand⟩ := exists_of_isLexical failed lexical
  rw [beforeEnd_append_mark hlayout.isOpen rfl] at mem
  exact not_isLexical_of_operand (hlayout.isLexical token mem) hoperand lexical

end Grammar

end Script
