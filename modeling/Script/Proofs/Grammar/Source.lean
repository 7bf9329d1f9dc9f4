import Script.Proofs.Grammar.Program
import Script.Proofs.Token.Pieces
/-!
# Programs in texts

The program that a text holds is found through its tokens, of which only kind and lexeme matter.
Texts below each other hold their programs one after the other.
-/

namespace Script

open Grammar

def ReadsAs (source : String) (program : List Node) : Prop :=
  ∃ tokens, scan source = .ok tokens ∧ parse tokens = ⟨program, none⟩

theorem ReadsAs.unique {source : String} {program program' : List Node}
    (h : ReadsAs source program) (h' : ReadsAs source program') : program = program' := by
  obtain ⟨tokens, hscan, hparse⟩ := h
  obtain ⟨tokens', hscan', hparse'⟩ := h'
  rw [hscan, Except.ok.injEq] at hscan'
  rw [← hscan', hparse, Parse.mk.injEq] at hparse'
  exact hparse'.1

/-- Whether a token can come from a text. -/
def Token.IsLexeme (token : Token) : Prop :=
  ∃ spelling, Lexeme.IsLexeme spelling token.kind token.lexeme.toList

namespace Scan

theorem Layout.isLexeme {rest before consumed : List Char} {tokens : List Token}
    (h : Layout rest before consumed tokens) : ∀ token ∈ tokens, token.IsLexeme := by
  intro token mem
  obtain ⟨spelling, following, begins⟩ := h.exists_begins token mem
  exact ⟨spelling, begins.lexeme⟩

end Scan

theorem exists_eq_append_of_scan {source : String} {tokens : List Token}
    (h : scan source = .ok tokens) : ∃ found mark, tokens = found ++ [mark] ∧
      mark.kind = .eof ∧ ∀ token ∈ found, token.IsLexeme := by
  obtain ⟨found, hlayout, rfl⟩ := exists_layout_of_scan h
  exact ⟨found, _, rfl, rfl, hlayout.isLexeme⟩

theorem beforeEnd_concat {found : List Token} {mark : Token} (hmark : mark.kind = .eof)
    (isLexeme : ∀ token ∈ found, token.IsLexeme) : beforeEnd (found ++ [mark]) = found := by
  have isOpen : ∀ token ∈ found, token.kind ≠ .eof := by
    intro token mem
    obtain ⟨spelling, h⟩ := isLexeme token mem
    exact h.kind_ne_eof
  exact beforeEnd_append_mark isOpen hmark []

/-- Spelling does not depend on lines. -/
theorem Token.spells_iff_of_item {token other : Token} (h : token.item = other.item)
    (terminal : Terminal) : token.Spells terminal ↔ other.Spells terminal := by
  obtain ⟨hkind, hlexeme⟩ := Prod.mk.inj h
  cases terminal with
  | mark kind => rw [Token.Spells, Token.Spells, hkind]
  | identifier name => rw [Token.Spells, Token.Spells, hkind, hlexeme]
  | typeName ty => rw [Token.Spells, Token.Spells, hkind, hlexeme]
  | literal value =>
      cases value <;> simp only [Token.Spells, Token.SpellsValue, hkind, hlexeme]

theorem readsAs_iff {source : String} {program : List Node} :
    ReadsAs source program ↔ ∃ found mark, scan source = .ok (found ++ [mark]) ∧
      (∀ node ∈ program, node.IsReadable (nestingLimit + 1)) ∧
        List.Forall₂ Token.Spells found (spellBody program) := by
  constructor
  · rintro ⟨tokens, hscan, hparse⟩
    obtain ⟨found, mark, rfl, hmark, isLexeme⟩ := exists_eq_append_of_scan hscan
    obtain ⟨readable, written, hspells, hwritten⟩ := parseWithin_eq_iff.1 hparse
    rw [beforeEnd_concat hmark isLexeme, List.append_nil] at hwritten
    exact ⟨found, mark, hscan, readable, hwritten ▸ hspells⟩
  · rintro ⟨found, mark, hscan, readable, hspells⟩
    obtain ⟨found', mark', heq, hmark, isLexeme⟩ := exists_eq_append_of_scan hscan
    obtain ⟨rfl, hlast⟩ := List.append_inj' heq rfl
    obtain ⟨rfl, -⟩ := List.cons.inj hlast
    refine ⟨_, hscan, parseWithin_eq_iff.2 ⟨readable, found, hspells, ?_⟩⟩
    rw [beforeEnd_concat hmark isLexeme, List.append_nil]

/-- A text holds a program if its lexemes spell the program, on whichever lines they stand. -/
theorem readsAs_of_spells {source : String} {items : List Item} {program : List Node}
    (h : Scan.Spells [] source.toList items)
    (readable : ∀ node ∈ program, node.IsReadable (nestingLimit + 1))
    (hspells : List.Forall₂ (fun item => Token.Spells ⟨item.1, item.2, 1⟩) items
      (spellBody program)) : ReadsAs source program := by
  obtain ⟨tokens, hscan, hitems⟩ := exists_scan_of_spells h
  obtain ⟨found, marks, rfl, rfl, hmarks⟩ := List.map_eq_append_iff.1 hitems
  obtain ⟨mark, others, rfl, -, hothers⟩ := List.map_eq_cons_iff.1 hmarks
  rw [List.map_eq_nil_iff] at hothers
  subst hothers
  refine readsAs_iff.2 ⟨found, mark, hscan, readable, ?_⟩
  refine (List.forall₂_map_left_iff.1 hspells).imp fun token terminal hspell => ?_
  exact (Token.spells_iff_of_item rfl terminal).1 hspell

theorem spellBody_append (first second : List Node) :
    spellBody (first ++ second) = spellBody first ++ spellBody second := by
  induction first with
  | nil => rfl
  | cons node others ih =>
      rw [List.cons_append, spellBody, spellBody, ih, List.append_assoc (node.spelling ++ _)]

/-- The program of two texts below each other is that of the first one and then that of the second
one. -/
theorem ReadsAs.append {first second : String} {program program' : List Node}
    (hfirst : ReadsAs first program) (hsecond : ReadsAs second program') :
    ReadsAs (first ++ "\n" ++ second) (program ++ program') := by
  obtain ⟨found, mark, hscan, readable, hspells⟩ := readsAs_iff.1 hfirst
  obtain ⟨found', mark', hscan', readable', hspells'⟩ := readsAs_iff.1 hsecond
  have hwhole := scan_append_newline hscan hscan'
  rw [List.dropLast_concat, List.map_append, ← List.append_assoc] at hwhole
  refine readsAs_iff.2 ⟨_, _, hwhole, List.forall_mem_append.2 ⟨readable, readable'⟩, ?_⟩
  rw [spellBody_append]
  refine List.rel_append hspells (List.forall₂_map_left_iff.2 (hspells'.imp ?_))
  intro token terminal hspell
  exact (Token.spells_iff_of_item (Token.item_lower _ token) terminal).2 hspell

end Script
