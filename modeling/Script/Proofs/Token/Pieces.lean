import Script.Proofs.Token.Layout
/-!
# Texts in pieces

The layout of a text is made up of the layouts of its pieces, each judged with the text that follows
it present.  Lines are counted from the beginning of the text, so a piece has the same tokens
wherever it stands, only further below.
-/

namespace Script

def Token.lower (lines : Nat) (token : Token) : Token := { token with line := token.line + lines }

abbrev Item := Kind × String

/-- What a token is, wherever it stands. -/
def Token.item (token : Token) : Item := (token.kind, token.lexeme)

@[simp] theorem Token.item_lower (lines : Nat) (token : Token) :
    (token.lower lines).item = token.item := rfl

namespace Scan

theorem IsGap.append {following piece gap : List Char} (h : IsGap (gap ++ following) piece)
    (hgap : IsGap following gap) : IsGap following (piece ++ gap) := by
  induction h with
  | nil => exact hgap
  | blank isBlank _ ih => exact .blank isBlank ih
  | @comment words others sameLine ends _ ih =>
      rw [List.cons_append, List.append_assoc]
      refine .comment sameLine ?_ ih
      rwa [List.append_assoc]

theorem Layout.append {rest before first second : List Char} {tokens tokens' : List Token}
    (hfirst : Layout (second ++ rest) before first tokens)
    (hsecond : Layout rest (before ++ first) second tokens') :
    Layout rest before (first ++ second) (tokens ++ tokens') := by
  induction hfirst with
  | done isGap =>
      refine hsecond.prepend fun hsplit hgap => ?_
      rw [← hsplit] at isGap
      exact isGap.append hgap
  | @token before gap spelling others content kind tokens isGap begins _ ih =>
      rw [← List.append_assoc others] at isGap begins
      rw [List.append_assoc, List.append_assoc]
      refine .token isGap begins (ih ?_)
      simpa only [List.append_assoc] using hsecond

theorem Layout.lower {rest before consumed : List Char} {tokens : List Token}
    (h : Layout rest before consumed tokens) (above : List Char) :
    Layout rest (above ++ before) consumed (tokens.map (Token.lower (above.count '\n'))) := by
  induction h with
  | done isGap => exact .done isGap
  | @token before gap spelling others content kind tokens isGap begins _ ih =>
      have hline : lineAfter (above ++ before ++ gap) =
          lineAfter (before ++ gap) + above.count '\n' := by
        simp only [lineAfter, List.count_append]
        omega
      rw [← List.append_assoc above] at ih
      have hlayout := Layout.token isGap begins ih
      rwa [hline] at hlayout

/-- A line break separates two layouts, of which the second one begins on a line further below. -/
theorem Layout.append_newline {rest first consumed : List Char} {tokens tokens' : List Token}
    (hfirst : Layout [] [] first tokens) (hsecond : Layout rest [] consumed tokens') :
    Layout rest [] (first ++ '\n' :: consumed)
      (tokens ++ tokens'.map (Token.lower (first.count '\n' + 1))) := by
  have hcount : (first ++ ['\n']).count '\n' = first.count '\n' + 1 := by
    rw [List.count_append, List.count_singleton_self]
  have hlower := hsecond.lower (first ++ ['\n'])
  rw [List.append_nil, hcount] at hlower
  have hbreak : Layout (consumed ++ rest) first ['\n'] [] := .done (.blank (by decide) .nil)
  have hbelow : Layout rest ([] ++ first) ('\n' :: consumed) _ := hbreak.append hlower
  exact (hfirst.of_head? (by simp)).append hbelow

theorem lineAfter_append_newline (first consumed : List Char) :
    lineAfter (first ++ '\n' :: consumed) = lineAfter consumed + (first.count '\n' + 1) := by
  rw [lineAfter_append, List.count_cons_self, lineAfter, lineAfter]
  omega

/-- The text `text`, with the text `rest` after it, is made of gaps and of lexemes with the given
kinds and contents, whatever stands before it. -/
def Spells (rest text : List Char) (items : List Item) : Prop :=
  ∀ before, ∃ tokens, Layout rest before text tokens ∧ tokens.map Token.item = items

theorem spells_nil (rest : List Char) : Spells rest [] [] :=
  fun _ => ⟨[], .done .nil, rfl⟩

theorem spells_lexeme {rest spelling content : List Char} {kind : Kind}
    (h : Lexeme.Begins spelling rest kind content) :
    Spells rest spelling [(kind, String.ofList content)] := by
  intro before
  have hlayout : Layout rest before ([] ++ (spelling ++ [])) _ := .token .nil h (.done .nil)
  rw [List.nil_append, List.append_nil] at hlayout
  exact ⟨_, hlayout, rfl⟩

theorem Spells.append {rest first second : List Char} {items items' : List Item}
    (hfirst : Spells (second ++ rest) first items) (hsecond : Spells rest second items') :
    Spells rest (first ++ second) (items ++ items') := by
  intro before
  obtain ⟨tokens, hlayout, rfl⟩ := hfirst before
  obtain ⟨tokens', hlayout', rfl⟩ := hsecond (before ++ first)
  exact ⟨tokens ++ tokens', hlayout.append hlayout', List.map_append⟩

theorem Spells.cons {rest first second : List Char} {item : Item} {items : List Item}
    (hfirst : Spells (second ++ rest) first [item]) (hsecond : Spells rest second items) :
    Spells rest (first ++ second) (item :: items) :=
  hfirst.append hsecond

theorem Spells.blank {rest text : List Char} {items : List Item} (h : Spells rest text items) :
    Spells rest (" ".toList ++ text) items := by
  have hblank : Spells (text ++ rest) [' '] [] :=
    fun _ => ⟨[], .done (.blank (by decide) .nil), rfl⟩
  exact hblank.append h

theorem spells_word {rest : List Char} {word : String} {kind : Kind}
    (h : Lexeme.IsLexeme word.toList kind word.toList) (noNumber : kind ≠ .integer)
    (ends : Lexeme.EndsLexeme rest) : Spells rest word.toList [(kind, word)] := by
  have hspells := spells_lexeme (Lexeme.begins_of_endsLexeme h noNumber ends)
  rwa [String.ofList_toList] at hspells

theorem spells_symbol {c : Char} {kind : Kind} (known : Kind.ofSymbol? c = some kind)
    (single : c ∉ Lexeme.pairStarts) (rest : List Char) :
    Spells rest [c] [(kind, String.ofList [c])] :=
  spells_lexeme (Lexeme.begins_symbol known single rest)

end Scan

open Scan

theorem exists_scan_of_spells {source : String} {items : List Item}
    (h : Spells [] source.toList items) :
    ∃ tokens, scan source = .ok tokens ∧ tokens.map Token.item = items ++ [(.eof, "")] := by
  obtain ⟨tokens, hlayout, rfl⟩ := h []
  exact ⟨_, scan_of_layout hlayout, by rw [List.map_append]; rfl⟩

/-- After a line break scanning begins afresh, further below. -/
theorem scan_append_newline {first second : String} {tokens tokens' : List Token}
    (hfirst : scan first = .ok tokens) (hsecond : scan second = .ok tokens') :
    scan (first ++ "\n" ++ second) =
      .ok (tokens.dropLast ++ tokens'.map (Token.lower (first.toList.count '\n' + 1))) := by
  obtain ⟨found, hlayout, rfl⟩ := exists_layout_of_scan hfirst
  obtain ⟨found', hlayout', rfl⟩ := exists_layout_of_scan hsecond
  have htext : (first ++ "\n" ++ second).toList = first.toList ++ '\n' :: second.toList := by simp
  have hwhole := hlayout.append_newline hlayout'
  rw [← htext] at hwhole
  rw [scan_of_layout hwhole, htext, lineAfter_append_newline, List.dropLast_concat,
    List.map_append, List.append_assoc]
  rfl

/-- What is scanned below a text is scanned as it is alone, only further below: the tokens of both
texts come one after the other, and the second text is malformed where it is malformed alone. -/
theorem scan_append_line {first : String} {tokens : List Token} (hfirst : scan first = .ok tokens)
    (second : String) :
    scan (first ++ "\n" ++ second) =
      match scan second with
      | .ok below =>
        .ok (tokens.filter (·.kind ≠ .eof) ++
          below.map (Token.lower (first.toList.count '\n' + 1)))
      | .error error =>
        .error ⟨error.fault, error.line + (first.toList.count '\n' + 1),
          tokens.filter (·.kind ≠ .eof) ++
            error.tokens.map (Token.lower (first.toList.count '\n' + 1))⟩ := by
  obtain ⟨found, hlayout, htokens⟩ := exists_layout_of_scan hfirst
  have hkept : tokens.filter (·.kind ≠ .eof) = found := by
    rw [htokens, List.filter_append, List.filter_cons_of_neg (by simp), List.filter_nil,
      List.append_nil, List.filter_eq_self]
    simpa using hlayout.isOpen
  rw [hkept]
  obtain ⟨consumed, rest, below, hsplit, hlayout', hend⟩ := exists_layout second.toList []
  rcases hend with rfl | ⟨fault, taken, hmalformed⟩
  · rw [List.append_nil] at hsplit
    rw [← hsplit] at hlayout'
    rw [scan_append_newline hfirst (scan_of_layout hlayout'), scan_of_layout hlayout', htokens,
      List.dropLast_concat]
  · have hwhole := hlayout.append_newline hlayout'
    have htext : (first ++ "\n" ++ second).toList =
        (first.toList ++ '\n' :: consumed) ++ rest := by
      simp [hsplit]
    rw [scan_of_isMalformed htext hwhole hmalformed, scan_of_isMalformed hsplit hlayout' hmalformed]
    simp only [lineAfter_append_newline, List.map_append, List.append_assoc, List.map_singleton,
      Token.lower]

/-- The breaks inside a literal and at the end of a comment count for the text below. -/
theorem scan_append_line_malformed :
    scan "s = \"a\nb\"; # it's" = .ok [⟨.identifier, "s", 1⟩, ⟨.assign, "=", 1⟩,
      ⟨.string, "a\nb", 1⟩, ⟨.semicolon, ";", 2⟩, ⟨.eof, "", 2⟩] ∧
    scan ("s = \"a\nb\"; # it's" ++ "\n" ++ "\nx = 'y") =
      .error ⟨.unterminatedCharacter, 4, [⟨.identifier, "s", 1⟩, ⟨.assign, "=", 1⟩,
        ⟨.string, "a\nb", 1⟩, ⟨.semicolon, ";", 2⟩, ⟨.identifier, "x", 4⟩, ⟨.assign, "=", 4⟩,
        ⟨.bad, "'y", 4⟩]⟩ := by
  have hfirst : scan "s = \"a\nb\"; # it's" = .ok [⟨.identifier, "s", 1⟩, ⟨.assign, "=", 1⟩,
      ⟨.string, "a\nb", 1⟩, ⟨.semicolon, ";", 2⟩, ⟨.eof, "", 2⟩] := by
    decide +kernel
  have hsecond : scan "\nx = 'y" = .error ⟨.unterminatedCharacter, 2, [⟨.identifier, "x", 2⟩,
      ⟨.assign, "=", 2⟩, ⟨.bad, "'y", 2⟩]⟩ := rfl
  have hwhole := scan_append_line hfirst "\nx = 'y"
  rw [hsecond] at hwhole
  exact ⟨hfirst, hwhole⟩

end Script
