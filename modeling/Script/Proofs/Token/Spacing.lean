import Script.Proofs.Token.Printed
/-!
# Tokens with space between them

How tokens are spaced does not matter.  Tokens that are spelled one after the other, with blanks or
comments in between, are found again, each on the line that the space in front of it leads to.
-/

namespace Script

open Lexeme Scan

/-- The items that stand in texts: words, numbers that are in range, literals of any content, and
symbols. -/
inductive Item.IsLexical : Item → Prop
  | word {c : Char} {cs : List Char} (start : startsWord c = true)
      (continued : ∀ d ∈ cs, continuesWord d = true) :
      IsLexical (Kind.ofWord (String.ofList (c :: cs)), String.ofList (c :: cs))
  | integer {digits : List Char} (nonempty : digits ≠ [])
      (all : ∀ d ∈ digits, d.isDigit = true)
      (inRange : Integer.digitsValue digits ≤ 9223372036854775807) :
      IsLexical (.integer, String.ofList digits)
  | text (content : String) : IsLexical (.string, content)
  | character (c : Char) : IsLexical (.char, String.singleton c)
  | pair {c d : Char} {kind : Kind} (known : Kind.ofPair? c d = some kind) :
      IsLexical (kind, String.ofList [c, d])
  | symbol {c : Char} {kind : Kind} (known : Kind.ofSymbol? c = some kind) :
      IsLexical (kind, String.ofList [c])

/-- The spelling of an item: its lexeme, or the printed value if it is a literal with quotes. -/
def Item.spelling : Item → List Char
  | (.string, content) => (Value.text content).render.toList
  | (.char, content) => content.toList.flatMap fun c => (Value.character c).render.toList
  | (_, lexeme) => lexeme.toList

inductive IsSpace : List Char → Prop
  | nil : IsSpace []
  | blank {c : Char} {space : List Char} (isBlank : Character.isBlank c = true)
      (others : IsSpace space) : IsSpace (c :: space)
  | comment {words space : List Char} (sameLine : '\n' ∉ words) (others : IsSpace space) :
      IsSpace ('#' :: (words ++ '\n' :: space))

def spellSpaced : List (Item × List Char) → List Char
  | [] => []
  | (item, space) :: others => item.spelling ++ (space ++ spellSpaced others)

def tokensSpaced (line : Nat) : List (Item × List Char) → List Token
  | [] => []
  | (item, space) :: others =>
    ⟨item.1, item.2, line⟩ :: tokensSpaced (line + space.count '\n') others

section Space

theorem IsSpace.isGap {space : List Char} (h : IsSpace space) (following : List Char) :
    IsGap following space := by
  induction h with
  | nil => exact .nil
  | blank isBlank _ ih => exact .blank isBlank ih
  | comment sameLine _ ih => exact .comment sameLine (by simp) (.blank (by decide) ih)

theorem delimits_of_isBlank {c : Char} (h : Character.isBlank c = true) : Delimits c := by
  have hother : ∀ d ∈ ['_', '=', '"', '\''], c ≠ d := by
    rintro d hd rfl
    revert h
    simp only [List.mem_cons, List.not_mem_nil, or_false] at hd
    rcases hd with rfl | rfl | rfl | rfl <;> decide
  simp only [List.forall_mem_cons] at hother
  obtain ⟨hline, hequals, htext, hcharacter, -⟩ := hother
  refine ⟨?_, hequals, htext, hcharacter⟩
  rw [continuesWord, Character.isLetter_eq_false_of_isBlank h,
    Character.isNumeral_eq_false_of_isBlank h, decide_eq_false hline]
  rfl

theorem IsSpace.endsLexeme {space : List Char} (h : IsSpace space) (nonempty : space ≠ [])
    (following : List Char) : EndsLexeme (space ++ following) := by
  cases h with
  | nil => exact absurd rfl nonempty
  | blank isBlank => exact endsLexeme_cons (delimits_of_isBlank isBlank) _
  | comment => exact endsLexeme_cons (by decide) _

end Space

namespace Item

theorem spelling_of_ne {kind : Kind} (noText : kind ≠ .string) (noCharacter : kind ≠ .char)
    (lexeme : String) : spelling (kind, lexeme) = lexeme.toList := by
  unfold spelling
  split <;> simp_all

@[simp] theorem spelling_text (content : String) :
    spelling (.string, content) = Quoted.encode '"' content.toList :=
  String.toList_ofList

@[simp] theorem spelling_character (c : Char) :
    spelling (.char, String.singleton c) = Quoted.encode '\'' [c] := by
  simp [spelling, Value.render]

namespace IsLexical

theorem isLexeme {item : Item} (h : item.IsLexical) :
    IsLexeme item.spelling item.1 item.2.toList := by
  have plain : ∀ {kind : Kind} {cs : List Char}, kind ∈ Kind.plainKinds → IsLexeme cs kind cs →
      IsLexeme (spelling (kind, String.ofList cs)) kind (String.ofList cs).toList := by
    intro kind cs mem hlexeme
    obtain ⟨noText, noCharacter, -⟩ := Kind.ne_literal_of_mem mem
    rwa [spelling_of_ne noText noCharacter, String.toList_ofList]
  cases h with
  | word start continued =>
      exact plain (List.mem_append_left _ (List.mem_append_left _ (Kind.ofWord_mem _)))
        (.word start continued)
  | @integer digits nonempty all inRange =>
      obtain ⟨c, cs, rfl⟩ := List.exists_cons_of_ne_nil nonempty
      rw [spelling_of_ne (by decide) (by decide), String.toList_ofList]
      exact .integer all
  | text content =>
      rw [spelling_text, Quoted.encode]
      exact .text (isTextBody_escape content.toList)
  | character c =>
      rw [spelling_character, Quoted.encode, List.flatMap_singleton, String.toList_singleton]
      exact .character (isCharacterBody_escape c)
  | pair known =>
      exact plain (List.mem_append_left _ (List.mem_append_right _ (Kind.mem_of_ofPair? known)))
        (.pair known)
  | symbol known =>
      exact plain (List.mem_append_right _ (Kind.mem_of_ofSymbol? known)) (.symbol known)

theorem inRange {item : Item} (h : item.IsLexical) (number : item.1 = .integer) :
    Integer.digitsValue item.spelling ≤ 9223372036854775807 := by
  cases h with
  | integer nonempty all inRange =>
      rwa [spelling_of_ne (by decide) (by decide), String.toList_ofList]
  | word => exact absurd number (Kind.ne_literal_of_mem
      (List.mem_append_left _ (List.mem_append_left _ (Kind.ofWord_mem _)))).2.2
  | text => cases number
  | character => cases number
  | pair known => exact absurd number (Kind.ne_literal_of_mem
      (List.mem_append_left _ (List.mem_append_right _ (Kind.mem_of_ofPair? known)))).2.2
  | symbol known => exact absurd number (Kind.ne_literal_of_mem
      (List.mem_append_right _ (Kind.mem_of_ofSymbol? known))).2.2

theorem begins {item : Item} (h : item.IsLexical) {rest : List Char} (ends : EndsLexeme rest) :
    Begins item.spelling rest item.1 item.2.toList := by
  by_cases number : item.1 = .integer
  · exact begins_of_inRange h.isLexeme (fun _ => h.inRange number) ends
  · exact begins_of_endsLexeme h.isLexeme number ends

theorem newline_not_mem_spelling {item : Item} (h : item.IsLexical) : '\n' ∉ item.spelling := by
  obtain ⟨kind, content⟩ := item
  by_cases text : kind = .string
  · subst text
    rw [spelling_text]
    exact Quoted.newline_not_mem_encode (.inl rfl) _
  · exact h.isLexeme.newline_not_mem text

theorem of_begins {spelling content rest : List Char} {kind : Kind}
    (h : Begins spelling rest kind content) : IsLexical (kind, String.ofList content) := by
  have inRange := h.inRange
  cases h.lexeme with
  | word start continued => exact .word start continued
  | integer digits => exact .integer (List.cons_ne_nil _ _) digits (inRange digits)
  | text => exact .text _
  | character => exact .character _
  | pair known => exact .pair known
  | symbol known => exact .symbol known

end IsLexical

end Item

theorem Scan.Layout.isLexical {rest before consumed : List Char} {tokens : List Token}
    (h : Layout rest before consumed tokens) : ∀ token ∈ tokens, token.item.IsLexical := by
  intro token mem
  obtain ⟨spelling, following, begins⟩ := h.exists_begins token mem
  have lexical := Item.IsLexical.of_begins begins
  rwa [String.ofList_toList] at lexical

theorem layout_spaced {pieces : List (Item × List Char)}
    (lexical : ∀ piece ∈ pieces, piece.1.IsLexical) (spaces : ∀ piece ∈ pieces, IsSpace piece.2)
    (apart : ∀ piece ∈ pieces.dropLast, piece.2 ≠ []) (before : List Char) :
    Layout [] before (spellSpaced pieces) (tokensSpaced (lineAfter before) pieces) := by
  induction pieces generalizing before with
  | nil => exact .done .nil
  | cons piece others ih =>
      obtain ⟨item, space⟩ := piece
      obtain ⟨hitem, hitems⟩ := List.forall_mem_cons.1 lexical
      obtain ⟨hspace, hspaces⟩ := List.forall_mem_cons.1 spaces
      -- only the last item may be without space, and nothing follows it then
      have hends : EndsLexeme (space ++ spellSpaced others) := by
        cases others with
        | nil =>
            by_cases nonempty : space = []
            · rw [nonempty]
              exact endsLexeme_nil
            · exact hspace.endsLexeme nonempty _
        | cons second others =>
            exact hspace.endsLexeme (List.forall_mem_cons.1 apart).1 _
      have hothers : ∀ piece ∈ others.dropLast, piece.2 ≠ [] := by
        intro piece mem
        cases others with
        | nil => cases mem
        | cons second others => exact (List.forall_mem_cons.1 apart).2 piece mem
      have hcount : (item.spelling ++ space).count '\n' = space.count '\n' := by
        rw [List.count_append, List.count_eq_zero.2 hitem.newline_not_mem_spelling, Nat.zero_add]
      have hfirst : Layout (spellSpaced others) before ([] ++ (item.spelling ++ space))
          [⟨item.1, String.ofList item.2.toList, lineAfter (before ++ [])⟩] :=
        .token .nil (hitem.begins hends) (.done (hspace.isGap _))
      rw [List.nil_append, List.append_nil, String.ofList_toList] at hfirst
      have hrest := ih hitems hspaces hothers (before ++ (item.spelling ++ space))
      rw [lineAfter_append, hcount] at hrest
      have hwhole : Layout [] before (item.spelling ++ space ++ spellSpaced others) _ :=
        Layout.append (by rwa [List.append_nil]) hrest
      rwa [List.append_assoc] at hwhole

theorem count_spellSpaced {pieces : List (Item × List Char)}
    (lexical : ∀ piece ∈ pieces, piece.1.IsLexical) :
    (spellSpaced pieces).count '\n' = (pieces.flatMap (·.2)).count '\n' := by
  induction pieces with
  | nil => rfl
  | cons piece others ih =>
      obtain ⟨hitem, hitems⟩ := List.forall_mem_cons.1 lexical
      rw [spellSpaced, List.flatMap_cons, List.count_append, List.count_append, List.count_append,
        ih hitems, List.count_eq_zero.2 hitem.newline_not_mem_spelling, Nat.zero_add]

theorem scan_of_spaced {lead : List Char} {pieces : List (Item × List Char)} (hlead : IsSpace lead)
    (lexical : ∀ piece ∈ pieces, piece.1.IsLexical) (spaces : ∀ piece ∈ pieces, IsSpace piece.2)
    (apart : ∀ piece ∈ pieces.dropLast, piece.2 ≠ []) :
    scan (String.ofList (lead ++ spellSpaced pieces)) =
      .ok (tokensSpaced (lineAfter lead) pieces ++
        [⟨.eof, "", lineAfter (lead ++ pieces.flatMap (·.2))⟩]) := by
  have hlayout : Layout [] [] (lead ++ spellSpaced pieces) _ :=
    (Layout.done (hlead.isGap _)).append (layout_spaced lexical spaces apart ([] ++ lead))
  rw [← String.toList_ofList (l := lead ++ spellSpaced pieces)] at hlayout
  have hline : lineAfter (lead ++ spellSpaced pieces) =
      lineAfter (lead ++ pieces.flatMap (·.2)) := by
    rw [lineAfter_append, lineAfter_append, count_spellSpaced lexical]
  rw [scan_of_layout hlayout, String.toList_ofList, hline]
  rfl

/-- The items that stand in texts are those that scanning finds, and however they are spaced,
exactly these items are found, each on the line after the breaks in the space before it. -/
theorem scan_spaced :
    (∀ item : Item, item.IsLexical ↔ ∃ source tokens token, scan source = .ok tokens ∧
      token ∈ tokens ∧ token.kind ≠ .eof ∧ token.item = item) ∧
    ∀ (lead : List Char) (pieces : List (Item × List Char)), IsSpace lead →
      (∀ piece ∈ pieces, piece.1.IsLexical) → (∀ piece ∈ pieces, IsSpace piece.2) →
      (∀ piece ∈ pieces.dropLast, piece.2 ≠ []) →
      scan (String.ofList (lead ++ spellSpaced pieces)) =
        .ok (tokensSpaced (lineAfter lead) pieces ++
          [⟨.eof, "", lineAfter (lead ++ pieces.flatMap (·.2))⟩]) := by
  refine ⟨fun item => ⟨fun lexical => ?_, ?_⟩, fun _ _ => scan_of_spaced⟩
  · have spaces : ∀ piece ∈ [(item, ([] : List Char))], IsSpace piece.2 :=
      List.forall_mem_singleton.2 .nil
    have hscan := scan_of_spaced .nil (List.forall_mem_singleton.2 lexical) spaces (by simp)
    exact ⟨_, _, _, hscan, List.mem_cons_self .., lexical.isLexeme.kind_ne_eof, rfl⟩
  · rintro ⟨source, tokens, token, hscan, mem, noEnd, rfl⟩
    obtain ⟨found, hlayout, rfl⟩ := exists_layout_of_scan hscan
    rcases List.mem_append.1 mem with hfound | hmark
    · exact hlayout.isLexical token hfound
    · rw [List.mem_singleton.1 hmark] at noEnd
      exact absurd rfl noEnd

/-- Literals and a comment with quotes in them, symbols that would make a pair, a word, and a number
with leading zeros. -/
def mixedPieces : List (Item × List Char) :=
  [((.string, "a\"\n'"), ['#', '\'', '\n']), ((.greater, ">"), ['\u2028']),
    ((.assign, "="), ['\t']), ((.char, "\\"), [' ', ' ']), ((.kwWhile, "while"), ['\n']),
    ((.integer, "007"), [])]

theorem scan_spaced_mixed :
    (IsSpace ['#', '"', '\n'] ∧ (∀ piece ∈ mixedPieces, piece.1.IsLexical) ∧
      (∀ piece ∈ mixedPieces, IsSpace piece.2) ∧
      ∀ piece ∈ mixedPieces.dropLast, piece.2 ≠ []) ∧
    scan (String.ofList (['#', '"', '\n'] ++ spellSpaced mixedPieces)) = .ok
      [⟨.string, "a\"\n'", 2⟩, ⟨.greater, ">", 3⟩, ⟨.assign, "=", 3⟩, ⟨.char, "\\", 3⟩,
        ⟨.kwWhile, "while", 3⟩, ⟨.integer, "007", 4⟩, ⟨.eof, "", 4⟩] := by
  have hlead : IsSpace ['#', '"', '\n'] := @IsSpace.comment ['"'] _ (by decide) .nil
  have lexical : ∀ piece ∈ mixedPieces, piece.1.IsLexical := by
    simp only [mixedPieces, List.forall_mem_cons]
    exact ⟨.text _, .symbol (c := '>') rfl, .symbol (c := '=') rfl, .character '\\',
      @Item.IsLexical.word 'w' ['h', 'i', 'l', 'e'] (by decide) (List.all_eq_true.1 (by decide)),
      @Item.IsLexical.integer ['0', '0', '7'] (by decide) (List.all_eq_true.1 (by decide))
        (by decide), by simp⟩
  have spaces : ∀ piece ∈ mixedPieces, IsSpace piece.2 := by
    simp only [mixedPieces, List.forall_mem_cons]
    exact ⟨@IsSpace.comment ['\''] _ (by decide) .nil, .blank (by decide) .nil,
      .blank (by decide) .nil, .blank (by decide) (.blank (by decide) .nil),
      .blank (by decide) .nil, .nil, by simp⟩
  have apart : ∀ piece ∈ mixedPieces.dropLast, piece.2 ≠ [] := by decide
  exact ⟨⟨hlead, lexical, spaces, apart⟩, scan_spaced.2 _ _ hlead lexical spaces apart⟩

end Script
