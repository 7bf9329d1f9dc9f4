import Script.Proofs.Token.Lexeme
/-!
# Where lexemes end

Whether a lexeme is the longest one of its text depends on the next character alone.  Most
characters that are not part of a word go on with no lexeme at all, and nothing goes on with a mark
that begins no symbol of two characters.
-/

namespace Script

namespace Kind

def wordKinds : List Kind := identifier :: reserved.map (·.2)

def pairKinds : List Kind := [equals, greaterEquals, lessEquals, notEquals]

def symbolKinds : List Kind :=
  [plus, minus, star, slash, percent, leftParen, rightParen, colon, comma, semicolon, assign,
    greater, less]

/-- The kinds of all lexemes that are no literals with a content of their own. -/
def plainKinds : List Kind := wordKinds ++ pairKinds ++ symbolKinds

theorem ne_literal_of_mem {kind : Kind} (h : kind ∈ plainKinds) :
    kind ≠ .string ∧ kind ≠ .char ∧ kind ≠ .integer := by
  have hkinds : ∀ kind ∈ plainKinds, kind ≠ .string ∧ kind ≠ .char ∧ kind ≠ .integer := by decide
  exact hkinds kind h

theorem ofWord_mem (word : String) : ofWord word ∈ wordKinds := by
  rw [ofWord]
  cases hlookup : reserved.lookup word with
  | none => exact List.mem_cons_self ..
  | some kind =>
      obtain ⟨before, after, hsplit, -⟩ := List.lookup_eq_some_iff.1 hlookup
      have hmem : (word, kind) ∈ reserved := hsplit ▸ by simp
      exact List.mem_cons_of_mem _ (List.mem_map_of_mem hmem)

theorem mem_of_ofPair? {c d : Char} {kind : Kind} (h : ofPair? c d = some kind) :
    kind ∈ pairKinds := by
  revert h
  fun_cases ofPair? c d <;> simp +contextual [pairKinds, eq_comm]

theorem mem_of_ofSymbol? {c : Char} {kind : Kind} (h : ofSymbol? c = some kind) :
    kind ∈ symbolKinds := by
  revert h
  fun_cases ofSymbol? c <;> simp +contextual [symbolKinds, eq_comm]

end Kind

namespace Lexeme

/-- A word, in a form in which a given word is one by evaluation. -/
theorem IsLexeme.of_all {c : Char} {cs : List Char} (start : startsWord c = true)
    (continued : cs.all continuesWord = true) :
    IsLexeme (c :: cs) (Kind.ofWord (String.ofList (c :: cs))) (c :: cs) :=
  .word start (List.all_eq_true.1 continued)

theorem IsLexeme.of_text {cs content : List Char} {kind : Kind}
    (h : IsLexeme ('"' :: cs) kind content) :
    kind = .string ∧ ∃ spelling, IsTextBody spelling content ∧ cs = spelling ++ ['"'] := by
  cases h with
  | word start => exact absurd start (by decide)
  | integer digits => exact absurd (digits '"' (List.mem_cons_self ..)) (by decide)
  | text body => exact ⟨rfl, _, body, rfl⟩
  | pair known => exact absurd (isMark_of_ofPair? known) (by decide)
  | symbol known => exact absurd (isMark_of_ofSymbol? known) (by decide)

theorem IsLexeme.of_character {cs content : List Char} {kind : Kind}
    (h : IsLexeme ('\'' :: cs) kind content) :
    kind = .char ∧ ∃ spelling c, IsCharacterBody spelling c ∧ content = [c] ∧
      cs = spelling ++ ['\''] := by
  cases h with
  | word start => exact absurd start (by decide)
  | integer digits => exact absurd (digits '\'' (List.mem_cons_self ..)) (by decide)
  | character body => exact ⟨rfl, _, _, body, rfl, rfl⟩
  | pair known => exact absurd (isMark_of_ofPair? known) (by decide)
  | symbol known => exact absurd (isMark_of_ofSymbol? known) (by decide)

theorem IsLexeme.kind_ne_eof {spelling content : List Char} {kind : Kind}
    (h : IsLexeme spelling kind content) : kind ≠ .eof := by
  have hwords : ∀ kind ∈ Kind.wordKinds, kind ≠ .eof := by decide
  have hpairs : ∀ kind ∈ Kind.pairKinds, kind ≠ .eof := by decide
  have hsymbols : ∀ kind ∈ Kind.symbolKinds, kind ≠ .eof := by decide
  cases h with
  | word => exact hwords _ (Kind.ofWord_mem _)
  | integer => decide
  | text => decide
  | character => decide
  | pair known => exact hpairs _ (Kind.mem_of_ofPair? known)
  | symbol known => exact hsymbols _ (Kind.mem_of_ofSymbol? known)

theorem IsLexeme.content_eq {spelling content : List Char} {kind : Kind}
    (h : IsLexeme spelling kind content) (noText : kind ≠ .string) (noCharacter : kind ≠ .char) :
    content = spelling := by
  cases h with
  | word | integer | pair | symbol => rfl
  | text => exact absurd rfl noText
  | character => exact absurd rfl noCharacter

theorem IsCharacterBody.newline_not_mem {spelling : List Char} {c : Char}
    (h : IsCharacterBody spelling c) : '\n' ∉ spelling := by
  cases h with
  | plain notQuote notEscape notBreak => simpa using notBreak.symm
  | @escape e _ known =>
      have hescape : '\n' ≠ e := by
        rintro rfl
        cases known
      simp [hescape]

theorem IsMark.ne_newline {c : Char} (h : IsMark c) : '\n' ≠ c := by
  rintro rfl
  exact absurd h (by decide)

/-- Only literals of text go on over several lines. -/
theorem IsLexeme.newline_not_mem {spelling content : List Char} {kind : Kind}
    (h : IsLexeme spelling kind content) (noText : kind ≠ .string) : '\n' ∉ spelling := by
  cases h with
  | @word c cs start continued =>
      rw [List.mem_cons, not_or]
      constructor
      · rintro rfl
        exact absurd start (by decide)
      · exact fun mem => absurd (continued _ mem) (by decide)
  | integer digits => exact fun mem => absurd (digits _ mem) (by decide)
  | text => exact absurd rfl noText
  | character body => simp [body.newline_not_mem]
  | @pair c d kind known =>
      have hsecond : '\n' ≠ d := by
        rintro rfl
        cases known
      simp [(isMark_of_ofPair? known).ne_newline, hsecond]
  | symbol known => simp [(isMark_of_ofSymbol? known).ne_newline]

theorem IsTextBody.eq_nil_of_append {first second content content' rest : List Char}
    (hfirst : IsTextBody first content) (hsecond : IsTextBody second content')
    (heq : first ++ '"' :: rest = second ++ ['"']) : rest = [] := by
  have hclosed := hfirst.textBody_closed rest
  rw [heq, hsecond.textBody_closed, Body.closed.injEq] at hclosed
  exact hclosed.2.2.symm

theorem IsCharacterBody.eq_nil_of_append {first second rest : List Char} {c c' : Char}
    (hfirst : IsCharacterBody first c) (hsecond : IsCharacterBody second c')
    (heq : first ++ '\'' :: rest = second ++ ['\'']) : rest = [] := by
  have hclosed := hfirst.characterBody_append ('\'' :: rest)
  rw [heq, hsecond.characterBody_append, closeCharacter, closeCharacter, if_pos rfl, if_pos rfl,
    Body.closed.injEq] at hclosed
  exact hclosed.2.2.symm

/-- A lexeme that goes on with more characters also goes on with the first one of them. -/
theorem IsLexeme.next {spelling content content' more : List Char} {kind kind' : Kind} {d : Char}
    (h : IsLexeme spelling kind content) (hmore : IsLexeme (spelling ++ d :: more) kind' content') :
    ∃ nextKind nextContent, IsLexeme (spelling ++ [d]) nextKind nextContent := by
  obtain ⟨c, cs, rfl, -⟩ := h.startsNoGap
  rw [List.cons_append] at hmore ⊢
  have hfront : ∀ x ∈ cs ++ [d], x ∈ cs ++ d :: more := by
    intro x hx
    simp only [List.mem_append, List.mem_cons, List.not_mem_nil, or_false] at hx ⊢
    exact hx.imp_right .inl
  generalize hwhole : c :: (cs ++ d :: more) = whole at hmore
  cases hmore with
  | word start continued =>
      obtain ⟨rfl, rfl⟩ := List.cons.inj hwhole
      exact ⟨_, _, .word start fun x hx => continued x (hfront x hx)⟩
  | integer digits =>
      obtain ⟨rfl, rfl⟩ := List.cons.inj hwhole
      refine ⟨_, _, .integer fun x hx => digits x ?_⟩
      exact List.mem_cons.2 ((List.mem_cons.1 hx).imp_right (hfront x))
  | text body =>
      -- the shorter lexeme would be a text too, and the longer one would be closed twice
      obtain ⟨rfl, heq⟩ := List.cons.inj hwhole
      obtain ⟨-, inside, hinside, rfl⟩ := h.of_text
      rw [List.append_assoc, List.singleton_append] at heq
      exact absurd (hinside.eq_nil_of_append body heq) (List.cons_ne_nil _ _)
  | character body =>
      obtain ⟨rfl, heq⟩ := List.cons.inj hwhole
      obtain ⟨-, inside, _, hinside, -, rfl⟩ := h.of_character
      rw [List.append_assoc, List.singleton_append] at heq
      exact absurd (hinside.eq_nil_of_append body heq) (List.cons_ne_nil _ _)
  | pair known =>
      obtain ⟨rfl, heq⟩ := List.cons.inj hwhole
      obtain ⟨rfl, hd⟩ := (List.append_eq_singleton_iff.1 heq).resolve_right (by simp)
      obtain ⟨rfl, -⟩ := List.cons.inj hd
      exact ⟨_, _, .pair known⟩
  | symbol known => simp at hwhole

/-- A lexeme is the longest one of its text if the next character does not go on with it. -/
theorem begins_iff_next {spelling content rest : List Char} {kind : Kind} :
    Begins spelling rest kind content ↔ IsLexeme spelling kind content ∧
      (∀ d ∈ rest.head?, ∀ nextKind nextContent,
        ¬ IsLexeme (spelling ++ [d]) nextKind nextContent) ∧
      ((∀ d ∈ spelling, d.isDigit = true) →
        Integer.digitsValue spelling ≤ 9223372036854775807) := by
  constructor
  · intro h
    refine ⟨h.lexeme, ?_, h.inRange⟩
    intro d hd nextKind nextContent hnext
    obtain ⟨others, rfl⟩ := List.head?_eq_some_iff.1 hd
    have hlength := h.longest ⟨others, by simp⟩ hnext
    rw [List.length_append, List.length_singleton] at hlength
    omega
  · rintro ⟨hlexeme, hends, hrange⟩
    refine ⟨hlexeme, ?_, hrange⟩
    intro other otherKind otherContent hfront hother
    rcases List.prefix_or_prefix_of_prefix hfront (List.prefix_append _ _) with hshort | ⟨more, rfl⟩
    · exact hshort.length_le
    · cases more with
      | nil => rw [List.append_nil]
      | cons d more =>
          obtain ⟨others, rfl⟩ := (List.prefix_append_right_inj _).1 hfront
          obtain ⟨nextKind, nextContent, hnext⟩ := hlexeme.next hother
          exact absurd hnext (hends d rfl nextKind nextContent)

/-- Whether a character goes on with no lexeme at all. -/
def Delimits (d : Char) : Prop := continuesWord d = false ∧ d ≠ '=' ∧ d ≠ '"' ∧ d ≠ '\''

instance (d : Char) : Decidable (Delimits d) := inferInstanceAs (Decidable (_ ∧ _))

theorem continuesWord_of_isDigit {d : Char} (h : d.isDigit = true) : continuesWord d = true := by
  have hascii := Character.toNat_le_of_isDigit h
  have hnumeral := Character.isNumeral_of_ascii (c := d) (by omega)
  rw [continuesWord, hnumeral, h, Bool.or_true, Bool.true_or]

theorem Delimits.not_isLexeme {d : Char} (hd : Delimits d) {spelling content : List Char}
    {kind : Kind} (nonempty : spelling ≠ []) : ¬ IsLexeme (spelling ++ [d]) kind content := by
  obtain ⟨hword, hequals, htext, hcharacter⟩ := hd
  obtain ⟨c, cs, rfl⟩ := List.exists_cons_of_ne_nil nonempty
  intro h
  generalize hwhole : c :: cs ++ [d] = whole at h
  cases h with
  | word start continued =>
      obtain ⟨rfl, rfl⟩ := List.cons.inj hwhole
      have hcontinued := continued d (by simp)
      rw [hword] at hcontinued
      cases hcontinued
  | integer digits =>
      obtain ⟨rfl, rfl⟩ := List.cons.inj hwhole
      have hcontinued := continuesWord_of_isDigit (digits d (by simp))
      rw [hword] at hcontinued
      cases hcontinued
  | text body =>
      obtain ⟨rfl, heq⟩ := List.cons.inj hwhole
      exact htext (List.cons.inj (List.append_inj' heq rfl).2).1
  | character body =>
      obtain ⟨rfl, heq⟩ := List.cons.inj hwhole
      exact hcharacter (List.cons.inj (List.append_inj' heq rfl).2).1
  | pair known =>
      obtain ⟨rfl, heq⟩ := List.cons.inj hwhole
      obtain ⟨rfl, hd⟩ := (List.append_eq_singleton_iff.1 heq).resolve_right (by simp)
      obtain ⟨rfl, -⟩ := List.cons.inj hd
      simp [Kind.ofPair?, hequals] at known
  | symbol known => simp at hwhole

def EndsLexeme (rest : List Char) : Prop := ∀ d ∈ rest.head?, Delimits d

theorem endsLexeme_nil : EndsLexeme [] := by
  simp [EndsLexeme]

theorem endsLexeme_cons {c : Char} (h : Delimits c) (cs : List Char) : EndsLexeme (c :: cs) := by
  simp [EndsLexeme, h]

def pairStarts : List Char := ['=', '>', '<', '!']

theorem ofPair?_eq_none {c : Char} (h : c ∉ pairStarts) (d : Char) : Kind.ofPair? c d = none := by
  simp only [pairStarts, List.mem_cons, List.not_mem_nil, or_false, not_or] at h
  simp [Kind.ofPair?, h]

/-- A mark that begins no pair is never gone on with. -/
theorem not_isLexeme_mark {c d : Char} (mark : IsMark c) (single : c ∉ pairStarts)
    {kind : Kind} {content : List Char} : ¬ IsLexeme [c, d] kind content := by
  obtain ⟨-, -, htext, hcharacter, hdigit, hword⟩ := mark
  intro h
  generalize hwhole : [c, d] = whole at h
  cases h with
  | word start =>
      obtain ⟨rfl, -⟩ := List.cons.inj hwhole
      rw [hword] at start
      cases start
  | integer digits =>
      obtain ⟨rfl, -⟩ := List.cons.inj hwhole
      have hfirst := digits c (List.mem_cons_self ..)
      rw [hdigit] at hfirst
      cases hfirst
  | text body => exact htext (List.cons.inj hwhole).1
  | character body => exact hcharacter (List.cons.inj hwhole).1
  | pair known =>
      obtain ⟨rfl, hd⟩ := List.cons.inj hwhole
      obtain ⟨rfl, -⟩ := List.cons.inj hd
      rw [ofPair?_eq_none single] at known
      cases known
  | symbol known => simp at hwhole

theorem IsLexeme.exists_not_isDigit {spelling content : List Char} {kind : Kind}
    (h : IsLexeme spelling kind content) (noNumber : kind ≠ .integer) :
    ∃ d ∈ spelling, d.isDigit = false := by
  cases h with
  | @word c _ start =>
      refine ⟨c, List.mem_cons_self .., ?_⟩
      rw [Bool.eq_false_iff]
      intro hdigit
      rw [startsWord_eq_false_of_isDigit hdigit] at start
      cases start
  | integer => exact absurd rfl noNumber
  | text => exact ⟨'"', List.mem_cons_self .., by decide⟩
  | character => exact ⟨'\'', List.mem_cons_self .., by decide⟩
  | pair known => exact ⟨_, List.mem_cons_self .., (isMark_of_ofPair? known).2.2.2.2.1⟩
  | symbol known => exact ⟨_, List.mem_cons_self .., (isMark_of_ofSymbol? known).2.2.2.2.1⟩

theorem begins_of_inRange {spelling content rest : List Char} {kind : Kind}
    (h : IsLexeme spelling kind content)
    (inRange : (∀ d ∈ spelling, d.isDigit = true) →
      Integer.digitsValue spelling ≤ 9223372036854775807)
    (ends : EndsLexeme rest) : Begins spelling rest kind content := by
  obtain ⟨c, cs, hcons, -⟩ := h.startsNoGap
  have nonempty : spelling ≠ [] := hcons ▸ List.cons_ne_nil c cs
  exact begins_iff_next.2 ⟨h, fun d hd _ _ => (ends d hd).not_isLexeme nonempty, inRange⟩

theorem begins_of_endsLexeme {spelling content rest : List Char} {kind : Kind}
    (h : IsLexeme spelling kind content) (noNumber : kind ≠ .integer) (ends : EndsLexeme rest) :
    Begins spelling rest kind content := by
  refine begins_of_inRange h (fun digits => ?_) ends
  obtain ⟨d, hd, hdigit⟩ := h.exists_not_isDigit noNumber
  rw [digits d hd] at hdigit
  cases hdigit

theorem begins_symbol {c : Char} {kind : Kind} (known : Kind.ofSymbol? c = some kind)
    (single : c ∉ pairStarts) (rest : List Char) : Begins [c] rest kind [c] := by
  have mark := isMark_of_ofSymbol? known
  refine begins_iff_next.2 ⟨.symbol known, fun d _ _ _ => not_isLexeme_mark mark single, ?_⟩
  intro digits
  have hdigit := digits c (List.mem_cons_self ..)
  rw [mark.2.2.2.2.1] at hdigit
  cases hdigit

/-- A lexeme remains the longest one if the text after it begins in the same way, or with a
character that goes on with no lexeme. -/
theorem Begins.of_head? {spelling content rest other : List Char} {kind : Kind}
    (h : Begins spelling rest kind content)
    (hhead : ∀ d ∈ other.head?, Delimits d ∨ d ∈ rest.head?) :
    Begins spelling other kind content := by
  obtain ⟨hlexeme, hends, hrange⟩ := begins_iff_next.1 h
  obtain ⟨c, cs, rfl, -⟩ := hlexeme.startsNoGap
  refine begins_iff_next.2 ⟨hlexeme, fun d hd nextKind nextContent => ?_, hrange⟩
  rcases hhead d hd with hdelimits | hsame
  · exact hdelimits.not_isLexeme (List.cons_ne_nil c cs)
  · exact hends d hsame nextKind nextContent

end Lexeme

end Script
