import Mathlib.Data.List.TakeWhile
import Mathlib.Tactic.ByContra
import Script.Proofs.Character
import Script.Proofs.Integer
import Script.Token.Lexeme
/-!
# Lexemes

What the lexemes of the language are, said without reference to how they are found, and in how many
ways a text can fail to begin with one.  A text is read up to the end of the longest lexeme that it
begins with.
-/

namespace Script.Lexeme

inductive IsTextBody : List Char → List Char → Prop
  | nil : IsTextBody [] []
  | plain {c : Char} {spelling content : List Char} (notQuote : c ≠ '"') (notEscape : c ≠ '\\')
      (others : IsTextBody spelling content) : IsTextBody (c :: spelling) (c :: content)
  | escape {e decoded : Char} {spelling content : List Char}
      (known : Quoted.unescape? e = some decoded) (others : IsTextBody spelling content) :
      IsTextBody ('\\' :: e :: spelling) (decoded :: content)

inductive IsCharacterBody : List Char → Char → Prop
  | plain {c : Char} (notQuote : c ≠ '\'') (notEscape : c ≠ '\\') (notBreak : c ≠ '\n') :
      IsCharacterBody [c] c
  | escape {e decoded : Char} (known : Quoted.unescape? e = some decoded) :
      IsCharacterBody ['\\', e] decoded

inductive IsLexeme : List Char → Kind → List Char → Prop
  | word {c : Char} {cs : List Char} (start : startsWord c = true)
      (continued : ∀ d ∈ cs, continuesWord d = true) :
      IsLexeme (c :: cs) (Kind.ofWord (String.ofList (c :: cs))) (c :: cs)
  | integer {c : Char} {cs : List Char} (digits : ∀ d ∈ c :: cs, d.isDigit = true) :
      IsLexeme (c :: cs) .integer (c :: cs)
  | text {spelling content : List Char} (body : IsTextBody spelling content) :
      IsLexeme ('"' :: (spelling ++ ['"'])) .string content
  | character {spelling : List Char} {c : Char} (body : IsCharacterBody spelling c) :
      IsLexeme ('\'' :: (spelling ++ ['\''])) .char [c]
  | pair {c d : Char} {kind : Kind} (known : Kind.ofPair? c d = some kind) :
      IsLexeme [c, d] kind [c, d]
  | symbol {c : Char} {kind : Kind} (known : Kind.ofSymbol? c = some kind) : IsLexeme [c] kind [c]

/-- Whether a character begins neither a gap nor a literal nor a word. -/
def IsMark (c : Char) : Prop :=
  Character.isBlank c = false ∧ c ≠ '#' ∧ c ≠ '"' ∧ c ≠ '\'' ∧ c.isDigit = false ∧
    startsWord c = false

instance (c : Char) : Decidable (IsMark c) := inferInstanceAs (Decidable (_ ∧ _))

/-- A run of digits in front of `rest`, which does not begin with a digit itself, that writes a
number out of range. -/
structure IsLarge (digits rest : List Char) : Prop where
  nonempty : digits ≠ []
  all : ∀ d ∈ digits, d.isDigit = true
  ends : ∀ d ∈ rest.head?, d.isDigit = false
  large : 9223372036854775807 < Integer.digitsValue digits

/-- A text with the fault at its front, and the characters up to the one that shows the fault. -/
inductive IsMalformed : List Char → Fault → List Char → Prop
  | openText {spelling content : List Char} (body : IsTextBody spelling content) :
      IsMalformed ('"' :: spelling) .unterminatedText ('"' :: spelling)
  | openTextEscape {spelling content : List Char} (body : IsTextBody spelling content) :
      IsMalformed ('"' :: (spelling ++ ['\\'])) .unterminatedText ('"' :: (spelling ++ ['\\']))
  | textEscape {e : Char} {spelling content rest : List Char} (body : IsTextBody spelling content)
      (unknown : Quoted.unescape? e = none) :
      IsMalformed ('"' :: (spelling ++ '\\' :: e :: rest)) (.unknownEscape e)
        ('"' :: (spelling ++ ['\\', e]))
  | openCharacter : IsMalformed ['\''] .unterminatedCharacter ['\'']
  | openCharacterEscape : IsMalformed ['\'', '\\'] .unterminatedCharacter ['\'', '\\']
  | characterEscape {e : Char} {rest : List Char} (unknown : Quoted.unescape? e = none) :
      IsMalformed ('\'' :: '\\' :: e :: rest) (.unknownEscape e) ['\'', '\\', e]
  | emptyCharacter {rest : List Char} :
      IsMalformed ('\'' :: '\'' :: rest) .emptyCharacter ['\'', '\'']
  | brokenCharacter {rest : List Char} :
      IsMalformed ('\'' :: '\n' :: rest) .unterminatedCharacter ['\'', '\n']
  | longCharacter {c : Char} {spelling rest : List Char} (body : IsCharacterBody spelling c)
      (notClosed : rest.head? ≠ some '\'') :
      IsMalformed ('\'' :: (spelling ++ rest)) .unterminatedCharacter ('\'' :: spelling)
  | largeInteger {digits rest : List Char} (large : IsLarge digits rest) :
      IsMalformed (digits ++ rest) .integerTooLarge digits
  | unrecognized {c : Char} {rest : List Char} (mark : IsMark c)
      (noSymbol : Kind.ofSymbol? c = none) (noPair : rest.head?.bind (Kind.ofPair? c) = none) :
      IsMalformed (c :: rest) (.unrecognized c) [c]

/-- The front `spelling` of the text `spelling ++ rest` is the longest lexeme that this text begins
with, and no number out of range. -/
structure Begins (spelling rest : List Char) (kind : Kind) (content : List Char) : Prop where
  lexeme : IsLexeme spelling kind content
  longest : ∀ {other : List Char} {otherKind : Kind} {otherContent : List Char},
    other <+: spelling ++ rest → IsLexeme other otherKind otherContent →
      other.length ≤ spelling.length
  inRange : (∀ d ∈ spelling, d.isDigit = true) →
    Integer.digitsValue spelling ≤ 9223372036854775807

theorem startsWord_eq_false_of_isBlank {c : Char} (h : Character.isBlank c = true) :
    startsWord c = false := by
  have hletter := Character.isLetter_eq_false_of_isBlank h
  have hline : c ≠ '_' := by
    rintro rfl
    exact absurd h (by decide)
  simp [startsWord, hletter, hline]

theorem startsWord_eq_false_of_isDigit {c : Char} (h : c.isDigit = true) :
    startsWord c = false := by
  have hletter := Character.isLetter_eq_false_of_isDigit h
  have hline : c ≠ '_' := by
    rintro rfl
    exact absurd h (by decide)
  simp [startsWord, hletter, hline]

def symbolStarts : List Char :=
  ['+', '-', '*', '/', '%', '(', ')', ':', ',', ';', '=', '>', '<', '!']

theorem isMark_of_mem {c : Char} (h : c ∈ symbolStarts) : IsMark c := by
  have hmarks : symbolStarts.all (IsMark ·) = true := by decide
  exact of_decide_eq_true (List.all_eq_true.1 hmarks c h)

theorem isMark_of_ofSymbol? {c : Char} {kind : Kind} (h : Kind.ofSymbol? c = some kind) :
    IsMark c := by
  apply isMark_of_mem
  by_contra hnot
  simp only [symbolStarts, List.mem_cons, List.not_mem_nil, or_false, not_or] at hnot
  simp [Kind.ofSymbol?, hnot] at h

theorem isMark_of_ofPair? {c d : Char} {kind : Kind} (h : Kind.ofPair? c d = some kind) :
    IsMark c := by
  apply isMark_of_mem
  by_contra hnot
  simp only [symbolStarts, List.mem_cons, List.not_mem_nil, or_false, not_or] at hnot
  simp [Kind.ofPair?, hnot] at h

theorem read_text (cs : List Char) : read '"' cs = (textBody cs).toReading .string '"' := rfl

theorem read_character (cs : List Char) :
    read '\'' cs = (characterBody cs).toReading .char '\'' := rfl

theorem read_digit {c : Char} (h : c.isDigit = true) (cs : List Char) :
    read c cs = integer c cs := by
  have htext : c ≠ '"' := by
    rintro rfl
    exact absurd h (by decide)
  have hcharacter : c ≠ '\'' := by
    rintro rfl
    exact absurd h (by decide)
  rw [read, if_neg htext, if_neg hcharacter, if_pos h]

theorem read_word {c : Char} (h : startsWord c = true) (cs : List Char) :
    read c cs = word c cs := by
  have htext : c ≠ '"' := by
    rintro rfl
    exact absurd h (by decide)
  have hcharacter : c ≠ '\'' := by
    rintro rfl
    exact absurd h (by decide)
  have hdigit : ¬ c.isDigit = true := by
    intro hdigit
    rw [startsWord_eq_false_of_isDigit hdigit] at h
    cases h
  rw [read, if_neg htext, if_neg hcharacter, if_neg hdigit, if_pos h]

theorem read_mark {c : Char} (h : IsMark c) (cs : List Char) : read c cs = symbol c cs := by
  obtain ⟨-, -, htext, hcharacter, hdigit, hword⟩ := h
  simp [read, htext, hcharacter, hdigit, hword]

def Body.after (spelling content : List Char) : Body → Body
  | closed content' taken rest => closed (content ++ content') (spelling ++ taken) rest
  | broken fault taken => broken fault (spelling ++ taken)

theorem IsTextBody.textBody_append {spelling content : List Char}
    (h : IsTextBody spelling content) (following : List Char) :
    textBody (spelling ++ following) = (textBody following).after spelling content := by
  induction h with
  | nil =>
      rw [List.nil_append]
      cases textBody following <;> rfl
  | @plain c _ _ notQuote notEscape _ ih =>
      rw [List.cons_append, textBody.eq_def]
      simp only [if_neg notQuote, if_neg notEscape, ih]
      cases textBody following <;> rfl
  | @escape e decoded _ _ known _ ih =>
      rw [List.cons_append, List.cons_append, textBody.eq_def]
      simp only [if_neg (show '\\' ≠ '"' by decide), if_pos, known, ih]
      cases textBody following <;> rfl

theorem IsTextBody.textBody_closed {spelling content : List Char}
    (h : IsTextBody spelling content) (rest : List Char) :
    textBody (spelling ++ '"' :: rest) = .closed content (spelling ++ ['"']) rest := by
  have hclosed : textBody ('"' :: rest) = .closed [] ['"'] rest := by
    rw [textBody.eq_def]
    rfl
  rw [h.textBody_append, hclosed, Body.after, List.append_nil]

theorem IsCharacterBody.characterBody_append {spelling : List Char} {c : Char}
    (h : IsCharacterBody spelling c) (rest : List Char) :
    characterBody (spelling ++ rest) = closeCharacter c spelling rest := by
  cases h with
  | plain notQuote notEscape notBreak => simp [characterBody, notQuote, notEscape, notBreak]
  | escape known => simp [characterBody, known]

theorem closeCharacter_eq_broken {c : Char} {spelling rest : List Char}
    (notClosed : rest.head? ≠ some '\'') :
    closeCharacter c spelling rest = .broken .unterminatedCharacter spelling := by
  cases rest with
  | nil => rfl
  | cons d others =>
      rw [List.head?_cons, Ne, Option.some.injEq] at notClosed
      rw [closeCharacter, if_neg notClosed]

/-- The inside of a text literal goes up to its closing quote, up to the end of the text, or up to a
backslash with nothing known after it. -/
theorem exists_isTextBody (cs : List Char) :
    ∃ spelling content, IsTextBody spelling content ∧
      ((∃ rest, cs = spelling ++ '"' :: rest) ∨ cs = spelling ∨ cs = spelling ++ ['\\'] ∨
        ∃ e rest, Quoted.unescape? e = none ∧ cs = spelling ++ '\\' :: e :: rest) := by
  fun_induction textBody cs with
  | case1 => exact ⟨[], [], .nil, .inr (.inl rfl)⟩
  | case2 cs => exact ⟨[], [], .nil, .inl ⟨cs, rfl⟩⟩
  | case3 => exact ⟨[], [], .nil, .inr (.inr (.inl rfl))⟩
  | case4 e cs decoded known _ ih =>
      obtain ⟨spelling, content, body, hcs⟩ := ih
      refine ⟨'\\' :: e :: spelling, decoded :: content, .escape known body, ?_⟩
      simpa only [List.cons_append, List.cons.injEq, true_and] using hcs
  | case5 e cs unknown => exact ⟨[], [], .nil, .inr (.inr (.inr ⟨e, cs, unknown, rfl⟩))⟩
  | case6 c cs notQuote notEscape ih =>
      obtain ⟨spelling, content, body, hcs⟩ := ih
      refine ⟨c :: spelling, c :: content, .plain notQuote notEscape body, ?_⟩
      simpa only [List.cons_append, List.cons.injEq, true_and] using hcs

def Reading.Meets (whole : List Char) : Reading → Prop
  | lexeme kind content taken rest => taken ++ rest = whole ∧ IsLexeme taken kind content ∧
      ((∀ d ∈ taken, d.isDigit = true) → Integer.digitsValue taken ≤ 9223372036854775807)
  | malformed fault taken => IsMalformed whole fault taken

theorem text_meets (cs : List Char) :
    ((textBody cs).toReading .string '"').Meets ('"' :: cs) := by
  obtain ⟨spelling, content, body, hcs⟩ := exists_isTextBody cs
  rcases hcs with ⟨rest, hcs⟩ | hcs | hcs | ⟨e, rest, unknown, hcs⟩
  · rw [hcs, body.textBody_closed]
    refine ⟨by simp, .text body, fun digits => ?_⟩
    exact absurd (digits '"' (List.mem_cons_self ..)) (by decide)
  · have hbody : textBody cs = .broken .unterminatedText cs := by
      rw [hcs, ← List.append_nil spelling, body.textBody_append]
      simp [textBody, Body.after]
    rw [hbody]
    exact .openText (hcs ▸ body)
  · have hbody : textBody cs = .broken .unterminatedText (spelling ++ ['\\']) := by
      rw [hcs, body.textBody_append]
      simp [textBody, Body.after]
    rw [hbody, hcs]
    exact .openTextEscape body
  · have hbody : textBody cs = .broken (.unknownEscape e) (spelling ++ ['\\', e]) := by
      rw [hcs, body.textBody_append]
      simp [textBody, Body.after, unknown]
    rw [hbody, hcs]
    exact .textEscape body unknown

theorem closeCharacter_meets {c : Char} {spelling : List Char} (body : IsCharacterBody spelling c)
    (cs : List Char) :
    ((closeCharacter c spelling cs).toReading .char '\'').Meets ('\'' :: (spelling ++ cs)) := by
  by_cases hclosed : cs.head? = some '\''
  · obtain ⟨rest, rfl⟩ := List.head?_eq_some_iff.1 hclosed
    refine ⟨by simp, .character body, fun digits => ?_⟩
    exact absurd (digits '\'' (List.mem_cons_self ..)) (by decide)
  · rw [closeCharacter_eq_broken hclosed]
    exact .longCharacter body hclosed

theorem character_meets (cs : List Char) :
    ((characterBody cs).toReading .char '\'').Meets ('\'' :: cs) := by
  fun_cases characterBody cs with
  | case1 => exact .openCharacter
  | case2 cs => exact .emptyCharacter
  | case3 => exact .openCharacterEscape
  | case4 e cs decoded known => exact closeCharacter_meets (.escape known) cs
  | case5 e cs unknown => exact .characterEscape unknown
  | case6 cs => exact .brokenCharacter
  | case7 c cs notQuote notEscape notBreak =>
      exact closeCharacter_meets (.plain notQuote notEscape notBreak) cs

theorem integer_meets {c : Char} (h : c.isDigit = true) (cs : List Char) :
    (integer c cs).Meets (c :: cs) := by
  have hdigits : ∀ d ∈ c :: cs.takeWhile Char.isDigit, d.isDigit = true := by
    rw [List.forall_mem_cons]
    exact ⟨h, fun d hd => List.mem_takeWhile_imp hd⟩
  have hrange := Integer.ofNumeral?_eq_none_iff (List.cons_ne_nil _ _) (List.all_eq_true.2 hdigits)
  have hsplit : (c :: cs.takeWhile Char.isDigit) ++ cs.dropWhile Char.isDigit = c :: cs := by
    rw [List.cons_append, List.takeWhile_append_dropWhile]
  unfold integer
  cases hnumeral : Integer.ofNumeral? (c :: cs.takeWhile Char.isDigit) with
  | some i =>
      refine ⟨hsplit, .integer hdigits, fun _ => ?_⟩
      by_contra hlarge
      have hnone := hrange.2 (by omega)
      rw [hnumeral] at hnone
      cases hnone
  | none =>
      have hends : ∀ d ∈ (cs.dropWhile Char.isDigit).head?, d.isDigit = false := by
        intro d hd
        have hnot := List.head?_dropWhile_not Char.isDigit cs
        rw [Option.mem_def.1 hd] at hnot
        exact hnot
      have hlarge : IsLarge (c :: cs.takeWhile Char.isDigit) (cs.dropWhile Char.isDigit) :=
        ⟨List.cons_ne_nil _ _, hdigits, hends, hrange.1 hnumeral⟩
      have hmalformed := IsMalformed.largeInteger hlarge
      rw [hsplit] at hmalformed
      exact hmalformed

theorem word_meets {c : Char} (h : startsWord c = true) (cs : List Char) :
    (word c cs).Meets (c :: cs) := by
  refine ⟨?_, .word h fun d hd => List.mem_takeWhile_imp hd, fun digits => ?_⟩
  · rw [List.cons_append, List.takeWhile_append_dropWhile]
  · have hdigit := digits c (List.mem_cons_self ..)
    rw [startsWord_eq_false_of_isDigit hdigit] at h
    cases h

theorem symbol_meets {c : Char} (h : IsMark c) (cs : List Char) :
    (symbol c cs).Meets (c :: cs) := by
  have hdigits : ∀ others : List Char, (∀ d ∈ c :: others, d.isDigit = true) →
      Integer.digitsValue (c :: others) ≤ 9223372036854775807 := by
    intro others digits
    have hdigit := digits c (List.mem_cons_self ..)
    rw [h.2.2.2.2.1] at hdigit
    cases hdigit
  unfold symbol
  cases hpair : cs.head?.bind (Kind.ofPair? c) with
  | some kind =>
      obtain ⟨d, hhead, known⟩ := Option.bind_eq_some_iff.1 hpair
      obtain ⟨rest, rfl⟩ := List.head?_eq_some_iff.1 hhead
      exact ⟨rfl, .pair known, hdigits _⟩
  | none =>
      cases hsymbol : Kind.ofSymbol? c with
      | some kind => exact ⟨rfl, .symbol hsymbol, hdigits _⟩
      | none => exact .unrecognized h hsymbol hpair

theorem read_meets {c : Char} (blank : Character.isBlank c = false) (hash : c ≠ '#')
    (cs : List Char) : (read c cs).Meets (c :: cs) := by
  by_cases htext : c = '"'
  · subst htext
    exact text_meets cs
  · by_cases hcharacter : c = '\''
    · subst hcharacter
      exact character_meets cs
    · by_cases hdigit : c.isDigit = true
      · rw [read_digit hdigit]
        exact integer_meets hdigit cs
      · by_cases hword : startsWord c = true
        · rw [read_word hword]
          exact word_meets hword cs
        · have mark : IsMark c :=
            ⟨blank, hash, htext, hcharacter, Bool.eq_false_iff.2 hdigit, Bool.eq_false_iff.2 hword⟩
          rw [read_mark mark]
          exact symbol_meets mark cs

theorem takeWhile_append_of_ends {p : Char → Bool} {front rest : List Char}
    (h : ∀ d ∈ front, p d = true) (ends : ∀ d ∈ rest.head?, p d = false) :
    (front ++ rest).takeWhile p = front := by
  rw [List.takeWhile_append_of_pos h]
  cases rest with
  | nil => exact List.append_nil front
  | cons d others =>
      have hd : ¬ p d = true := Bool.eq_false_iff.1 (ends d rfl)
      rw [List.takeWhile_cons_of_neg hd, List.append_nil]

/-- A lexeme at the front of a text is read at least as far as it goes, and its kind and content are
those that are found if nothing more is read.  Only a run of digits may be refused. -/
theorem read_of_isLexeme {spelling content rest cs : List Char} {kind : Kind} {c : Char}
    (h : IsLexeme spelling kind content) (hcs : spelling ++ rest = c :: cs) :
    ∃ more,
      (∃ foundKind foundContent left,
        read c cs = .lexeme foundKind foundContent (spelling ++ more) left ∧
          (more = [] → foundKind = kind ∧ foundContent = content)) ∨
      read c cs = .malformed .integerTooLarge (spelling ++ more) := by
  cases h with
  | @word first others start continued =>
      rw [List.cons_append] at hcs
      obtain ⟨rfl, rfl⟩ := List.cons.inj hcs
      -- a word is read on through all characters of `rest` that continue one
      refine ⟨rest.takeWhile continuesWord, .inl ?_⟩
      rw [read_word start, word, List.takeWhile_append_of_pos continued]
      refine ⟨_, _, _, rfl, fun hmore => ?_⟩
      rw [hmore, List.append_nil]
      exact ⟨rfl, rfl⟩
  | @integer first others digits =>
      rw [List.cons_append] at hcs
      obtain ⟨rfl, rfl⟩ := List.cons.inj hcs
      obtain ⟨hfirst, hothers⟩ := List.forall_mem_cons.1 digits
      refine ⟨rest.takeWhile Char.isDigit, ?_⟩
      rw [read_digit hfirst, integer, List.takeWhile_append_of_pos hothers]
      cases Integer.ofNumeral? (first :: (others ++ rest.takeWhile Char.isDigit)) with
      | none => exact .inr rfl
      | some i =>
          refine .inl ⟨_, _, _, rfl, fun hmore => ?_⟩
          rw [hmore, List.append_nil]
          exact ⟨rfl, rfl⟩
  | @text inside _ body =>
      rw [List.cons_append, List.append_assoc] at hcs
      obtain ⟨rfl, rfl⟩ := List.cons.inj hcs
      refine ⟨[], .inl ⟨.string, content, rest, ?_, fun _ => ⟨rfl, rfl⟩⟩⟩
      rw [read_text, List.singleton_append, body.textBody_closed, Body.toReading, List.append_nil]
  | @character inside decoded body =>
      rw [List.cons_append, List.append_assoc] at hcs
      obtain ⟨rfl, rfl⟩ := List.cons.inj hcs
      refine ⟨[], .inl ⟨.char, [decoded], rest, ?_, fun _ => ⟨rfl, rfl⟩⟩⟩
      rw [read_character, body.characterBody_append, List.singleton_append, closeCharacter,
        if_pos rfl, Body.toReading, List.append_nil]
  | @pair first second _ known =>
      obtain ⟨rfl, rfl⟩ := List.cons.inj hcs
      refine ⟨[], .inl ⟨kind, [first, second], rest, ?_, fun _ => ⟨rfl, rfl⟩⟩⟩
      rw [read_mark (isMark_of_ofPair? known), symbol]
      simp [known]
  | @symbol first _ known =>
      rw [List.singleton_append, List.cons.injEq] at hcs
      obtain ⟨rfl, rfl⟩ := hcs
      rw [read_mark (isMark_of_ofSymbol? known), symbol]
      -- the character behind the mark may make a pair of it
      cases hpair : rest.head?.bind (Kind.ofPair? first) with
      | none =>
          refine ⟨[], .inl ⟨kind, [first], rest, ?_, fun _ => ⟨rfl, rfl⟩⟩⟩
          rw [known]
          rfl
      | some found =>
          refine ⟨rest.take 1, .inl ⟨found, _, _, rfl, fun hmore => ?_⟩⟩
          obtain ⟨d, hhead, -⟩ := Option.bind_eq_some_iff.1 hpair
          obtain ⟨others, rfl⟩ := List.head?_eq_some_iff.1 hhead
          cases hmore

theorem read_of_isMalformed {cs taken : List Char} {c : Char} {fault : Fault}
    (h : IsMalformed (c :: cs) fault taken) : read c cs = .malformed fault taken := by
  generalize hwhole : c :: cs = whole at h
  cases h with
  | openText body =>
      obtain ⟨rfl, rfl⟩ := List.cons.inj hwhole
      have hbody := body.textBody_append []
      rw [List.append_nil] at hbody
      rw [read_text, hbody]
      simp [textBody, Body.after, Body.toReading]
  | openTextEscape body =>
      obtain ⟨rfl, rfl⟩ := List.cons.inj hwhole
      rw [read_text, body.textBody_append]
      simp [textBody, Body.after, Body.toReading]
  | textEscape body unknown =>
      obtain ⟨rfl, rfl⟩ := List.cons.inj hwhole
      rw [read_text, body.textBody_append]
      simp [textBody, Body.after, Body.toReading, unknown]
  | openCharacter =>
      obtain ⟨rfl, rfl⟩ := List.cons.inj hwhole
      rfl
  | openCharacterEscape =>
      obtain ⟨rfl, rfl⟩ := List.cons.inj hwhole
      rfl
  | characterEscape unknown =>
      obtain ⟨rfl, rfl⟩ := List.cons.inj hwhole
      simp [read_character, characterBody, unknown, Body.toReading]
  | emptyCharacter =>
      obtain ⟨rfl, rfl⟩ := List.cons.inj hwhole
      rfl
  | brokenCharacter =>
      obtain ⟨rfl, rfl⟩ := List.cons.inj hwhole
      rfl
  | longCharacter body notClosed =>
      obtain ⟨rfl, rfl⟩ := List.cons.inj hwhole
      rw [read_character, body.characterBody_append, closeCharacter_eq_broken notClosed,
        Body.toReading]
  | largeInteger large =>
      obtain ⟨first, others, rfl⟩ := List.exists_cons_of_ne_nil large.nonempty
      rw [List.cons_append] at hwhole
      obtain ⟨rfl, rfl⟩ := List.cons.inj hwhole
      obtain ⟨hfirst, hothers⟩ := List.forall_mem_cons.1 large.all
      have hnumeral := (Integer.ofNumeral?_eq_none_iff large.nonempty
        (List.all_eq_true.2 large.all)).2 large.large
      rw [read_digit hfirst, integer, takeWhile_append_of_ends hothers large.ends, hnumeral]
  | unrecognized mark noSymbol noPair =>
      obtain ⟨rfl, rfl⟩ := List.cons.inj hwhole
      rw [read_mark mark, symbol]
      simp only [noPair, noSymbol]

def StartsNoGap (c : Char) : Prop := Character.isBlank c = false ∧ c ≠ '#'

instance (c : Char) : Decidable (StartsNoGap c) := inferInstanceAs (Decidable (_ ∧ _))

theorem startsNoGap_of_isDigit {c : Char} (h : c.isDigit = true) : StartsNoGap c := by
  refine ⟨Character.isBlank_eq_false_of_isDigit h, ?_⟩
  rintro rfl
  exact absurd h (by decide)

theorem IsLexeme.startsNoGap {spelling content : List Char} {kind : Kind}
    (h : IsLexeme spelling kind content) : ∃ c cs, spelling = c :: cs ∧ StartsNoGap c := by
  cases h with
  | @word c cs start =>
      refine ⟨c, cs, rfl, ?_, ?_⟩
      · rw [Bool.eq_false_iff]
        intro hblank
        rw [startsWord_eq_false_of_isBlank hblank] at start
        cases start
      · rintro rfl
        exact absurd start (by decide)
  | @integer c cs digits =>
      exact ⟨c, cs, rfl, startsNoGap_of_isDigit (digits c (List.mem_cons_self ..))⟩
  | text => exact ⟨_, _, rfl, by decide⟩
  | character => exact ⟨_, _, rfl, by decide⟩
  | pair known =>
      obtain ⟨hblank, hhash, -⟩ := isMark_of_ofPair? known
      exact ⟨_, _, rfl, hblank, hhash⟩
  | symbol known =>
      obtain ⟨hblank, hhash, -⟩ := isMark_of_ofSymbol? known
      exact ⟨_, _, rfl, hblank, hhash⟩

theorem IsMalformed.startsNoGap {text taken : List Char} {fault : Fault}
    (h : IsMalformed text fault taken) : ∃ c cs, text = c :: cs ∧ StartsNoGap c := by
  cases h with
  | largeInteger large =>
      obtain ⟨c, cs, rfl⟩ := List.exists_cons_of_ne_nil large.nonempty
      exact ⟨c, _, rfl, startsNoGap_of_isDigit (large.all c (List.mem_cons_self ..))⟩
  | unrecognized mark => exact ⟨_, _, rfl, mark.1, mark.2.1⟩
  | _ => exact ⟨_, _, rfl, by decide⟩

theorem IsMalformed.splits {text taken : List Char} {fault : Fault}
    (h : IsMalformed text fault taken) : taken ≠ [] ∧ taken <+: text := by
  obtain ⟨c, cs, rfl, -⟩ := h.startsNoGap
  have hsplits := read_splits c cs
  rw [read_of_isMalformed h] at hsplits
  exact hsplits

theorem IsMalformed.isLarge {text taken : List Char} (h : IsMalformed text .integerTooLarge taken) :
    ∃ rest, text = taken ++ rest ∧ IsLarge taken rest := by
  cases h with
  | largeInteger large => exact ⟨_, rfl, large⟩

theorem IsLarge.isLexeme {digits rest : List Char} (h : IsLarge digits rest) :
    IsLexeme digits .integer digits := by
  obtain ⟨c, cs, rfl⟩ := List.exists_cons_of_ne_nil h.nonempty
  exact .integer h.all

theorem begins_iff {spelling content rest cs : List Char} {kind : Kind} {c : Char}
    (noGap : StartsNoGap c) (hcs : spelling ++ rest = c :: cs) :
    Begins spelling rest kind content ↔ read c cs = .lexeme kind content spelling rest := by
  have hmeets := read_meets noGap.1 noGap.2 cs
  constructor
  · intro h
    -- since the spelling is the longest lexeme, reading goes no further
    have hnil : ∀ {more : List Char} {otherKind : Kind} {otherContent : List Char},
        spelling ++ more <+: spelling ++ rest →
          IsLexeme (spelling ++ more) otherKind otherContent → more = [] := by
      intro more otherKind otherContent hfront hlexeme
      have hlength := h.longest hfront hlexeme
      rw [List.length_append] at hlength
      exact List.eq_nil_of_length_eq_zero (by omega)
    obtain ⟨more, ⟨foundKind, foundContent, left, hread, hsame⟩ | hread⟩ :=
      read_of_isLexeme h.lexeme hcs
    · rw [hread] at hmeets
      obtain ⟨hsplit, hlexeme, -⟩ := hmeets
      have hmore := hnil (hcs ▸ hsplit ▸ List.prefix_append _ _) hlexeme
      obtain ⟨rfl, rfl⟩ := hsame hmore
      subst hmore
      rw [List.append_nil] at hread hsplit
      rw [hread, List.append_cancel_left (hsplit.trans hcs.symm)]
    · -- a number that is refused would be a longer lexeme or the same one, which is in range
      rw [hread] at hmeets
      obtain ⟨left, hsplit, large⟩ := hmeets.isLarge
      have hmore := hnil (hcs ▸ hsplit ▸ List.prefix_append _ _) large.isLexeme
      subst hmore
      rw [List.append_nil] at large
      have hrange := h.inRange large.all
      have hlarge := large.large
      omega
  · intro hread
    rw [hread] at hmeets
    obtain ⟨-, hlexeme, hrange⟩ := hmeets
    refine ⟨hlexeme, ?_, hrange⟩
    rintro other otherKind otherContent ⟨left, hother⟩ hotherLexeme
    obtain ⟨more, ⟨_, _, _, hother', -⟩ | hother'⟩ :=
      read_of_isLexeme hotherLexeme (hother.trans hcs)
    · rw [hread, Reading.lexeme.injEq] at hother'
      rw [hother'.2.2.1, List.length_append]
      omega
    · rw [hread] at hother'
      cases hother'

/-- Whether a text goes on, but neither with a gap nor with a lexeme, or with a number that is out
of range. -/
def IsUnreadable (text : List Char) : Prop :=
  ∃ c cs, text = c :: cs ∧ StartsNoGap c ∧
    ((∀ spelling kind content, spelling <+: text → ¬ IsLexeme spelling kind content) ∨
      ∃ digits rest, text = digits ++ rest ∧ IsLarge digits rest)

/-- The ways in which a text can be malformed are complete. -/
theorem exists_isMalformed_iff {text : List Char} :
    (∃ fault taken, IsMalformed text fault taken) ↔ IsUnreadable text := by
  constructor
  · rintro ⟨fault, taken, h⟩
    obtain ⟨c, cs, rfl, noGap⟩ := h.startsNoGap
    refine ⟨c, cs, rfl, noGap, ?_⟩
    have hread := read_of_isMalformed h
    by_cases hlarge : fault = .integerTooLarge
    · subst hlarge
      obtain ⟨rest, hsplit, large⟩ := h.isLarge
      exact .inr ⟨taken, rest, hsplit, large⟩
    · refine .inl ?_
      rintro spelling kind content ⟨rest, hsplit⟩ hlexeme
      obtain ⟨more, ⟨_, _, _, hother, -⟩ | hother⟩ := read_of_isLexeme hlexeme hsplit
      · rw [hread] at hother
        cases hother
      · rw [hread, Reading.malformed.injEq] at hother
        exact hlarge hother.1
  · rintro ⟨c, cs, rfl, noGap, hlexeme | ⟨digits, rest, hsplit, large⟩⟩
    · have hmeets := read_meets noGap.1 noGap.2 cs
      cases hread : read c cs with
      | lexeme kind content taken rest =>
          rw [hread] at hmeets
          obtain ⟨hsplit, hfound, -⟩ := hmeets
          exact absurd hfound (hlexeme taken kind content ⟨rest, hsplit⟩)
      | malformed fault taken =>
          rw [hread] at hmeets
          exact ⟨fault, taken, hmeets⟩
    · rw [hsplit]
      exact ⟨_, _, .largeInteger large⟩

end Script.Lexeme
