import Script.Proofs.Token.Boundary
import Script.Token.Scan
/-!
# The layout of a text

A text that can be scanned is made of lexemes with gaps between them, and each lexeme is the longest
one that the text goes on with.  A scan finds this layout up to the first place where the text goes
on with neither.
-/

namespace Script

namespace Scan

/-- Blanks and comments in front of the text `following`.  A comment goes up to the end of its
line. -/
inductive IsGap (following : List Char) : List Char → Prop
  | nil : IsGap following []
  | blank {c : Char} {gap : List Char} (isBlank : Character.isBlank c = true)
      (others : IsGap following gap) : IsGap following (c :: gap)
  | comment {words gap : List Char} (sameLine : '\n' ∉ words)
      (ends : ∀ c ∈ (gap ++ following).head?, c = '\n') (others : IsGap following gap) :
      IsGap following ('#' :: (words ++ gap))

def lineAfter (before : List Char) : Nat := 1 + before.count '\n'

/-- The text `consumed`, with the text `before` in front of it and the text `rest` after it, is made
of gaps and lexemes, and the lexemes are those of the tokens. -/
inductive Layout (rest : List Char) : List Char → List Char → List Token → Prop
  | done {before gap : List Char} (isGap : IsGap rest gap) : Layout rest before gap []
  | token {before gap spelling others content : List Char} {kind : Kind} {tokens : List Token}
      (isGap : IsGap (spelling ++ (others ++ rest)) gap)
      (begins : Lexeme.Begins spelling (others ++ rest) kind content)
      (next : Layout rest (before ++ (gap ++ spelling)) others tokens) :
      Layout rest before (gap ++ (spelling ++ others))
        (⟨kind, String.ofList content, lineAfter (before ++ gap)⟩ :: tokens)

theorem lineAfter_append (before others : List Char) :
    lineAfter (before ++ others) = lineAfter before + others.count '\n' := by
  rw [lineAfter, lineAfter, List.count_append]
  omega

theorem ofChars_gap {following gap : List Char} (h : IsGap following gap) (before : List Char) :
    ofChars (lineAfter before) (gap ++ following) =
      ofChars (lineAfter (before ++ gap)) following := by
  induction h generalizing before with
  | nil => rw [List.append_nil, List.nil_append]
  | @blank c gap isBlank _ ih =>
      have hnext := ih (before ++ [c])
      rw [List.append_assoc, List.singleton_append] at hnext
      rw [List.cons_append, ofChars_cons, ← hnext, lineAfter_append]
      by_cases hline : c = '\n'
      · rw [if_pos hline, hline, List.count_singleton_self]
      · rw [if_neg hline, if_pos isBlank, List.count_singleton, if_neg (by simpa using hline)]
        rfl
  | @comment words gap sameLine ends _ ih =>
      have hnext := ih (before ++ '#' :: words)
      have hcount : ('#' :: words).count '\n' = 0 := by
        rw [List.count_eq_zero]
        simpa using sameLine
      have hwords : ∀ c ∈ words, decide (c ≠ '\n') = true := by
        intro c mem
        rw [decide_eq_true_eq]
        rintro rfl
        exact sameLine mem
      have hdrop : (words ++ (gap ++ following)).dropWhile (· ≠ '\n') = gap ++ following := by
        rw [List.dropWhile_append_of_pos hwords]
        cases hafter : gap ++ following with
        | nil => rfl
        | cons c cs =>
            rw [hafter] at ends
            exact List.dropWhile_cons_of_neg (by simpa using ends c rfl)
      rw [List.append_assoc, List.cons_append] at hnext
      rw [← hnext, lineAfter_append, hcount, List.cons_append, List.append_assoc, ofChars_cons,
        if_neg (by decide), if_neg (by decide), if_pos rfl, hdrop]
      rfl

/-- The tokens of a layout are found before those of the text that follows. -/
theorem ofChars_layout {rest before consumed : List Char} {tokens : List Token}
    (h : Layout rest before consumed tokens) :
    ofChars (lineAfter before) (consumed ++ rest) =
      ⟨tokens ++ (ofChars (lineAfter (before ++ consumed)) rest).tokens,
        (ofChars (lineAfter (before ++ consumed)) rest).ending⟩ := by
  induction h with
  | done isGap => rw [ofChars_gap isGap, List.nil_append]
  | @token before gap spelling others content kind tokens isGap begins _ ih =>
      obtain ⟨c, cs, rfl, noGap⟩ := begins.lexeme.startsNoGap
      have hread := (Lexeme.begins_iff noGap List.cons_append).1 begins
      have hline : c ≠ '\n' := by
        rintro rfl
        exact absurd noGap (by decide)
      have hstep : ofChars (lineAfter (before ++ gap)) (c :: (cs ++ (others ++ rest))) =
          (ofChars (lineAfter (before ++ (gap ++ c :: cs))) (others ++ rest)).cons
            ⟨kind, String.ofList content, lineAfter (before ++ gap)⟩ := by
        rw [ofChars_cons, if_neg hline, if_neg (Bool.eq_false_iff.1 noGap.1), if_neg noGap.2, hread]
        simp only
        rw [← lineAfter_append, List.append_assoc]
      have hwhole : gap ++ (c :: cs ++ others) ++ rest = gap ++ (c :: cs ++ (others ++ rest)) := by
        simp only [List.append_assoc, List.cons_append]
      rw [hwhole, ofChars_gap isGap, List.cons_append, hstep, ih, Scan.cons]
      simp only [List.append_assoc, List.cons_append]

/-- Each token of a layout is the longest one with which the text goes on somewhere. -/
theorem Layout.exists_begins {rest before consumed : List Char} {tokens : List Token}
    (h : Layout rest before consumed tokens) : ∀ token ∈ tokens, ∃ spelling following,
      Lexeme.Begins spelling following token.kind token.lexeme.toList := by
  induction h with
  | done => simp
  | @token _ _ spelling others content kind _ _ begins _ ih =>
      refine List.forall_mem_cons.2 ⟨⟨spelling, others ++ rest, ?_⟩, ih⟩
      rwa [String.toList_ofList]

theorem Layout.isOpen {rest before consumed : List Char} {tokens : List Token}
    (h : Layout rest before consumed tokens) : ∀ token ∈ tokens, token.kind ≠ .eof := by
  intro token mem
  obtain ⟨spelling, following, begins⟩ := h.exists_begins token mem
  exact begins.lexeme.kind_ne_eof

/-- A gap is still one if the text after it begins in the same way or with a line break. -/
theorem IsGap.of_head? {following other gap : List Char} (h : IsGap following gap)
    (hhead : ∀ c ∈ other.head?, c = '\n' ∨ c ∈ following.head?) : IsGap other gap := by
  induction h with
  | nil => exact .nil
  | blank isBlank _ ih => exact .blank isBlank ih
  | @comment words gap sameLine ends _ ih =>
      refine .comment sameLine ?_ ih
      cases gap with
      | nil => exact fun c hc => (hhead c hc).elim id (ends c)
      | cons d gap => exact ends

theorem Layout.of_head? {rest other before consumed : List Char} {tokens : List Token}
    (h : Layout rest before consumed tokens)
    (hhead : ∀ c ∈ other.head?, c = '\n' ∨ c ∈ rest.head?) :
    Layout other before consumed tokens := by
  induction h with
  | done isGap => exact .done (isGap.of_head? hhead)
  | @token before gap spelling others content kind tokens isGap begins _ ih =>
      have hothers : ∀ c ∈ (others ++ other).head?, c = '\n' ∨ c ∈ (others ++ rest).head? := by
        cases others with
        | nil => exact hhead
        | cons d others => exact fun _ hc => .inr hc
      obtain ⟨c, cs, rfl, -⟩ := begins.lexeme.startsNoGap
      refine .token (isGap.of_head? fun _ hc => .inr hc) (begins.of_head? fun d hd => ?_) ih
      rcases hothers d hd with rfl | hsame
      · exact .inl (by decide)
      · exact .inr hsame

theorem Layout.isolated {rest before consumed : List Char} {tokens : List Token}
    (h : Layout rest before consumed tokens) : Layout [] before consumed tokens :=
  h.of_head? (by simp)

theorem Layout.prepend {rest before piece consumed : List Char} {tokens : List Token}
    (hpiece : ∀ {gap following : List Char}, gap ++ following = consumed ++ rest →
      IsGap following gap → IsGap following (piece ++ gap))
    (h : Layout rest (before ++ piece) consumed tokens) :
    Layout rest before (piece ++ consumed) tokens := by
  cases h with
  | done isGap => exact .done (hpiece rfl isGap)
  | @token _ gap spelling others content kind tokens isGap begins next =>
      have hgap := hpiece (by simp only [List.append_assoc]) isGap
      rw [List.append_assoc, ← List.append_assoc piece] at next
      rw [List.append_assoc, ← List.append_assoc piece]
      exact .token hgap begins next

/-- Every text has a layout up to its end or to a place where it is malformed. -/
theorem exists_layout (text before : List Char) :
    ∃ consumed rest tokens, text = consumed ++ rest ∧ Layout rest before consumed tokens ∧
      (rest = [] ∨ ∃ fault taken, Lexeme.IsMalformed rest fault taken) := by
  -- comments and lexemes take any number of characters, so the induction is on the length
  induction hn : text.length using Nat.strongRecOn generalizing text before with
  | ind n ih =>
    cases text with
    | nil => exact ⟨[], [], [], rfl, .done .nil, .inl rfl⟩
    | cons c cs =>
        rw [List.length_cons] at hn
        by_cases hblank : Character.isBlank c = true
        · obtain ⟨consumed, rest, tokens, rfl, layout, hend⟩ :=
            ih cs.length (by omega) cs (before ++ [c]) rfl
          refine ⟨c :: consumed, rest, tokens, rfl, ?_, hend⟩
          exact layout.prepend fun _ isGap => .blank hblank isGap
        · by_cases hhash : c = '#'
          · have hlength := length_dropWhile_le (· ≠ '\n') cs
            have hsplit := List.takeWhile_append_dropWhile (p := (· ≠ '\n')) (l := cs)
            obtain ⟨consumed, rest, tokens, hrest, layout, hend⟩ :=
              ih _ (by omega) (cs.dropWhile (· ≠ '\n')) (before ++ '#' :: cs.takeWhile (· ≠ '\n'))
                rfl
            refine ⟨'#' :: cs.takeWhile (· ≠ '\n') ++ consumed, rest, tokens, ?_, ?_, hend⟩
            · rw [hhash, List.append_assoc, ← hrest, List.cons_append, hsplit]
            · refine layout.prepend fun hafter isGap => .comment ?_ ?_ isGap
              · intro mem
                have := List.mem_takeWhile_imp mem
                simp at this
              · intro d hd
                rw [hafter, ← hrest] at hd
                have hnot := List.head?_dropWhile_not (· ≠ '\n') cs
                rw [Option.mem_def.1 hd] at hnot
                simpa using hnot
          · have noGap : Lexeme.StartsNoGap c := ⟨Bool.eq_false_iff.2 hblank, hhash⟩
            have hmeets := Lexeme.read_meets noGap.1 noGap.2 cs
            cases hread : Lexeme.read c cs with
            | malformed fault taken =>
                rw [hread] at hmeets
                exact ⟨[], c :: cs, [], rfl, .done .nil, .inr ⟨fault, taken, hmeets⟩⟩
            | lexeme kind content taken left =>
                rw [hread] at hmeets
                have hsplit := hmeets.1
                have hleft := Lexeme.length_rest_lt hread
                rw [List.length_cons] at hleft
                obtain ⟨consumed, rest, tokens, rfl, layout, hend⟩ :=
                  ih left.length (by omega) left (before ++ ([] ++ taken)) rfl
                have begins := (Lexeme.begins_iff noGap hsplit).2 hread
                refine ⟨[] ++ (taken ++ consumed), rest, _, ?_, .token .nil begins layout, hend⟩
                rw [List.nil_append, List.append_assoc, hsplit]

end Scan

open Scan

theorem scan_of_layout {source : String} {tokens : List Token}
    (h : Layout [] [] source.toList tokens) :
    scan source = .ok (tokens ++ [⟨.eof, "", lineAfter source.toList⟩]) := by
  have hrun := ofChars_layout h
  rw [List.append_nil, List.nil_append, ofChars_nil, List.append_nil] at hrun
  have hline : lineAfter [] = 1 := rfl
  rw [scan, ← hline, hrun]

theorem scan_of_isMalformed {source : String} {consumed rest taken : List Char}
    {tokens : List Token} {fault : Lexeme.Fault} (hsplit : source.toList = consumed ++ rest)
    (layout : Layout rest [] consumed tokens) (h : Lexeme.IsMalformed rest fault taken) :
    scan source = .error ⟨fault, lineAfter consumed,
      tokens ++ [⟨.bad, String.ofList taken, lineAfter consumed⟩]⟩ := by
  have hrun := ofChars_layout layout
  obtain ⟨c, cs, rfl, noGap⟩ := h.startsNoGap
  have hline : c ≠ '\n' := by
    rintro rfl
    exact absurd noGap (by decide)
  have hstop : ofChars (lineAfter consumed) (c :: cs) =
      ⟨[], .malformed fault (lineAfter consumed) taken⟩ := by
    rw [ofChars_cons, if_neg hline, if_neg (Bool.eq_false_iff.1 noGap.1), if_neg noGap.2,
      Lexeme.read_of_isMalformed h]
  rw [List.nil_append, hstop, List.append_nil] at hrun
  have hfirst : lineAfter [] = 1 := rfl
  rw [scan, ← hfirst, hsplit, hrun]

theorem exists_layout_of_scan {source : String} {tokens : List Token}
    (h : scan source = .ok tokens) : ∃ found, Layout [] [] source.toList found ∧
      tokens = found ++ [⟨.eof, "", lineAfter source.toList⟩] := by
  obtain ⟨consumed, rest, found, hsplit, layout, hend⟩ := exists_layout source.toList []
  rcases hend with rfl | ⟨fault, taken, hmalformed⟩
  · rw [List.append_nil] at hsplit
    rw [← hsplit] at layout
    rw [scan_of_layout layout, Except.ok.injEq] at h
    exact ⟨found, layout, h.symm⟩
  · rw [scan_of_isMalformed hsplit layout hmalformed] at h
    cases h

/-- A text is scanned as the tokens of its layout, or up to the first place where it goes on with
neither a gap nor a lexeme that is in range. -/
theorem scan_layout (source : String) :
    (∀ tokens, scan source = .ok tokens ↔
      ∃ found, Layout [] [] source.toList found ∧
        tokens = found ++ [⟨.eof, "", lineAfter source.toList⟩]) ∧
    (∀ error, scan source = .error error ↔
      ∃ consumed rest found taken, source.toList = consumed ++ rest ∧
        Layout rest [] consumed found ∧ Lexeme.IsMalformed rest error.fault taken ∧
        error.line = lineAfter consumed ∧
        error.tokens = found ++ [⟨.bad, String.ofList taken, lineAfter consumed⟩] ∧
        taken ≠ [] ∧ taken <+: rest ∧
        scan (String.ofList consumed) = .ok (found ++ [⟨.eof, "", lineAfter consumed⟩])) ∧
    ((∃ error, scan source = .error error) ↔
      ∃ consumed rest found, source.toList = consumed ++ rest ∧ Layout rest [] consumed found ∧
        Lexeme.IsUnreadable rest) := by
  obtain ⟨consumed, rest, found, hsplit, layout, hend⟩ := exists_layout source.toList []
  -- the text as a whole decides which of the two outcomes there is
  have houtcome : (Layout [] [] source.toList found ∧
      scan source = .ok (found ++ [⟨.eof, "", lineAfter source.toList⟩])) ∨
      ∃ fault taken, Lexeme.IsMalformed rest fault taken ∧
        scan source = .error ⟨fault, lineAfter consumed,
          found ++ [⟨.bad, String.ofList taken, lineAfter consumed⟩]⟩ := by
    rcases hend with rfl | ⟨fault, taken, h⟩
    · rw [List.append_nil] at hsplit
      rw [← hsplit] at layout
      exact .inl ⟨layout, scan_of_layout layout⟩
    · exact .inr ⟨fault, taken, h, scan_of_isMalformed hsplit layout h⟩
  refine ⟨fun tokens => ?_, fun error => ?_, ?_⟩
  · constructor
    · exact exists_layout_of_scan
    · rintro ⟨found, layout, rfl⟩
      exact scan_of_layout layout
  · constructor
    · intro h
      rcases houtcome with ⟨-, hscan⟩ | ⟨fault, taken, hmalformed, hscan⟩
      · rw [hscan] at h
        cases h
      · rw [hscan, Except.error.injEq] at h
        subst h
        have hsplits := hmalformed.splits
        have halone := layout.isolated
        rw [← String.toList_ofList (l := consumed)] at halone
        have hconsumed := scan_of_layout halone
        rw [String.toList_ofList] at hconsumed
        exact ⟨consumed, rest, found, taken, hsplit, layout, hmalformed, rfl, rfl, hsplits.1,
          hsplits.2, hconsumed⟩
    · rintro ⟨consumed, rest, found, taken, hsplit, layout, h, hline, htokens, -⟩
      rw [scan_of_isMalformed hsplit layout h, ← htokens, ← hline]
  · constructor
    · rintro ⟨error, h⟩
      rcases houtcome with ⟨-, hscan⟩ | ⟨fault, taken, hmalformed, -⟩
      · rw [hscan] at h
        cases h
      · have hunreadable := Lexeme.exists_isMalformed_iff.1 ⟨fault, taken, hmalformed⟩
        exact ⟨consumed, rest, found, hsplit, layout, hunreadable⟩
    · rintro ⟨consumed, rest, found, hsplit, layout, hunreadable⟩
      obtain ⟨fault, taken, h⟩ := Lexeme.exists_isMalformed_iff.2 hunreadable
      exact ⟨_, scan_of_isMalformed hsplit layout h⟩

end Script
