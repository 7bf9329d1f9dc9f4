import Script.Proofs.Token.Pieces
import Script.Value
/-!
# Printed values

The printed form of a value is a lexeme with the value as its content, whatever characters a text is
made of.  Only a negative integer is printed as two lexemes.
-/

namespace Script

namespace Quoted

theorem escape_cases {quote : Char} (hquote : quote = '"' ∨ quote = '\'') (c : Char) :
    (escape quote c = [c] ∧ c ≠ quote ∧ c ≠ '\\' ∧ c ≠ '\n') ∨
      ∃ e, escape quote c = ['\\', e] ∧ unescape? e = some c := by
  by_cases hline : c = '\n'
  · exact .inr ⟨'n', by rw [escape, if_pos hline], by rw [hline]; rfl⟩
  by_cases htab : c = '\t'
  · exact .inr ⟨'t', by rw [escape, if_neg hline, if_pos htab], by rw [htab]; rfl⟩
  by_cases hreturn : c = '\r'
  · refine .inr ⟨'r', ?_, by rw [hreturn]; rfl⟩
    rw [escape, if_neg hline, if_neg htab, if_pos hreturn]
  by_cases hnull : c = '\x00'
  · refine .inr ⟨'0', ?_, by rw [hnull]; rfl⟩
    rw [escape, if_neg hline, if_neg htab, if_neg hreturn, if_pos hnull]
  rw [escape, if_neg hline, if_neg htab, if_neg hreturn, if_neg hnull]
  by_cases hself : c = '\\' ∨ c = quote
  · refine .inr ⟨c, if_pos hself, ?_⟩
    rcases hself with rfl | rfl
    · rfl
    · rcases hquote with rfl | rfl <;> rfl
  · rw [if_neg hself]
    exact .inl ⟨rfl, fun h => hself (.inr h), fun h => hself (.inl h), hline⟩

theorem newline_not_mem_encode {quote : Char} (hquote : quote = '"' ∨ quote = '\'')
    (cs : List Char) : '\n' ∉ encode quote cs := by
  have hend : '\n' ≠ quote := by rcases hquote with rfl | rfl <;> decide
  have hspelling : ∀ c ∈ cs, '\n' ∉ escape quote c := by
    intro c _
    rcases escape_cases hquote c with ⟨heq, -, -, hline⟩ | ⟨e, heq, known⟩
    · rw [heq, List.mem_singleton]
      exact hline.symm
    · have hescape : '\n' ≠ e := by
        rintro rfl
        cases known
      simp [heq, hescape]
  simpa [encode, hend] using hspelling

end Quoted

namespace Lexeme

theorem isTextBody_escape (cs : List Char) :
    IsTextBody (cs.flatMap (Quoted.escape '"')) cs := by
  induction cs with
  | nil => exact .nil
  | cons c cs ih =>
      rw [List.flatMap_cons]
      rcases Quoted.escape_cases (.inl rfl) c with ⟨heq, hquote, hescape, -⟩ | ⟨e, heq, known⟩
      · rw [heq]
        exact .plain hquote hescape ih
      · rw [heq]
        exact .escape known ih

theorem isCharacterBody_escape (c : Char) : IsCharacterBody (Quoted.escape '\'' c) c := by
  rcases Quoted.escape_cases (.inr rfl) c with ⟨heq, hquote, hescape, hline⟩ | ⟨e, heq, known⟩
  · rw [heq]
    exact .plain hquote hescape hline
  · rw [heq]
    exact .escape known

theorem begins_toDigits {n : Nat} (le : n ≤ 9223372036854775807) {rest : List Char}
    (ends : EndsLexeme rest) : Begins (Nat.toDigits 10 n) rest .integer (Nat.toDigits 10 n) := by
  have hdigits := Integer.isDigit_toDigits n
  obtain ⟨c, cs, hcons⟩ := List.exists_cons_of_ne_nil (Nat.toDigits_ne_nil (n := n) (b := 10))
  refine begins_of_inRange ?_ (fun _ => ?_) ends
  · rw [hcons] at hdigits ⊢
    exact .integer hdigits
  · rwa [Integer.digitsValue_toDigits]

end Lexeme

open Lexeme Scan

def Value.item : Value → Item
  | integer i => (.integer, i.render)
  | text s => (.string, s)
  | character c => (.char, String.singleton c)
  | boolean b => (.boolean, (boolean b).render)
  | void => (.identifier, "void")

def Value.IsUnsigned : Value → Prop
  | integer i => 0 ≤ i.val
  | _ => True

theorem Value.spells_render {v : Value} (h : v.IsUnsigned) {rest : List Char}
    (ends : EndsLexeme rest) : Spells rest v.render.toList [v.item] := by
  cases v with
  | integer i =>
      have hdigits := begins_toDigits (n := i.val.toNat) (by have := i.le_greatest; omega) ends
      have hspells := spells_lexeme hdigits
      rw [← Integer.toList_render_of_nonneg h, String.ofList_toList] at hspells
      exact hspells
  | text s =>
      have hlexeme := IsLexeme.text (isTextBody_escape s.toList)
      have hspells := spells_lexeme (begins_of_endsLexeme hlexeme (by decide) ends)
      rw [String.ofList_toList] at hspells
      rwa [Value.render, String.toList_ofList]
  | character c =>
      have hlexeme := IsLexeme.character (isCharacterBody_escape c)
      rw [Value.render, String.toList_ofList, Quoted.encode, List.flatMap_singleton]
      exact spells_lexeme (begins_of_endsLexeme hlexeme (by decide) ends)
  | boolean b =>
      cases b with
      | true => exact spells_word (.of_all rfl rfl) (by decide) ends
      | false => exact spells_word (.of_all rfl rfl) (by decide) ends
  | void => exact spells_word (.of_all rfl rfl) (by decide) ends

end Script
