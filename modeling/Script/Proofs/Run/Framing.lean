import Script.Proofs.Evaluation.Reports
import Script.Proofs.Line
import Script.Proofs.Node.Items
import Script.Proofs.Run.Stages
/-!
# The lines of a run

The output of a run can be taken apart again.  Every statement is answered on lines of its own: on
one for each of its reports, and on a last one, which tells of an error exactly when the statement
has failed.
-/

namespace Script

open Evaluation

def IsErrorLine (line : String) : Prop := "error: ".toList <+: line.toList

instance : DecidablePred IsErrorLine := fun line =>
  inferInstanceAs (Decidable ("error: ".toList <+: line.toList))

theorem isErrorLine_errorLine (message : String) : IsErrorLine (errorLine message) := by
  unfold IsErrorLine errorLine
  rw [String.toList_append]
  exact List.prefix_append _ _

theorem IsErrorLine.head? {line : String} (h : IsErrorLine line) :
    line.toList.head? = some 'e' := by
  obtain ⟨rest, hrest⟩ := h
  rw [← hrest]
  rfl

theorem Value.not_isErrorLine_render (v : Value) : ¬IsErrorLine v.render := by
  intro h
  have hhead := h.head?
  cases v with
  | integer i =>
      rw [render] at hhead
      by_cases hi : 0 ≤ i.val
      · rw [Integer.toList_render_of_nonneg hi] at hhead
        have hdigit := Integer.isDigit_toDigits _ _ (List.mem_of_head? hhead)
        exact absurd hdigit (by decide)
      · rw [Integer.toList_render_of_neg (Int.not_le.1 hi)] at hhead
        cases hhead
  | text s =>
      rw [render, String.toList_ofList] at hhead
      cases hhead
  | character c =>
      rw [render, String.toList_ofList] at hhead
      cases hhead
  | boolean b => cases b <;> exact absurd h (by decide)
  | void => exact absurd h (by decide)

namespace Evaluation

/-- Whether a response is written in error lines, one for each report, and a last line, which is an
error line if and only if the statement has failed, and is the value otherwise. -/
structure Response.IsFramedBy (response : Response) (errors : List String) (last : String) :
    Prop where
  lines_eq : response.lines = errors ++ [last]
  errors_eq : errors = response.reports.map ("error: " ++ ·.message)
  isErrorLine : ∀ line ∈ errors, IsErrorLine line
  isErrorLine_last_iff : IsErrorLine last ↔ ∃ fault, response.result = .error fault
  last_of_fault : ∀ fault, response.result = .error fault → last = "error: " ++ fault.message
  last_of_value : ∀ v, response.result = .ok v → last = v.render
  isLine : ∀ line ∈ response.lines, IsLine line

theorem Response.exists_isFramedBy {response : Response} (h : response.MentionsOnly IsLine) :
    ∃ errors last, response.IsFramedBy errors last := by
  have herrors : ∀ line ∈ response.reports.map (errorLine ·.message), IsErrorLine line := by
    rw [List.forall_mem_map]
    exact fun mismatch _ => isErrorLine_errorLine _
  have hlines := response.isLine_of_mem_lines h
  rcases response with ⟨reports, result⟩
  cases result with
  | ok v =>
      exact ⟨_, v.render, {
        lines_eq := rfl
        errors_eq := rfl
        isErrorLine := herrors
        isErrorLine_last_iff := by
          constructor
          · intro h
            exact absurd h v.not_isErrorLine_render
          · rintro ⟨fault, ⟨⟩⟩
        last_of_fault := by rintro fault ⟨⟩
        last_of_value := by
          rintro v ⟨⟩
          rfl
        isLine := hlines }⟩
  | error fault =>
      exact ⟨_, errorLine fault.message, {
        lines_eq := rfl
        errors_eq := rfl
        isErrorLine := herrors
        isErrorLine_last_iff := by
          constructor
          · intro _
            exact ⟨fault, rfl⟩
          · intro _
            exact isErrorLine_errorLine _
        last_of_fault := by
          rintro fault ⟨⟩
          rfl
        last_of_value := by rintro v ⟨⟩
        isLine := hlines }⟩

theorem Response.countP_lines (response : Response) :
    response.lines.countP (¬IsErrorLine ·) = if response.result.isOk then 1 else 0 := by
  have hreports : (response.reports.map (errorLine ·.message)).countP (¬IsErrorLine ·) = 0 := by
    rw [List.countP_eq_zero, List.forall_mem_map]
    intro mismatch _
    simpa using isErrorLine_errorLine _
  rw [lines, List.countP_append, hreports, Nat.zero_add, List.countP_singleton]
  cases response.result with
  | ok v => simp [v.not_isErrorLine_render, Except.isOk, Except.toBool]
  | error fault => simp [isErrorLine_errorLine, Except.isOk, Except.toBool]

theorem countP_linesOf (responses : List Response) :
    (linesOf responses).countP (¬IsErrorLine ·) = responses.countP (·.result.isOk) := by
  induction responses with
  | nil => rfl
  | cons response others ih =>
      rw [linesOf, List.flatMap_cons, List.countP_append, response.countP_lines, ← linesOf, ih,
        List.countP_cons, Nat.add_comm]

/-- The names of a program that is read from a text are words. -/
theorem isLine_of_readsAs {source : String} {program : List Node} (h : ReadsAs source program) :
    ∀ terminal ∈ spellBody program, terminal.MentionsOnly IsLine := by
  obtain ⟨found, mark, hscan, -, hspells⟩ := readsAs_iff.1 h
  obtain ⟨found', mark', heq, -, isLexeme⟩ := exists_eq_append_of_scan hscan
  obtain ⟨rfl, -⟩ := List.append_inj' heq rfl
  intro terminal mem
  have lexical := forall_isLexical hspells isLexeme terminal mem
  cases terminal with
  | identifier name => exact isLine_of_isLexeme lexical
  | _ => trivial

theorem transcript_of_respondAll {allowed : String → Prop} {rounds : Nat} {program : List Node}
    {before after : State} {responses : List Response} (pending : before.reports = #[])
    (mentions : ∀ terminal ∈ spellBody program, terminal.MentionsOnly allowed)
    (h : respondAll rounds program before = .ok responses after) :
    Transcript rounds before program responses after ∧
      ∀ response ∈ responses, response.MentionsOnly allowed := by
  induction program generalizing before responses with
  | nil =>
      cases h
      exact ⟨.nil _, by simp⟩
  | cons node others ih =>
      simp only [spellBody, List.forall_mem_append] at mentions
      obtain ⟨response, found, middle, hfirst, hothers, rfl⟩ := respondAll_cons_eq_ok_iff.1 h
      obtain ⟨answered, hresponse⟩ := answered_of_respond pending mentions.1.1 hfirst
      obtain ⟨rest, hresponses⟩ := ih answered.reports_eq mentions.2 hothers
      exact ⟨.cons answered rest, List.forall_mem_cons.2 ⟨hresponse, hresponses⟩⟩

end Evaluation

theorem append_newline_inj {first second rest others : List Char} (hfirst : '\n' ∉ first)
    (hsecond : '\n' ∉ second) (h : first ++ '\n' :: rest = second ++ '\n' :: others) :
    first = second ∧ rest = others := by
  have hlength := congrArg (List.idxOf '\n') h
  rw [List.idxOf_append_of_notMem hfirst, List.idxOf_append_of_notMem hsecond,
    List.idxOf_cons_self, List.idxOf_cons_self] at hlength
  obtain ⟨heq, hrest⟩ := List.append_inj h hlength
  exact ⟨heq, (List.cons.inj hrest).2⟩

theorem bytesOf_inj {lines others : List String} (hlines : ∀ line ∈ lines, IsLine line)
    (hothers : ∀ line ∈ others, IsLine line) (h : bytesOf lines = bytesOf others) :
    lines = others := by
  replace h := congrArg String.toList (String.toByteArray_inj.1 h)
  induction lines generalizing others with
  | nil =>
      cases others with
      | nil => rfl
      | cons line others => simp at h
  | cons line lines ih =>
      cases others with
      | nil => simp at h
      | cons other others =>
          simp only [List.map_cons, String.join_cons, String.toList_append,
            List.append_assoc] at h
          obtain ⟨hline, hrest⟩ := append_newline_inj (hlines _ List.mem_cons_self)
            (hothers _ List.mem_cons_self) h
          rw [String.toList_inj.1 hline, ih (List.forall_mem_cons.1 hlines).2
            (List.forall_mem_cons.1 hothers).2 hrest]

theorem mismatchesOf_stage (stage : Stage) (source : String) :
    mismatchesOf (stage.events source) = [] := by
  cases stage with
  | unscanned error => rfl
  | unparsed tokens | evaluated tokens =>
      cases hfailure : (parse tokens).failure <;>
        simp [Stage.events, readingEvents, Parse.events, hfailure, mismatchesOf, Event.mismatch?]

theorem exists_responses_of_run {source : String} {found : List Token} {program : List Node}
    (h : (Stage.evaluated found program).IsOf source) {rounds : Nat} {log : Log}
    (halts : (runProgram rounds false none log source).conclusion ≠ .abort .exhausted) :
    ∃ responses after, respondAll rounds program
      ((((Stage.evaluated found program).events source).foldl State.note (.fresh log)).note
        (.evaluating program.length)) = .ok responses after := by
  cases hrun : respondAll rounds program
      ((((Stage.evaluated found program).events source).foldl State.note (.fresh log)).note
        (.evaluating program.length)) with
  | ok responses after => exact ⟨responses, after, rfl⟩
  | error abort after =>
      obtain ⟨lines, hwrites⟩ := Run.Writes.program_aborted h hrun false
      rw [runProgram_of_writes hwrites, respondAll_error hrun] at halts
      exact absurd rfl halts

/-- If the run of a program ends, then its statements are answered one after the other, each with
the reports of its own evaluation, and its output is the lines of the responses and nothing else.
These lines can be told from the output.  A response is written in an error line for each report and
in a last line, which is an error line if the statement has failed, and is the value otherwise; so
there are as many other lines as there are statements that have not failed.  All mismatches that are
recorded are among the reports, each as often as it is recorded. -/
theorem runProgram_framed {rounds : Nat} {source : String} {program : List Node} {log : Log}
    (reads : ReadsAs source program)
    (halts : (runProgram rounds false none log source).conclusion ≠ .abort .exhausted) :
    ∃ tokens responses after, scan source = .ok tokens ∧
      Transcript rounds
        (.fresh ((((Stage.evaluated tokens program).events source).foldl Log.record log).record
          (.evaluating program.length))) program responses after ∧
      runProgram rounds false none log source =
        ⟨bytesOf (linesOf responses), .success, after.log⟩ ∧
      (∀ response ∈ responses, ∃ errors last, response.IsFramedBy errors last) ∧
      (∀ lines : List String, (∀ line ∈ lines, IsLine line) →
        bytesOf lines = bytesOf (linesOf responses) → lines = linesOf responses) ∧
      (linesOf responses).countP (¬IsErrorLine ·) = responses.countP (·.result.isOk) ∧
      (log.HearsMismatches → mismatchesOf after.log.events.toList =
        mismatchesOf log.events.toList ++ responses.flatMap Response.reports) := by
  obtain ⟨found, hstage⟩ := reads
  obtain ⟨responses, after, hresponses⟩ := exists_responses_of_run hstage halts
  have hwrites := Run.Writes.program_responded hstage hresponses false
  rw [foldl_note_fresh] at hresponses
  obtain ⟨transcript, mentions⟩ :=
    transcript_of_respondAll rfl (isLine_of_readsAs ⟨found, hstage⟩) hresponses
  have hlines : ∀ line ∈ linesOf responses, IsLine line := by
    intro line mem
    obtain ⟨response, hmem, hline⟩ := List.mem_flatMap.1 mem
    exact response.isLine_of_mem_lines (mentions response hmem) line hline
  have framed : ∀ response ∈ responses, ∃ errors last, response.IsFramedBy errors last :=
    fun response mem => Response.exists_isFramedBy (mentions response mem)
  have recorded : log.HearsMismatches → mismatchesOf after.log.events.toList =
      mismatchesOf log.events.toList ++ responses.flatMap Response.reports := by
    intro hears
    obtain ⟨events, hlog, hmismatches⟩ := transcript.exists_log
    -- what is recorded before the evaluation holds no mismatch, so it can be counted in
    have hwhole : after.log = ((Stage.evaluated found program).events source ++
        .evaluating program.length :: events).foldl Log.record log := by
      rw [hlog, List.foldl_append, List.foldl_cons]
      rfl
    have hnone : mismatchesOf (.evaluating program.length :: events) = mismatchesOf events := rfl
    rw [hwhole, Log.mismatchesOf_foldl_record _ hears, mismatchesOf_append, mismatchesOf_stage,
      hnone, hmismatches, List.nil_append]
  exact ⟨found, responses, after, hstage.1, transcript, runProgram_of_writes hwrites, framed,
    fun lines isLine h => bytesOf_inj isLine hlines h, countP_linesOf responses, recorded⟩

/-- A report comes before the fault of the statement that has made it, and a line break in a value
does not break the line. -/
theorem framed_reportBeforeFault : ∃ responses : List Response,
    (runProgram 1 false none (.empty .warn) "not 'a' == x; '\\n';").output =
      bytesOf (linesOf responses) ∧
    linesOf responses = ["error: type mismatch: cannot apply operator 'not' to char",
      "error: undefined variable 'x'", "'\\n'"] ∧
    responses.countP (·.result.isOk) = 1 := by
  have hscan : scan "not 'a' == x; '\\n';" = .ok [⟨.kwNot, "not", 1⟩, ⟨.char, "a", 1⟩,
    ⟨.equals, "==", 1⟩, ⟨.identifier, "x", 1⟩, ⟨.semicolon, ";", 1⟩, ⟨.char, "\n", 1⟩,
    ⟨.semicolon, ";", 1⟩, ⟨.eof, "", 1⟩] := rfl
  have reads : ReadsAs "not 'a' == x; '\\n';" [.binary .equals
    (.unary .not (.literal (.character 'a'))) (.identifier "x"), .literal (.character '\n')] :=
    ⟨_, hscan, rfl⟩
  have halts : (runProgram 1 false none (.empty .warn)
      "not 'a' == x; '\\n';").conclusion ≠ .abort .exhausted := by decide +kernel
  have houtput : (runProgram 1 false none (.empty .warn) "not 'a' == x; '\\n';").output =
      bytesOf ["error: type mismatch: cannot apply operator 'not' to char",
        "error: undefined variable 'x'", "'\\n'"] := by decide +kernel
  obtain ⟨_, responses, _, -, -, hrun, -, hunique, hcount, -⟩ := runProgram_framed reads halts
  rw [hrun] at houtput ⊢
  have hlines := hunique _ (by decide +kernel) houtput.symm
  refine ⟨responses, rfl, hlines.symm, ?_⟩
  rw [← hcount, ← hlines]
  decide +kernel

end Script
