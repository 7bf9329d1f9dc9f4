import Script.CommandLine.Outcome
import Script.Proofs.Grammar.Source
import Script.Proofs.Run.Interchange
/-!
# The stages of a run

A run gets as far as its text allows: it fails on an error among the lexemes before anything is
parsed, and on an error in the grammar before anything is evaluated.  Dumps come first and change
nothing else.
-/

namespace Script

open Evaluation CommandLine

def readingEvents (tokens : List Token) : List Event :=
  .parsing tokens.length :: (parse tokens).events ++
    [.programRead (parse tokens).statements.length (parse tokens).error?.isSome]

inductive Stage
  | unscanned (error : ScanError)
  | unparsed (tokens : List Token) (statements : List Node) (error : GrammarError)
  | evaluated (tokens : List Token) (program : List Node)

namespace Stage

def IsOf (source : String) : Stage → Prop
  | unscanned error => scan source = .error error
  | unparsed tokens statements error =>
    scan source = .ok tokens ∧ (parse tokens).statements = statements ∧
      (parse tokens).error? = some error
  | evaluated tokens program => scan source = .ok tokens ∧ parse tokens = ⟨program, none⟩

/-- What is recorded before a program is evaluated, and all that is recorded if there is none. -/
def events (source : String) : Stage → List Event
  | unscanned _ => [.scanning source.utf8ByteSize]
  | unparsed tokens _ _ | evaluated tokens _ =>
    .scanning source.utf8ByteSize :: .scanned tokens.length :: readingEvents tokens

def dump : Stage → List String
  | unscanned error => error.tokens.map Token.render
  | unparsed tokens statements _ | evaluated tokens statements =>
    tokens.map Token.render ++ statements.map ("ast: " ++ ·.render)

def written (stage : Stage) (dumps : Bool) (output : ByteArray) : ByteArray :=
  (if dumps then bytesOf stage.dump else .empty) ++ output

/-- Whether a run that gets to the stage writes `output`, apart from dumps, concludes with
`conclusion` and leaves `after`, where it is in `state` when the text has been read.  An error in
the text leaves this very state. -/
def Yields (rounds : Nat) (state : State) : Stage → ByteArray → Conclusion → State → Prop
  | unscanned error, output, conclusion, after =>
    output = bytesOf [error.fault.message ++ " on line " ++ toString error.line] ∧
      (∃ failure, conclusion = .failure failure ∧ failure.message =
        "lexing failed: " ++ (error.fault.message ++ " on line " ++ toString error.line)) ∧
      after = state
  | unparsed _ _ error, output, conclusion, after =>
    output = bytesOf ["parsing error: " ++
      (error.fault.message ++ " on line " ++ toString error.line)] ∧
      (∃ failure, conclusion = .failure failure ∧ failure.message =
        "parsing failed: " ++ (error.fault.message ++ " on line " ++ toString error.line)) ∧
      after = state
  | evaluated _ program, output, conclusion, after =>
    Session.perform rounds program state = .ok output after ∧ conclusion = .success

theorem exists_isOf (source : String) : ∃ stage : Stage, stage.IsOf source := by
  cases hscan : scan source with
  | error error => exact ⟨.unscanned error, hscan⟩
  | ok tokens =>
      rcases hparse : parse tokens with ⟨statements, failure⟩
      cases failure with
      | none => exact ⟨.evaluated tokens statements, hscan, hparse⟩
      | some failure =>
          refine ⟨.unparsed tokens statements failure.error, hscan, ?_, ?_⟩
          · rw [hparse]
          · rw [hparse]
            rfl

theorem IsOf.unique {source : String} {stage other : Stage} (h : stage.IsOf source)
    (h' : other.IsOf source) : other = stage := by
  cases stage with
  | unscanned error =>
      cases other with
      | unscanned error' => rw [Except.error.inj (h.symm.trans h')]
      | unparsed => cases h.symm.trans h'.1
      | evaluated => cases h.symm.trans h'.1
  | unparsed tokens statements error =>
      cases other with
      | unscanned error' => cases h'.symm.trans h.1
      | unparsed tokens' statements' error' =>
          obtain ⟨hscan, rfl, herror⟩ := h
          obtain ⟨hscan', rfl, herror'⟩ := h'
          cases hscan.symm.trans hscan'
          cases herror.symm.trans herror'
          rfl
      | evaluated tokens' program =>
          obtain ⟨hscan, -, herror⟩ := h
          cases hscan.symm.trans h'.1
          rw [h'.2] at herror
          cases herror
  | evaluated tokens program =>
      cases other with
      | unscanned error' => cases h'.symm.trans h.1
      | unparsed tokens' statements' error' =>
          obtain ⟨hscan', -, herror'⟩ := h'
          cases h.1.symm.trans hscan'
          rw [h.2] at herror'
          cases herror'
      | evaluated tokens' program' =>
          cases h.1.symm.trans h'.1
          cases h.2.symm.trans h'.2
          rfl

end Stage

namespace Run.Writes

theorem dumpTokens (dumps : Bool) (tokens : List Token) (state : State) :
    Writes (Run.dumpTokens dumps tokens) state (if dumps then tokens.map Token.render else []) state
      (.ok ()) := by
  cases dumps with
  | false => exact pure () state
  | true => exact forM_emit Token.render tokens state

theorem dumpStatements (dumps : Bool) (statements : List Node) (state : State) :
    Writes (Run.dumpStatements dumps statements) state
      (if dumps then statements.map ("ast: " ++ ·.render) else []) state (.ok ()) := by
  cases dumps with
  | false => exact pure () state
  | true => exact forM_emit ("ast: " ++ Node.render ·) statements state

theorem tokens {source : String} {found : List Token} (h : scan source = .ok found) (dumps : Bool)
    (state : State) :
    Writes (Run.tokens dumps source) state (if dumps then found.map Token.render else [])
      ((state.note (.scanning source.utf8ByteSize)).note (.scanned found.length)) (.ok found) := by
  refine bind_silent (note (.scanning source.utf8ByteSize) state) ?_
  rw [h]
  exact bind_silent (note (.scanned found.length) _) (bind_pure (dumpTokens dumps found _))

theorem tokens_error {source : String} {error : ScanError} (h : scan source = .error error)
    (dumps : Bool) (state : State) :
    Writes (Run.tokens dumps source) state
      ((if dumps then error.tokens.map Token.render else []) ++ [error.message])
      (state.note (.scanning source.utf8ByteSize)) (.error (.failed (.scanning error))) := by
  refine bind_silent (note (.scanning source.utf8ByteSize) state) ?_
  rw [h]
  exact bind (dumpTokens dumps error.tokens _) (bind (emit error.message _) (throw _ _))

theorem statements {found : List Token} {program : List Node} (h : parse found = ⟨program, none⟩)
    (dumps : Bool) (state : State) :
    Writes (Run.statements dumps found) state
      (if dumps then program.map ("ast: " ++ ·.render) else [])
      ((readingEvents found).foldl State.note state) (.ok program) := by
  have hevents := forM_note (parse found).events (state.note (.parsing found.length))
  rw [readingEvents, List.foldl_append, List.foldl_cons]
  refine bind_silent (note _ state) (bind_silent hevents (bind_silent (note _ _) ?_))
  rw [h]
  exact bind_pure (dumpStatements dumps program _)

theorem statements_error {found : List Token} {error : GrammarError}
    (h : (parse found).error? = some error) (dumps : Bool) (state : State) :
    Writes (Run.statements dumps found) state
      ((if dumps then (parse found).statements.map ("ast: " ++ ·.render) else []) ++
        ["parsing error: " ++ error.message])
      ((readingEvents found).foldl State.note state) (.error (.failed (.parsing error))) := by
  have hevents := forM_note (parse found).events (state.note (.parsing found.length))
  rw [readingEvents, List.foldl_append, List.foldl_cons]
  refine bind_silent (note _ state) (bind_silent hevents (bind_silent (note _ _) ?_))
  refine bind (dumpStatements dumps (parse found).statements _) ?_
  simp only [h]
  exact bind (emit _ _) (throw _ _)

theorem program_unscanned {source : String} {error : ScanError}
    (h : (Stage.unscanned error).IsOf source) (rounds : Nat) (dumps : Bool) (state : State) :
    Writes (Run.program rounds dumps source) state
      ((if dumps then error.tokens.map Token.render else []) ++ [error.message])
      (((Stage.unscanned error).events source).foldl State.note state)
      (.error (.failed (.scanning error))) :=
  bind_error _ (tokens_error h dumps state)

theorem program_unparsed {source : String} {found : List Token} {kept : List Node}
    {error : GrammarError} (h : (Stage.unparsed found kept error).IsOf source) (rounds : Nat)
    (dumps : Bool) (state : State) :
    Writes (Run.program rounds dumps source) state
      ((if dumps then found.map Token.render else []) ++
        ((if dumps then kept.map ("ast: " ++ ·.render) else []) ++
          ["parsing error: " ++ error.message]))
      (((Stage.unparsed found kept error).events source).foldl State.note state)
      (.error (.failed (.parsing error))) := by
  obtain ⟨hscan, rfl, herror⟩ := h
  exact bind (tokens hscan dumps state) (bind_error _ (statements_error herror dumps _))

theorem program_responded {source : String} {found : List Token} {program : List Node}
    (h : (Stage.evaluated found program).IsOf source) {rounds : Nat} {state after : State}
    {responses : List Response}
    (hresponses : respondAll rounds program
      ((((Stage.evaluated found program).events source).foldl State.note state).note
        (.evaluating program.length)) = .ok responses after)
    (dumps : Bool) :
    Writes (Run.program rounds dumps source) state
      ((if dumps then found.map Token.render else []) ++
        ((if dumps then program.map ("ast: " ++ ·.render) else []) ++ linesOf responses))
      after (.ok ()) :=
  bind (tokens h.1 dumps state) (bind (statements h.2 dumps _) (performAll hresponses))

theorem program_aborted {source : String} {found : List Token} {program : List Node}
    (h : (Stage.evaluated found program).IsOf source) {rounds : Nat} {state after : State}
    {abort : Abort}
    (hrun : respondAll rounds program
      ((((Stage.evaluated found program).events source).foldl State.note state).note
        (.evaluating program.length)) = .error abort after)
    (dumps : Bool) :
    ∃ lines, Writes (Run.program rounds dumps source) state lines after
      (.error (.aborted abort)) := by
  obtain ⟨lines, hlines⟩ := performAll_error hrun
  exact ⟨_, bind (tokens h.1 dumps state) (bind (statements h.2 dumps _) hlines)⟩

end Run.Writes

/-- Before anything is evaluated, notes change the log only. -/
theorem foldl_note_fresh (events : List Event) (log : Log) :
    events.foldl State.note (.fresh log) = .fresh (events.foldl Log.record log) := by
  induction events generalizing log with
  | nil => rfl
  | cons event others ih => exact ih (log.record event)

theorem bytesOf_onDemand (dumps : Bool) (lines others : List String) :
    bytesOf ((if dumps then lines else []) ++ others) =
      (if dumps then bytesOf lines else .empty) ++ bytesOf others := by
  rw [bytesOf_append]
  cases dumps <;> rfl

theorem onDemand_append (dumps : Bool) (first second others : List String) :
    (if dumps then first else []) ++ ((if dumps then second else []) ++ others) =
      (if dumps then first ++ second else []) ++ others := by
  cases dumps with
  | false => rfl
  | true => exact (List.append_assoc first second others).symm

namespace Stage

/-- What the stage that a text gets to tells of the runs of the text and of the calls of the program
on a file that holds it. -/
structure Governs (rounds : Nat) (source : String) (stage : Stage) (output : ByteArray)
    (conclusion : Conclusion) : Prop where
  /-- A run does the same with and without dumps, but for the bytes of the dumps, which come before
  all others.  Until the text has been read it changes nothing but the log. -/
  run (log : Log) : ∃ after,
    stage.Yields rounds (.fresh ((stage.events source).foldl Log.record log)) output conclusion
      after ∧
    ∀ dumps, Run.program rounds dumps source ⟨.fresh log, .empty none⟩ =
        conclusion.leaving ⟨after, ⟨none, stage.written dumps output⟩⟩ ∧
      runProgram rounds dumps none log source =
        ⟨stage.written dumps output, conclusion, after.log⟩
  /-- On a file the same is written, and success is told in a last line and the exit code. -/
  file (dumps : Bool) (path : String) (content : ByteArray)
    (text : String.fromUTF8? content = some source) :
    (runFile rounds dumps path (.ok content)).output =
        stage.written dumps output ++
          (if conclusion = .success then "finished\n".toUTF8 else .empty) ∧
      (runFile rounds dumps path (.ok content)).exitCode = if conclusion = .success then 0 else 1
  /-- A call is answered by what its file comes to. -/
  call (read : String → Except ReadError ByteArray) (arguments : List String) (dumps : Bool)
    (path : String) (content : ByteArray)
    (request : Request.ofArguments arguments = .run dumps path) (found : read path = .ok content)
    (text : String.fromUTF8? content = some source) :
    (CommandLine.call rounds read arguments).output =
        stage.written dumps output ++
          (if conclusion = .success then "finished\n".toUTF8 else .empty) ∧
      (CommandLine.call rounds read arguments).exitCode =
        if conclusion = .success then 0 else 1

theorem runFile_of_runProgram {rounds : Nat} {dumps : Bool} {source : String} {output : ByteArray}
    {conclusion : Conclusion}
    (h : ∀ log, ∃ last, runProgram rounds dumps none log source = ⟨output, conclusion, last⟩)
    (path : String) {content : ByteArray} (text : String.fromUTF8? content = some source) :
    (runFile rounds dumps path (.ok content)).output =
        output ++ (if conclusion = .success then "finished\n".toUTF8 else .empty) ∧
      (runFile rounds dumps path (.ok content)).exitCode =
        if conclusion = .success then 0 else 1 := by
  have hsource : textOf (.ok content) = .ok source := by
    simp only [textOf, Bind.bind, Except.bind, text]
  obtain ⟨last, hrun⟩ :=
    h ((Log.empty (if dumps then Level.info else Level.error)).record (.readFile path))
  simp only [runFile, hsource, hrun]
  cases conclusion with
  | success => exact ⟨rfl, rfl⟩
  | failure failure => exact ⟨ByteArray.append_empty.symm, rfl⟩
  | abort abort => exact ⟨ByteArray.append_empty.symm, rfl⟩

theorem call_eq_runFile {rounds : Nat} {read : String → Except ReadError ByteArray}
    {arguments : List String} {dumps : Bool} {path : String}
    (request : Request.ofArguments arguments = .run dumps path) :
    CommandLine.call rounds read arguments = runFile rounds dumps path (read path) := by
  rw [CommandLine.call, request]

theorem Governs.of_run {rounds : Nat} {source : String} {stage : Stage} {output : ByteArray}
    {conclusion : Conclusion}
    (h : ∀ log, ∃ after,
      stage.Yields rounds (.fresh ((stage.events source).foldl Log.record log)) output conclusion
        after ∧
      ∀ dumps, Run.program rounds dumps source ⟨.fresh log, .empty none⟩ =
        conclusion.leaving ⟨after, ⟨none, stage.written dumps output⟩⟩) :
    stage.Governs rounds source output conclusion := by
  have hreport (dumps : Bool) (log : Log) : ∃ last, runProgram rounds dumps none log source =
      ⟨stage.written dumps output, conclusion, last⟩ := by
    obtain ⟨after, -, hrun⟩ := h log
    exact ⟨after.log, runProgram_of_leaving (hrun dumps)⟩
  constructor
  case run =>
    intro log
    obtain ⟨after, hyields, hrun⟩ := h log
    exact ⟨after, hyields, fun dumps => ⟨hrun dumps, runProgram_of_leaving (hrun dumps)⟩⟩
  case file =>
    exact fun dumps path content text => runFile_of_runProgram (hreport dumps) path text
  case call =>
    intro read arguments dumps path content request found text
    rw [call_eq_runFile request, found]
    exact runFile_of_runProgram (hreport dumps) path text

theorem IsOf.exists_governs {rounds : Nat} {source : String} {stage : Stage}
    (h : stage.IsOf source) {log : Log}
    (halts : ∀ program, ReadsAs source program →
      ∀ after, Session.perform rounds program (.fresh log) ≠ .error .exhausted after) :
    ∃ output conclusion, stage.Governs rounds source output conclusion := by
  cases stage with
  | unscanned error =>
      refine ⟨bytesOf [error.message], .failure (.scanning error), .of_run fun log' => ?_⟩
      refine ⟨_, ⟨rfl, ⟨_, rfl, rfl⟩, rfl⟩, fun dumps => ?_⟩
      rw [(Run.Writes.program_unscanned h rounds dumps _).eq_leaving, bytesOf_onDemand,
        foldl_note_fresh]
      rfl
  | unparsed tokens statements error =>
      refine ⟨bytesOf ["parsing error: " ++ error.message], .failure (.parsing error),
        .of_run fun log' => ?_⟩
      refine ⟨_, ⟨rfl, ⟨_, rfl, rfl⟩, rfl⟩, fun dumps => ?_⟩
      rw [(Run.Writes.program_unparsed h rounds dumps _).eq_leaving, onDemand_append,
        bytesOf_onDemand, foldl_note_fresh]
      rfl
  | evaluated tokens program =>
      obtain ⟨responses, last, hlast⟩ := exists_respondAll (halts program ⟨tokens, h⟩)
      refine ⟨bytesOf (linesOf responses), .success, .of_run fun log' => ?_⟩
      -- the loops are known to end for another log than the one of this run
      have alike := State.Alike.fresh log
        (((Stage.evaluated tokens program).events source).foldl Log.record log')
      obtain ⟨after, hafter, -⟩ := respondAll_of_alike (alike.note _ _) hlast
      refine ⟨after, ⟨?_, rfl⟩, fun dumps => ?_⟩
      · rw [Session.perform_eq, Step.bind_apply]
        exact (Step.bind_eq_ok_iff _).2 ⟨responses, after, hafter, rfl⟩
      · rw [← foldl_note_fresh] at hafter
        rw [(Run.Writes.program_responded h hafter dumps).eq_leaving, onDemand_append,
          bytesOf_onDemand]
        rfl

end Stage

/-- A run gets to exactly one stage.  There it writes one diagnostic or, if its text is a program,
what evaluating this program writes, and it succeeds in the latter case only.  An error in the text
is found before anything is evaluated: no variable and no function has been declared then, nothing
has been reported, and the log has the records of the stages and no others.  Dumps come before this
output and change nothing else.  On a file the program writes the same, and tells of success in a
last line and its exit code. -/
theorem run_stages (rounds : Nat) {source : String} {log : Log}
    (halts : ∀ program, ReadsAs source program →
      ∀ after, Session.perform rounds program (.fresh log) ≠ .error .exhausted after) :
    ∃ stage : Stage, stage.IsOf source ∧ (∀ other : Stage, other.IsOf source → other = stage) ∧
      ∃ output conclusion, stage.Governs rounds source output conclusion := by
  obtain ⟨stage, hstage⟩ := Stage.exists_isOf source
  exact ⟨stage, hstage, fun other => hstage.unique, hstage.exists_governs halts⟩

/-- A function before an error in the grammar is not declared, and a fault in a program does not
keep the call from succeeding. -/
theorem run_keptFunction :
    (∃ failure console,
        Run.program 1 false "def f(): void end )" ⟨.fresh (.empty .info), .empty none⟩ =
          .error (.failed failure) console ∧ console.state.functions = []) ∧
      (runFile 1 false "file" (.ok "def f(): void end )".toUTF8)).exitCode = 1 ∧
      (runFile 1 false "file" (.ok "x;".toUTF8)).exitCode = 0 ∧
      (runFile 1 false "file" (.ok "x;".toUTF8)).output =
        bytesOf ["error: undefined variable 'x'", "finished"] := by
  have hscan : scan "def f(): void end )" = .ok [⟨.kwDef, "def", 1⟩, ⟨.identifier, "f", 1⟩,
      ⟨.leftParen, "(", 1⟩, ⟨.rightParen, ")", 1⟩, ⟨.colon, ":", 1⟩, ⟨.identifier, "void", 1⟩,
      ⟨.kwEnd, "end", 1⟩, ⟨.rightParen, ")", 1⟩, ⟨.eof, "", 1⟩] := rfl
  have hscan' : scan "x;" = .ok [⟨.identifier, "x", 1⟩, ⟨.semicolon, ";", 1⟩, ⟨.eof, "", 1⟩] := rfl
  have hreads : ReadsAs "x;" [.identifier "x"] := ⟨_, hscan', rfl⟩
  have unread : ∀ program, ¬ ReadsAs "def f(): void end )" program := by
    rintro program ⟨tokens, htokens, hparse⟩
    cases hscan.symm.trans htokens
    cases hparse
  have halts : ∀ program, ReadsAs "x;" program → ∀ after,
      Session.perform 1 program (.fresh (.empty .error)) ≠ .error .exhausted after := by
    intro program h after hexhausted
    rw [h.unique hreads, Session.perform_eq] at hexhausted
    cases hexhausted
  have htext : String.fromUTF8? "def f(): void end )".toUTF8 = some "def f(): void end )" := by
    decide +kernel
  have htext' : String.fromUTF8? "x;".toUTF8 = some "x;" := by decide +kernel
  obtain ⟨stage, -, hunique, output, conclusion, hgoverns⟩ :=
    @run_stages 1 "def f(): void end )" (.empty .error) fun program h => absurd h (unread program)
  obtain ⟨stage', -, hunique', output', conclusion', hgoverns'⟩ := run_stages 1 halts
  have hstage := hunique (.unparsed _ _ _) ⟨hscan, rfl, rfl⟩
  have hstage' := hunique' (.evaluated _ [.identifier "x"]) ⟨hscan', rfl⟩
  subst hstage hstage'
  obtain ⟨_, ⟨-, ⟨failure, rfl, -⟩, rfl⟩, hrun⟩ := hgoverns.run (.empty .info)
  obtain ⟨_, ⟨hperform, rfl⟩, -⟩ := hgoverns'.run (.empty .info)
  refine ⟨⟨failure, _, (hrun false).1, rfl⟩, (hgoverns.file false "file" _ htext).2,
    (hgoverns'.file false "file" _ htext').2, ?_⟩
  rw [(hgoverns'.file false "file" _ htext').1]
  cases hperform
  decide +kernel

end Script
