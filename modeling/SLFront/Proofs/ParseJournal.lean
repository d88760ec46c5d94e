import SLFront.Proofs.LogLines
import SLFront.Proofs.NoticeOrder
import SLFront.Proofs.Setups

/-!
# The journal of a parse

The parser says to the log what it has left a notice of, and the lexer what interrupts it. A journal
that asks for no more than remarks for developers writes all of this
(`Journal.writeAll_recordsOfRun`), so that the lines of a parse tell what comes of it: an error
each, in source order, and between them the placeholders with which the turns of the program start;
then, in the last line, the counts of what is returned, or the forbidden word that is in the way
(`Journal.mirrors_parse`, where the lines are spelled out).
-/
namespace SLFront

/-- The syntax errors that were recorded, whether or not the run was interrupted. -/
def Parser.Run.errors {α : Type} : Run α → List SyntaxError
  | unstarted _ => []
  | interrupted _ parser | finished _ parser => parser.errors

/-- The placeholders with which the turns of the program start that is parsed from a source text. -/
def dispatched (source filename : String) : List Token :=
  match Parser.start (.start source filename) with
  | .ok s _ => Parser.placeholders s.turnTokens
  | .error _ _ => []

/-! ## What is said -/

/-- What a parse says to the log last: the counts of what it returns, or the forbidden word that is
in its way. -/
def Log.Record.ofOutcome : Except LexicalError (List Block × List SyntaxError) → Record
  | .ok (bs, es) => .ofNotice (.finished bs.length es.length)
  | .error e => .ofLexicalError e

open Log (Record recordsOfRun)

theorem errors_run_of_parse {source filename : String} {bs : List Block} {es : List SyntaxError}
    (h : parse source filename = .ok (bs, es)) :
    (Parser.run Parser.program source filename).errors = es := by
  unfold parse at h
  cases hrun : Parser.run Parser.program source filename with
  | unstarted e | interrupted e s =>
    rw [hrun] at h
    cases h
  | finished a s =>
    rw [hrun] at h
    cases h
    rfl

/-- The records of a parse are those of its errors and placeholders, in source order, and one
more. -/
theorem exists_recordsOfRun (source filename : String) :
    ∃ ns : List Notice, recordsOfRun (Parser.run Parser.program source filename) =
        ns.map Record.ofNotice ++ [.ofOutcome (parse source filename)] ∧
      ns.filterMap Notice.error? = (Parser.run Parser.program source filename).errors ∧
      ns.filterMap Notice.placeholder? = dispatched source filename ∧
      (∀ n ∈ ns, n.token?.isSome) ∧ ns.Pairwise Notice.Precedes := by
  unfold parse Parser.run dispatched
  cases hs : Parser.start (.start source filename) with
  | error e l => exact ⟨[], rfl, rfl, rfl, List.forall_mem_nil _, .nil⟩
  | ok s l =>
    obtain ⟨x, htells⟩ := Parser.exists_tells_allStatements (Parser.ready_of_start rfl hs)
    rw [List.nil_append] at htells
    dsimp only
    cases hp : Parser.program s with
    | error e t =>
      rw [Parser.program_eq_error hp] at htells
      exact ⟨t.notices, rfl, htells.errors, htells.placeholders,
        fun n hn => (htells.reaches n hn).isSome_token?, htells.order⟩
    | ok a t =>
      obtain ⟨u, hu, ht⟩ := Parser.program_eq_ok hp
      cases ht
      rw [hu] at htells
      exact ⟨u.notices, List.map_append, htells.errors, htells.placeholders,
        fun n hn => (htells.reaches n hn).isSome_token?, htells.order⟩

namespace Log

/-! ## What is written -/

theorem of_mem_recordsOfRun {α : Type} {run : Parser.Run α} {r : Record}
    (hr : r ∈ recordsOfRun run) : isBelowRoot r.logger ∧ debugLevel ≤ r.level := by
  have hnotice : ∀ n, isBelowRoot (Record.ofNotice n).logger ∧
      debugLevel ≤ (Record.ofNotice n).level :=
    fun _ => ⟨isBelowRoot_parserName, Int.le_refl _⟩
  have herror : ∀ e, isBelowRoot (Record.ofLexicalError e).logger ∧
      debugLevel ≤ (Record.ofLexicalError e).level :=
    fun _ => ⟨isBelowRoot_lexerName, (by decide : debugLevel ≤ errorLevel)⟩
  cases run with
  | unstarted e =>
    rw [List.mem_singleton.1 hr]
    exact herror e
  | interrupted e s =>
    rcases List.mem_append.1 hr with hr | hr
    · obtain ⟨n, -, rfl⟩ := List.mem_map.1 hr
      exact hnotice n
    · rw [List.mem_singleton.1 hr]
      exact herror e
  | finished a s =>
    obtain ⟨n, -, rfl⟩ := List.mem_map.1 hr
    exact hnotice n

namespace Journal

/-- A handler that asks for no more than remarks for developers writes what a run says. -/
theorem writeAll_recordsOfRun {α : Type} (timestamp : String) {h : Handler} (hlow : 1 ≤ h.level)
    (hhigh : h.level ≤ debugLevel) (run : Parser.Run α) :
    (ofHandler h).writeAll timestamp (recordsOfRun run) =
      (recordsOfRun run).map fun r => (h.stream, r.line timestamp) := by
  rw [writeAll_ofHandler, List.filter_eq_self.2]
  intro r hr
  obtain ⟨hroot, hlevel⟩ := of_mem_recordsOfRun hr
  have heffective : (ofHandler h).effectiveLevel = h.level := if_neg fun hzero => by
    rw [show h.level = 0 from hzero] at hlow
    exact absurd hlow (by decide)
  have hle : h.level ≤ r.level := Int.le_trans hhigh hlevel
  refine decide_eq_true ⟨⟨hroot, ?_, heffective ▸ hle⟩, hle⟩
  exact Int.lt_of_lt_of_le (by decide : silentLevel < debugLevel) hlevel

/-- After a set-up with a level from one to ten, which is that of remarks for developers, a parse
writes a record for each error and for each placeholder with which a turn of the program starts, in
source order, and one more. The errors are all that are recorded, in their order, also where the
parse is interrupted, and their lines carry their kind, line and column. The last record gives the
counts of what is returned; or, where the parse is interrupted, it is an error of the lexer and
names the forbidden word and its place. -/
theorem mirrors_parse {choice : LevelChoice} {level : Int} (hchoice : choice.resolve = .ok level)
    (hlow : 1 ≤ level) (hhigh : level ≤ 10) (timestamp : String) (j : Journal)
    (stream source filename : String) :
    let ready := (j.step timestamp (.setup choice stream)).journal
    ∃ (ns : List Notice) (last : Record),
      (ready.step timestamp (.parse source filename)).written =
        (ns.map Record.ofNotice ++ [last]).map (fun r => (stream, r.line timestamp)) ∧
      ns.filterMap Notice.error? = (Parser.run Parser.program source filename).errors ∧
      ns.filterMap Notice.placeholder? = dispatched source filename ∧
      (∀ n ∈ ns, n.token?.isSome) ∧ ns.Pairwise Notice.Precedes ∧
      (match parse source filename with
        | .ok (bs, es) => (Parser.run Parser.program source filename).errors = es ∧
            last = .ofNotice (.finished bs.length es.length) ∧
            last.line timestamp = lineText timestamp "DEBUG" "slc.parser.parser"
              s!"parsed {bs.length} statements with {es.length} errors" []
        | .error e => last = .ofLexicalError e ∧
            last.line timestamp = lineText timestamp "ERROR" "slc.lexer.lexer"
              (s!"disallowed keyword '{e.lexeme}' at " ++
                s!"{e.location.filename}:{e.location.line}:{e.location.column}") []) ∧
      (∀ e, (Record.ofNotice (.syntaxError e)).line timestamp =
        lineText timestamp "DEBUG" "slc.parser.parser"
          (s!"{e.kind.text} at {e.location.filename}:{e.location.line}:{e.location.column}: " ++
            e.message)
          ["\"kind\": " ++ Json.stringText e.kind.text, s!"\"line\": {e.location.line}",
            s!"\"column\": {e.location.column}"]) ∧
      (∀ keyword, (Record.ofNotice (.placeholder keyword)).line timestamp =
        lineText timestamp "DEBUG" "slc.parser.parser"
          s!"'{keyword.lexeme}' statements are not parsed yet (line {keyword.location.line})" []) ∧
      SyntaxError.Kind.text.Injective := by
  intro ready
  have hready : ready = ofHandler { level, stream } := by
    show (j.step timestamp (.setup choice stream)).journal = _
    simp [journal_step, Command.installs?, hchoice, Except.toOption]
  obtain ⟨ns, hrecords, herrors, hplaceholders, htokens, horder⟩ :=
    exists_recordsOfRun source filename
  refine ⟨ns, .ofOutcome (parse source filename), ?_, herrors, hplaceholders, htokens, horder, ?_,
    Record.line_syntaxError timestamp, Record.line_placeholder timestamp,
    SyntaxError.Kind.text_injective⟩
  · rw [written_step, hready, ← hrecords]
    exact writeAll_recordsOfRun timestamp hlow hhigh _
  · cases h : parse source filename with
    | ok r =>
      exact ⟨errors_run_of_parse h, rfl, Record.line_finished timestamp r.1.length r.2.length⟩
    | error e => exact ⟨rfl, Record.line_ofLexicalError timestamp h⟩

/-- The second of the three errors is at the word with which the next turn starts, and a forbidden
word interrupts the recovery from the third. -/
theorem mirrors_parse_interrupted :
    let source := ")\nvar\n x tipo y = 1\nlib"
    let ready := (({} : Journal).step "now" (.setup (.name "DEBUG") "log")).journal
    LevelChoice.resolve (.name "DEBUG") = .ok 10 ∧ ∃ (ns : List Notice) (last : Record),
      (ready.step "now" (.parse source "a")).written =
        (ns.map Record.ofNotice ++ [last]).map (fun r => ("log", r.line "now")) ∧
      (ns.filterMap Notice.error?).map (fun e => (e.kind, e.token.lexeme)) =
        [(.unexpectedExpression, ")"), (.expectedEqualSign, "tipo"),
          (.unexpectedExpression, "y")] ∧
      (ns.filterMap Notice.placeholder?).map (·.lexeme) = ["tipo"] ∧
      (∀ n ∈ ns, n.token?.isSome) ∧ ns.Pairwise Notice.Precedes ∧
      last = Record.ofLexicalError (.forbidden "lib" ⟨"a", 4, 1, 20⟩) ∧
      last.line "now" = "\x7b\"timestamp\": \"now\", \"level\": \"ERROR\", " ++
        "\"logger\": \"slc.lexer.lexer\", " ++
        "\"message\": \"disallowed keyword 'lib' at a:4:1\", \"thread\": \"MainThread\"\x7d" := by
  intro source ready
  have hchoice : LevelChoice.resolve (.name "DEBUG") = .ok 10 := by decide +kernel
  have hparse : parse source "a" = .error (.forbidden "lib" ⟨"a", 4, 1, 20⟩) := by decide +kernel
  obtain ⟨ns, last, hwritten, herrors, hplaceholders, htokens, horder, hlast, -⟩ :=
    mirrors_parse hchoice (by decide) (by decide) "now" {} "log" source "a"
  rw [hparse] at hlast
  refine ⟨hchoice, ns, last, hwritten, ?_, ?_, htokens, horder, hlast.1, ?_⟩
  · rw [herrors]
    decide +kernel
  · rw [hplaceholders]
    decide +kernel
  · rw [hlast.2]
    decide +kernel

end Journal
end Log
end SLFront
