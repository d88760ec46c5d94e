import SLFront.Log.Record
import SLFront.Proofs.FatalErrors

/-!
# The lines of the log

What the records of a parse look like in the log, as text. All records start with the same fields,
and those of syntax errors add three more (`Log.Record.fields_ofNotice`). So the lines can be
written down, with the data of the record in their places: those of the notices of a parser
(`Log.Record.line_syntaxError`, `Log.Record.line_placeholder`, `Log.Record.line_finished`), and that
of the fatal error of a source text, which is a word of letters and is quoted as it is
(`Log.Record.line_ofLexicalError`).
-/
namespace SLFront

/-! ## What the lines show -/

/-- Letters are shown between single quotes as they are. -/
theorem Text.quoted_of_isAlpha {s : String} (h : ∀ c ∈ s.toList, c.isAlpha) :
    quoted s = "'" ++ s ++ "'" := by
  have hquote : '\'' ∉ s.toList := fun hmem => absurd (h _ hmem) (by decide)
  have hmark : quoteMark s.toList = '\'' := if_neg fun hboth => hquote hboth.1
  have hchar : ∀ c ∈ s.toList, quotedChar '\'' c = [c] := fun c hc =>
    of_isAlpha (P := fun c => quotedChar '\'' c = [c]) (by decide +kernel) (h c hc)
  rw [← String.toList_inj, quoted, hmark, List.flatMap_congr hchar, List.flatMap_singleton']
  simp

theorem Location.append_text_append (l : Location) (before after : String) :
    s!"{before} at {l.text}: {after}" =
      s!"{before} at {l.filename}:{l.line}:{l.column}: " ++ after := by
  simp only [text, toString, String.append_assoc]

/-- The kind of a syntax error can be told from its word. -/
theorem SyntaxError.Kind.text_injective : Function.Injective text := by
  intro k l h
  cases k <;> cases l <;> first | rfl | exact absurd h (by decide)

namespace Log

/-! ## Fields as text -/

/-- The line of a record: the fields that all records have, and more of them. -/
def lineText (timestamp level logger message : String) (more : List String) : String :=
  "\x7b" ++ ", ".intercalate (["\"timestamp\": " ++ Json.stringText timestamp,
    "\"level\": " ++ Json.stringText level, "\"logger\": " ++ Json.stringText logger,
    "\"message\": " ++ Json.stringText message, "\"thread\": \"MainThread\""] ++ more) ++ "\x7d"

/-- The fields that all records have. -/
def header (timestamp level logger message : String) : List (String × Json) :=
  [("timestamp", .string timestamp), ("level", .string level), ("logger", .string logger),
    ("message", .string message), ("thread", .string "MainThread")]

/-- The fields that the record of a syntax error adds. -/
def errorFields (e : SyntaxError) : List (String × Json) :=
  [("kind", .string e.kind.text), ("line", .int e.token.line), ("column", .int e.token.column)]

variable {timestamp level logger message : String}

/-- The names of the fields are written as they are, for no character in them is escaped. -/
theorem text_header_append (more : List (String × Json)) :
    (Json.object (header timestamp level logger message ++ more)).text =
      lineText timestamp level logger message (Json.fieldTexts more) := by
  have htimestamp : Json.stringText "timestamp" ++ ": " = "\"timestamp\": " := by decide +kernel
  have hlevel : Json.stringText "level" ++ ": " = "\"level\": " := by decide +kernel
  have hlogger : Json.stringText "logger" ++ ": " = "\"logger\": " := by decide +kernel
  have hmessage : Json.stringText "message" ++ ": " = "\"message\": " := by decide +kernel
  have hthread : Json.stringText "thread" ++ ": " ++ Json.stringText "MainThread" =
      "\"thread\": \"MainThread\"" := by
    decide +kernel
  simp only [header, List.cons_append, List.nil_append, Json.text, Json.fieldTexts, htimestamp,
    hlevel, hlogger, hmessage, hthread, lineText]

theorem fieldTexts_errorFields (e : SyntaxError) :
    Json.fieldTexts (errorFields e) = ["\"kind\": " ++ Json.stringText e.kind.text,
      s!"\"line\": {e.token.line}", s!"\"column\": {e.token.column}"] := by
  have hkind : Json.stringText "kind" ++ ": " = "\"kind\": " := by decide +kernel
  have hline : Json.stringText "line" ++ ": " = "\"line\": " := by decide +kernel
  have hcolumn : Json.stringText "column" ++ ": " = "\"column\": " := by decide +kernel
  simp only [errorFields, Json.fieldTexts, Json.text, hkind, hline, hcolumn]
  rfl

/-! ## Lines -/

namespace Record

theorem fields_ofNotice (timestamp : String) (n : Notice) :
    (ofNotice n).fields timestamp = header timestamp "DEBUG" "slc.parser.parser" n.message ++
      n.error?.elim [] errorFields := by
  cases n <;> rfl

theorem fields_ofLexicalError (timestamp : String) (e : LexicalError) :
    (ofLexicalError e).fields timestamp = header timestamp "ERROR" "slc.lexer.lexer"
      s!"disallowed keyword {Text.quoted e.lexeme} at {e.location.text}" ++ [] := rfl

theorem line_ofNotice {n : Notice} (h : n.message = message) :
    (ofNotice n).line timestamp = lineText timestamp "DEBUG" "slc.parser.parser" message
      (Json.fieldTexts (n.error?.elim [] errorFields)) := by
  rw [line, fields_ofNotice, text_header_append, h]

theorem line_syntaxError (timestamp : String) (e : SyntaxError) :
    (ofNotice (.syntaxError e)).line timestamp = lineText timestamp "DEBUG" "slc.parser.parser"
      (s!"{e.kind.text} at {e.location.filename}:{e.location.line}:{e.location.column}: " ++
        e.message)
      ["\"kind\": " ++ Json.stringText e.kind.text, s!"\"line\": {e.location.line}",
        s!"\"column\": {e.location.column}"] := by
  have hmessage : (Notice.syntaxError e).message = _ :=
    e.location.append_text_append e.kind.text e.message
  rw [line_ofNotice hmessage, Notice.error?, Option.elim, fieldTexts_errorFields]

theorem line_placeholder (timestamp : String) (keyword : Token) :
    (ofNotice (.placeholder keyword)).line timestamp =
      lineText timestamp "DEBUG" "slc.parser.parser"
        s!"'{keyword.lexeme}' statements are not parsed yet (line {keyword.location.line})" [] := by
  have hmessage : (Notice.placeholder keyword).message =
      s!"'{keyword.lexeme}' statements are not parsed yet (line {keyword.location.line})" := rfl
  rw [line_ofNotice hmessage, Notice.error?, Option.elim, Json.fieldTexts]

theorem line_finished (timestamp : String) (statements errors : Nat) :
    (ofNotice (.finished statements errors)).line timestamp =
      lineText timestamp "DEBUG" "slc.parser.parser"
        s!"parsed {statements} statements with {errors} errors" [] := by
  have hmessage : (Notice.finished statements errors).message =
      s!"parsed {statements} statements with {errors} errors" := rfl
  rw [line_ofNotice hmessage, Notice.error?, Option.elim, Json.fieldTexts]

/-- The line of a fatal error shows the forbidden word, which is made of letters, and its place. -/
theorem line_ofLexicalError (timestamp : String) {source filename : String} {e : LexicalError}
    (h : parse source filename = .error e) :
    (ofLexicalError e).line timestamp = lineText timestamp "ERROR" "slc.lexer.lexer"
      (s!"disallowed keyword '{e.lexeme}' at " ++
        s!"{e.location.filename}:{e.location.line}:{e.location.column}") [] := by
  have hmessage : s!"disallowed keyword {Text.quoted e.lexeme} at {e.location.text}" =
      s!"disallowed keyword '{e.lexeme}' at " ++
        s!"{e.location.filename}:{e.location.line}:{e.location.column}" := by
    rw [← String.toList_inj, Text.quoted_of_isAlpha (isAlpha_of_parse_error h)]
    simp [Location.text, toString]
  rw [line, fields_ofLexicalError, text_header_append, hmessage, Json.fieldTexts]

end Record
end Log
end SLFront
