import SLFront.Json
import SLFront.Log.Failure
import SLFront.Log.Level
import SLFront.Log.Logger
import SLFront.Parser.Program

/-!
# Log records

A record is what one event says to the log. It is written as a JSON object on one line: when, how
serious, who and what, then whatever the event adds, and last an exception if there was one. Later
fields win over earlier ones of the same name.
-/
namespace SLFront.Log

/-- An event for the log. -/
structure Record where
  logger : String
  level : Int
  message : String
  extra : List (String × Json) := []
  failure : Option Failure := none
deriving Repr

namespace Record

/-- The fields of a record that is written at a given time. -/
def fields (timestamp : String) (r : Record) : List (String × Json) :=
  let base : List (String × Json) :=
    [("timestamp", .string timestamp), ("level", .string (levelText r.level)),
      ("logger", .string r.logger), ("message", .string r.message),
      ("thread", .string "MainThread")]
  let merged := Json.putAll base r.extra
  match r.failure with
  | none => merged
  | some f => Json.put "exception" (.string f.line) merged

/-- The line of a record that is written at a given time. -/
def line (timestamp : String) (r : Record) : String := (Json.object (r.fields timestamp)).text

/-- What a notice of the parser says to the log. Only syntax errors add fields. -/
def ofNotice (n : Notice) : Record where
  logger := parserName
  level := debugLevel
  message := n.message
  extra :=
    match n with
    | .syntaxError e =>
      [("kind", .string e.kind.text), ("line", .int e.token.line),
        ("column", .int e.token.column)]
    | .placeholder _ | .noInfix _ | .finished _ _ => []

/-- What a forbidden word says to the log. -/
def ofLexicalError (e : LexicalError) : Record where
  logger := lexerName
  level := errorLevel
  message := s!"disallowed keyword {Text.quoted e.lexeme} at {e.location.text}"

end Record

/-- The records of parsing, in the order of the events. A forbidden word comes last. -/
def recordsOfRun {α : Type} : Parser.Run α → List Record
  | .unstarted e => [.ofLexicalError e]
  | .interrupted e s => s.notices.map .ofNotice ++ [.ofLexicalError e]
  | .finished _ s => s.notices.map .ofNotice

end SLFront.Log
