import SLFront.Parser.Program

/-!
# Sessions

A session works on one source text by commands. It begins with a lexer; a command puts a parser on
it, which takes the tokens that the lexer has left, and later commands may go to either. A parser
owns its lexer, so what a lexer command takes is gone for the parser too. A forbidden word
interrupts a command and not the session: the state stays as the interruption left it.
-/
namespace SLFront

/-- A lexer, alone or under a parser. -/
inductive Session
  | reading (lexer : Lexer)
  | parsing (parser : Parser)
deriving DecidableEq, Repr

namespace Session

/-- What a session can be asked to do. -/
inductive Command
  /-- Take the next token. -/
  | next
  /-- Look at the next token. -/
  | peek
  /-- Take all tokens that are left. -/
  | drain
  /-- Put a new parser on the lexer, in place of the old one if there is one. -/
  | openParser
  | program
  | expression (p : Int)
  | statement
  | advance
  | synchronize
  /-- The statements recorded so far. -/
  | statements
  /-- The syntax errors recorded so far. -/
  | errors
  /-- Ask for the statements and the errors, and throw the answers away. -/
  | discardCopies
  | hasErrors
deriving DecidableEq, Repr

/-- What a session answers. -/
inductive Answer
  | token (t : Token)
  | tokens (ts : List Token)
  | opened
  | done
  | flag (b : Bool)
  | expression (e : Option Expr)
  | statement (b : Option Block)
  | statements (bs : List Block)
  | errors (es : List SyntaxError)
  /-- The command needs a parser and there is none. -/
  | noParser
  /-- A forbidden word interrupted the command. -/
  | interrupted (e : LexicalError)
deriving DecidableEq, Repr

/-- A session at the start of a source text. -/
def start (source : String) (filename : String := Location.unnamed) : Session :=
  .reading (.start source filename)

/-- The lexer of the session. -/
def lexer : Session → Lexer
  | reading l => l
  | parsing s => s.lexer

/-- The parser of the session, if there is one. -/
def parser? : Session → Option Parser
  | reading _ => none
  | parsing s => some s

/-- The session with another lexer. -/
def withLexer (l : Lexer) : Session → Session
  | reading _ => reading l
  | parsing s => parsing { s with lexer := l }

/-- Work on the lexer. -/
def onLexer {α : Type} (c : EStateM LexicalError Lexer α) (answer : α → Answer) (s : Session) :
    Answer × Session :=
  match c s.lexer with
  | .ok a l => (answer a, s.withLexer l)
  | .error e l => (.interrupted e, s.withLexer l)

/-- Work on the parser. -/
def onParser {α : Type} (c : Parse α) (answer : α → Answer) : Session → Answer × Session
  | reading l => (.noParser, reading l)
  | parsing s =>
    match c s with
    | .ok a t => (answer a, parsing t)
    | .error e t => (.interrupted e, parsing t)

/-- Put a parser on the lexer. If that fails there is none, not even the old one. -/
def openParser (s : Session) : Answer × Session :=
  match Parser.start s.lexer with
  | .ok p _ => (.opened, parsing p)
  | .error e l => (.interrupted e, reading l)

/-- Carry out a command. -/
def step (s : Session) : Command → Answer × Session
  | .next => s.onLexer Lexer.next .token
  | .peek => s.onLexer Lexer.peek .token
  | .drain => s.onLexer Lexer.drain .tokens
  | .openParser => s.openParser
  | .program => s.onParser Parser.program .flag
  | .expression p => s.onParser (Parser.expression p) .expression
  | .statement => s.onParser Parser.statement .statement
  | .advance => s.onParser Parser.advance fun _ => .done
  | .synchronize => s.onParser Parser.synchronize fun _ => .done
  | .statements => s.onParser get fun p => .statements p.statements
  | .errors => s.onParser get fun p => .errors p.errors
  | .discardCopies => s.onParser get fun _ => .done
  | .hasErrors => s.onParser get fun p => .flag p.hasErrors

/-- Carry out commands in order. Each answer comes with the state after its command. -/
def run (s : Session) : List Command → List (Answer × Session)
  | [] => []
  | c :: cs => s.step c :: (s.step c).2.run cs

/-- The state after commands. -/
def after (s : Session) (cs : List Command) : Session := cs.foldl (fun s c => (s.step c).2) s

end Session
end SLFront
