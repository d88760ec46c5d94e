import SLFront.Log.Record

/-!
# Keeping a journal

The journal decides which records are written and where. It is silent until it is set up. A set-up
takes the handlers away that are there and puts a new one in their place; one that names no known
level changes nothing. A record is written by the handlers if it comes from the root logger or one
below it, its level is above zero, and it is at least as serious as the root logger asks for; each
handler then writes it to its stream, if it is as serious as the handler asks for too.
-/
namespace SLFront.Log

/-- Where records go, and how serious they have to be. -/
structure Handler where
  level : Int
  stream : String
deriving DecidableEq, Repr

/-- The state of the log: the level of the root logger, where zero stands for none, and its
handlers, the oldest first. -/
structure Journal where
  level : Int := 0
  handlers : List Handler := []
deriving DecidableEq, Repr

/-- A level as given to a set-up. -/
inductive LevelChoice
  | number (level : Int)
  | name (text : String)
deriving DecidableEq, Repr

/-- The number of a level, or the name if it is unknown. -/
def LevelChoice.resolve : LevelChoice → Except String Int
  | .number level => .ok level
  | .name text =>
    match levelOfName? text with
    | some level => .ok level
    | none => .error text

namespace Journal

/-- The stream of a set-up that names none. -/
def defaultStream : String := "stderr"

/-- The oldest handler, if there is one. -/
def handler (j : Journal) : Option Handler := j.handlers.head?

/-- Add a handler behind the others. -/
def addHandler (j : Journal) (h : Handler) : Journal := { j with handlers := j.handlers ++ [h] }

/-- Remove a handler. -/
def removeHandler (j : Journal) (h : Handler) : Journal :=
  { j with handlers := j.handlers.erase h }

/-- The journal after a set-up, or the name of the level if it is unknown: the level is set first,
then the handlers are removed one after the other, and a new one is added. -/
def setup (choice : LevelChoice) (stream : String) (j : Journal) : Except String Journal :=
  choice.resolve.map fun level =>
    (j.handlers.foldl removeHandler { j with level }).addHandler { level, stream }

/-- The level that the root logger asks for. -/
def effectiveLevel (j : Journal) : Int := if j.level = 0 then warningLevel else j.level

/-- A record comes as far as the handlers. -/
def Reaches (r : Record) (j : Journal) : Prop :=
  isBelowRoot r.logger ∧ silentLevel < r.level ∧ j.effectiveLevel ≤ r.level

instance (r : Record) (j : Journal) : Decidable (j.Reaches r) :=
  inferInstanceAs (Decidable (_ ∧ _))

/-- The lines that a record adds to the streams. -/
def write (timestamp : String) (j : Journal) (r : Record) : List (String × String) :=
  if j.Reaches r then
    (j.handlers.filter (·.level ≤ r.level)).map fun h => (h.stream, r.line timestamp)
  else []

/-- The journal with one handler, at the level of the handler. -/
def ofHandler (h : Handler) : Journal := { level := h.level, handlers := [h] }

theorem foldl_removeHandler (level : Int) (hs : List Handler) :
    hs.foldl removeHandler { level, handlers := hs } = { level, handlers := [] } := by
  induction hs with
  | nil => rfl
  | cons h hs ih => simpa [removeHandler] using ih

/-- A set-up leaves nothing of the journal before it. -/
theorem setup_eq (choice : LevelChoice) (stream : String) (j : Journal) :
    setup choice stream j = choice.resolve.map fun level => ofHandler { level, stream } := by
  unfold setup
  simp only [foldl_removeHandler]
  rfl

/-- The lines that several records add to the streams, in order. -/
def writeAll (timestamp : String) (j : Journal) (rs : List Record) : List (String × String) :=
  rs.flatMap (j.write timestamp)

/-! ## Commands -/

/-- What can be done under a journal. -/
inductive Command
  | setup (choice : LevelChoice) (stream : String)
  | parse (source filename : String)
  | tokenize (source filename : String)
  | expression (source filename : String) (p : Int)
  | record (r : Record)

/-- What comes of a command. -/
inductive Answer
  | ready
  /-- No level has this name. -/
  | unknownLevel (name : String)
  | counts (statements errors : Nat)
  | tokenCount (n : Nat)
  | expression (e : Option Expr)
  | recorded
  | interrupted (e : LexicalError)
deriving DecidableEq, Repr

/-- The wording for an unknown level name. -/
def unknownLevelMessage (name : String) : String := s!"Unknown level: {Text.quoted name}"

/-- A command carried out: the answer, the journal after it, and the lines written. -/
structure Outcome where
  answer : Answer
  journal : Journal
  written : List (String × String) := []
deriving DecidableEq, Repr

/-- The outcome of running the parser. -/
def ofRun {α : Type} (timestamp : String) (j : Journal) (run : Parser.Run α)
    (answer : α × Parser → Answer) : Outcome where
  answer := match run.toExcept with
    | .ok r => answer r
    | .error e => .interrupted e
  journal := j
  written := j.writeAll timestamp (recordsOfRun run)

/-- Carry out a command at a given time. -/
def step (timestamp : String) (j : Journal) : Command → Outcome
  | .setup choice stream =>
    match setup choice stream j with
    | .ok k => { answer := .ready, journal := k }
    | .error name => { answer := .unknownLevel name, journal := j }
  | .parse source filename =>
    j.ofRun timestamp (Parser.run Parser.program source filename) fun (_, s) =>
      .counts s.statements.length s.errors.length
  | .tokenize source filename =>
    match SLFront.tokenize source filename with
    | .ok ts => { answer := .tokenCount ts.length, journal := j }
    | .error e =>
      { answer := .interrupted e, journal := j
        written := j.write timestamp (.ofLexicalError e) }
  | .expression source filename p =>
    j.ofRun timestamp (Parser.run (Parser.expression p) source filename) fun (e, _) => .expression e
  | .record r => { answer := .recorded, journal := j, written := j.write timestamp r }

/-- Carry out commands in order, all at the same given time. -/
def run (timestamp : String) (j : Journal) : List Command → List Outcome
  | [] => []
  | c :: cs => j.step timestamp c :: run timestamp (j.step timestamp c).journal cs

end Journal
end SLFront.Log
