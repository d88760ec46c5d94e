/-!
# Log levels

A level says how much a record matters. Some numbers have a name, and some names are second names.
Only numbers above zero are levels of records that are written.
-/
namespace SLFront.Log

/-- The names of levels with their numbers. The first name for a number is the one that is shown. -/
def levelNames : List (String × Int) :=
  [("CRITICAL", 50), ("FATAL", 50), ("ERROR", 40), ("WARNING", 30), ("WARN", 30), ("INFO", 20),
    ("DEBUG", 10), ("NOTSET", 0)]

/-- The level that a name stands for. Letter case matters. -/
def levelOfName? (name : String) : Option Int := levelNames.lookup name

/-- How a level is shown. -/
def levelText (level : Int) : String :=
  match levelNames.find? (·.2 = level) with
  | some (name, _) => name
  | none => s!"Level {level}"

/-- The level that records have to exceed to be written at all. -/
def silentLevel : Int := 0

/-- The level of remarks for developers. -/
def debugLevel : Int := 10

/-- The level of warnings, which holds where none is set. -/
def warningLevel : Int := 30

/-- The level of errors. -/
def errorLevel : Int := 40

end SLFront.Log
