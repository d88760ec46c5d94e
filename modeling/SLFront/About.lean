/-!
# About this front end

The facts that the program states about itself.
-/
namespace SLFront.About

/-- The version of the program. -/
def version : String := "0.1.0"

/-- The name that the program gives for its author. -/
def author : String := "xwest"

/-- The terms that the program names. -/
def license : String := "MIT"

end SLFront.About
