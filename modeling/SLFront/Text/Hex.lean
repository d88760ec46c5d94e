/-!
# Hexadecimal digits of a fixed width

Escape sequences write a code point with a fixed number of lower-case hexadecimal digits, the most
significant first.
-/
namespace SLFront.Text

/-- The last `width` hexadecimal digits of `n`, with leading zeros. -/
def hexDigits : Nat → Nat → List Char
  | 0, _ => []
  | width + 1, n => hexDigits width (n / 16) ++ [Nat.digitChar (n % 16)]

end SLFront.Text
