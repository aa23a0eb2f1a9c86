/-!
Lines of bytes.
-/
namespace Abacus.Text.Lines

/-- The lines of a text without the line feeds that end them. What follows the last line feed is a
line if it is not empty. -/
def split : List UInt8 → List (List UInt8)
  | [] => []
  | b :: bytes =>
      if b = 0x0a then [] :: split bytes
      else match split bytes with
        | [] => [[b]]
        | line :: lines => (b :: line) :: lines

def dropReturn (line : List UInt8) : List UInt8 :=
  if line.getLast? = some 0x0d then line.dropLast else line

def limit : Nat := 65536

end Abacus.Text.Lines
