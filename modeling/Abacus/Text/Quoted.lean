import Abacus.Text.Printable

/-!
Text between quotes, in the three forms the program writes: with every unprintable character
escaped, with only the common escapes, and as a JSON string.
-/
namespace Abacus.Text

def charOfCode (n : Int) : Char :=
  if 0 ≤ n ∧ n.toNat.isValidChar then Char.ofNat n.toNat else '�'

def hex (width n : Nat) : List Char :=
  let digits := Nat.toDigits 16 n
  List.replicate (width - digits.length) '0' ++ digits

def enclose (quote : Char) (escape : Char → List Char) (text : List Char) : List Char :=
  quote :: (text.flatMap escape ++ [quote])

/-- The quote and the backslash get a backslash, other printable characters stand for themselves,
and the rest is written as a control escape or by its code point. -/
def escapeUnprintable (quote c : Char) : List Char :=
  if c = quote ∨ c = '\\' then ['\\', c]
  else if isPrintable c then [c]
  else match c.toNat with
    | 0x07 => ['\\', 'a']
    | 0x08 => ['\\', 'b']
    | 0x0c => ['\\', 'f']
    | 0x0a => ['\\', 'n']
    | 0x0d => ['\\', 'r']
    | 0x09 => ['\\', 't']
    | 0x0b => ['\\', 'v']
    | n =>
        if n < 0x20 ∨ n = 0x7f then '\\' :: 'x' :: hex 2 n
        else if n < 0x10000 then '\\' :: 'u' :: hex 4 n
        else '\\' :: 'U' :: hex 8 n

def quoted (quote : Char) (text : List Char) : List Char :=
  enclose quote (escapeUnprintable quote) text

def escapeCommon (quote c : Char) : List Char :=
  if c = '\n' then ['\\', 'n']
  else if c = '\t' then ['\\', 't']
  else if c = '\r' then ['\\', 'r']
  else if c = '\\' then ['\\', '\\']
  else if c = quote then ['\\', c]
  else if c = '\x00' then ['\\', '0']
  else [c]

def listed (quote : Char) (text : List Char) : List Char :=
  enclose quote (escapeCommon quote) text

def escapeJson (c : Char) : List Char :=
  if c = '"' ∨ c = '\\' then ['\\', c]
  else match c.toNat with
    | 0x08 => ['\\', 'b']
    | 0x0c => ['\\', 'f']
    | 0x0a => ['\\', 'n']
    | 0x0d => ['\\', 'r']
    | 0x09 => ['\\', 't']
    | n =>
        if n < 0x20 ∨ c = '<' ∨ c = '>' ∨ c = '&' ∨ n = 0x2028 ∨ n = 0x2029 then
          '\\' :: 'u' :: hex 4 n
        else [c]

def jsonString (text : List Char) : List Char :=
  enclose '"' escapeJson text

end Abacus.Text
