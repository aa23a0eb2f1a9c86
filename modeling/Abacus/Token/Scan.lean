import Abacus.Number.Integer
import Abacus.Number.PowerOfTen
import Abacus.Text.Digit
import Abacus.Text.Letter
import Abacus.Token
import Abacus.Token.LexError
import Abacus.Token.Trivia

/-!
Scanning: the next token of a text and the text that is left after it.

Where it matters that input ends, a scanner looks at the text that is left and so meets a read
failure there.
-/
namespace Abacus.Scan
open Number Text

abbrev Result (α : Type) := Except LexError α × List Char

/-- Goes on from the value `n` through more digits. Fails at the first digit that leads past the
limit, with the digits after it. -/
def bounded (base : Nat) : Nat → List Char → Except (List Char) Nat
  | n, [] => .ok n
  | n, c :: digits =>
      let next := n * base + (digitValue? c).getD 0
      if integerLimit < next then .error digits else bounded base next digits

def andThen {α β : Type} (first : Result α) (next : α → List Char → Result β) : Result β :=
  match first with
  | (.ok value, rest) => next value rest
  | (.error e, rest) => (.error e, rest)

def scanWhile (ending : Ending) (p : Char → Bool) (text : List Char) : Result (List Char) :=
  (ending.lookAt (text.dropWhile p) (.ok (text.takeWhile p)), text.dropWhile p)

def scanDigits (ending : Ending) (base : Nat) (text : List Char) : Result (Nat × List Char) :=
  let digits := text.takeWhile fun c => (digit? base c).isSome
  let rest := text.dropWhile fun c => (digit? base c).isSome
  match bounded base 0 digits with
  | .error left => (.error .integerOverflow, left ++ rest)
  | .ok n => (ending.lookAt rest (.ok (n, digits)), rest)

def splitSign : List Char → List Char × List Char
  | '-' :: text => (['-'], text)
  | '+' :: text => (['+'], text)
  | text => ([], text)

/-- An exponent from behind its marker and its sign. What stands in place of its first digit is
dropped. -/
def scanPower (ending : Ending) (marker : Char) (sign : List Char) :
    List Char → Result (Option Int × List Char)
  | [] => (ending.lookAt [] (.error .malformedFloat), [])
  | d :: text =>
      if isDigit d then
        andThen (scanDigits ending 10 (d :: text)) fun (n, digits) rest =>
          (.ok (some (if sign = ['-'] then -(n : Int) else n), marker :: (sign ++ digits)), rest)
      else (.error .malformedFloat, text)

def scanExponent (ending : Ending) : List Char → Result (Option Int × List Char)
  | [] => (ending.lookAt [] (.ok (none, [])), [])
  | marker :: text =>
      if marker = 'e' ∨ marker = 'E' then
        scanPower ending marker (splitSign text).1 (splitSign text).2
      else (.ok (none, []), marker :: text)

/-- `x * 10 ^ e` in double precision; zero stays zero even if the power is infinite. -/
def shift (x : Float) (e : Int) : Float :=
  if x == 0 then 0 else x * PowerOfTen.value e

/-- The value of the digits after a point, summed up in double precision from the left. -/
def fractionValue (digits : List Char) : Float :=
  let add := fun (sum, place) c =>
    let place := place / 10
    (sum + Float.ofNat ((digitValue? c).getD 0) * place, place)
  (digits.foldl add ((0 : Float), (1 : Float))).1

def floatToken (whole : Nat) (digits : List Char) (exponent : Option Int) (text : String) : Token :=
  let x := Float.ofNat whole + fractionValue digits
  match exponent with
  | none => .float x text
  | some e => .float (shift x e) text

/-- An integer with an exponent is worth what is left when the fraction is dropped. -/
def integerToken (n : Nat) (exponent : Option Int) (text : String) : Except LexError Token :=
  match exponent with
  | none => .ok (.int (Int32.ofNat n) text)
  | some e =>
      let x := shift (Float.ofNat n) e
      if Float.ofNat integerLimit < x then .error .integerOverflow
      else .ok (.int (Binary64.toInt32 x) text)

def scanFraction (ending : Ending) (whole : Nat) (front text : List Char) : Result Token :=
  andThen (scanWhile ending isDigit text) fun digits rest =>
    andThen (scanExponent ending rest) fun (exponent, spelling) rest =>
      (.ok (floatToken whole digits exponent (String.ofList (front ++ digits ++ spelling))), rest)

def scanRadix (ending : Ending) (base : Nat) (front text : List Char) : Result Token :=
  andThen (scanDigits ending base text) fun (n, digits) rest =>
    (.ok (.int (Int32.ofNat n) (String.ofList (front ++ digits))), rest)

def scanInteger (ending : Ending) (n : Nat) (digits text : List Char) : Result Token :=
  andThen (scanExponent ending text) fun (exponent, spelling) rest =>
    (integerToken n exponent (String.ofList (digits ++ spelling)), rest)

def scanTail (ending : Ending) (n : Nat) (digits : List Char) : List Char → Result Token
  | '.' :: text => scanFraction ending n (digits ++ ['.']) text
  | text => scanInteger ending n digits text

def scanDecimal (ending : Ending) (text : List Char) : Result Token :=
  andThen (scanDigits ending 10 text) fun (n, digits) => scanTail ending n digits

/-- A number from its first digit on: `0x` starts a hexadecimal one, another zero before a digit an
octal one. -/
def scanNumber (ending : Ending) : List Char → Result Token
  | '0' :: 'x' :: text => scanRadix ending 16 ['0', 'x'] text
  | '0' :: d :: text =>
      if isDigit d then scanRadix ending 8 ['0'] (d :: text)
      else scanDecimal ending ('0' :: d :: text)
  | text => scanDecimal ending text

def unescape? : Char → Option Char
  | 'n' => some '\n'
  | 'r' => some '\r'
  | 't' => some '\t'
  | '"' => some '"'
  | _ => none

/-- The content of a string and the text after its closing quote. A backslash that starts no known
escape stands for itself. -/
def stringContent? : List Char → Option (List Char × List Char)
  | [] => none
  | '"' :: text => some ([], text)
  | '\\' :: c :: text =>
      match unescape? c with
      | some d => (stringContent? text).map fun read => (d :: read.1, read.2)
      | none => (stringContent? (c :: text)).map fun read => ('\\' :: read.1, read.2)
  | c :: text => (stringContent? text).map fun read => (c :: read.1, read.2)

def scanString (ending : Ending) (text : List Char) : Result Token :=
  match stringContent? text with
  | none => (ending.lookAt [] (.error .unterminatedString), [])
  | some (content, rest) => (.ok (.string (String.ofList content)), rest)

def scanChar (ending : Ending) : List Char → Result Token
  | c :: quote :: rest => (if quote = '\'' then .ok (.char c) else .error .charTooLong, rest)
  | _ => (ending.lookAt [] (.error .unterminatedChar), [])

def isNameStart (c : Char) : Bool :=
  isLetter c || c == '_'

def isNameChar (c : Char) : Bool :=
  isNameStart c || isDigit c

def scanName (ending : Ending) (text : List Char) : Result Token :=
  andThen (scanWhile ending isNameChar text) fun name rest =>
    (.ok (.ofIdentifier (String.ofList name)), rest)

/-- A symbol from behind its first character, which spells `s`. A dot before a digit starts a
float. -/
def scanSymbol (ending : Ending) (s : Symbol) : List Char → Result Token
  | [] => (if s.looksAhead then ending.lookAt [] (.ok (.symbol s)) else .ok (.symbol s), [])
  | c :: text =>
      match s.extend? c with
      | some longer => (.ok (.symbol longer), text)
      | none =>
          if s = .dot ∧ isDigit c then scanFraction ending 0 ['.'] (c :: text)
          else (.ok (.symbol s), c :: text)

def scanFrom (ending : Ending) (c : Char) (text : List Char) : Result Token :=
  match Symbol.ofChar? c with
  | some s => scanSymbol ending s text
  | none =>
      if c = '\'' then scanChar ending text
      else if c = '"' then scanString ending text
      else if isDigit c then scanNumber ending (c :: text)
      else if isNameStart c then scanName ending (c :: text)
      else (.error (.unexpectedChar c), text)

def scanToken (ending : Ending) : List Char → Result Token
  | [] => (ending.lookAt [] (.ok .eof), [])
  | c :: text => scanFrom ending c text

end Abacus.Scan

namespace Abacus

def scan (ending : Ending) (text : List Char) : Scan.Result Token :=
  match Trivia.skip text with
  | none => (ending.lookAt [] (.error .unterminatedComment), [])
  | some rest => Scan.scanToken ending rest

end Abacus
