/-!
Operators and delimiters, and the reserved words.
-/
namespace Abacus

inductive Symbol where
  | equals | andAnd | orOr | bar | caret | ampersand
  | equalEqual | bangEqual | less | lessEqual | greater | greaterEqual
  | shiftLeft | shiftRight | minus | plus | star | slash | percent | bang | tilde
  | openParen | closeParen | openBracket | closeBracket | openBrace | closeBrace
  | dot | arrow | colon | semicolon
  deriving DecidableEq, Repr

namespace Symbol

def all : List Symbol :=
  [.equals, .andAnd, .orOr, .bar, .caret, .ampersand,
    .equalEqual, .bangEqual, .less, .lessEqual, .greater, .greaterEqual,
    .shiftLeft, .shiftRight, .minus, .plus, .star, .slash, .percent, .bang, .tilde,
    .openParen, .closeParen, .openBracket, .closeBracket, .openBrace, .closeBrace,
    .dot, .arrow, .colon, .semicolon]

def spelling : Symbol → String
  | .equals => "="
  | .andAnd => "&&"
  | .orOr => "||"
  | .bar => "|"
  | .caret => "^"
  | .ampersand => "&"
  | .equalEqual => "=="
  | .bangEqual => "!="
  | .less => "<"
  | .lessEqual => "<="
  | .greater => ">"
  | .greaterEqual => ">="
  | .shiftLeft => "<<"
  | .shiftRight => ">>"
  | .minus => "-"
  | .plus => "+"
  | .star => "*"
  | .slash => "/"
  | .percent => "%"
  | .bang => "!"
  | .tilde => "~"
  | .openParen => "("
  | .closeParen => ")"
  | .openBracket => "["
  | .closeBracket => "]"
  | .openBrace => "\x7b"
  | .closeBrace => "\x7d"
  | .dot => "."
  | .arrow => "->"
  | .colon => ":"
  | .semicolon => ";"

def ofChar? : Char → Option Symbol
  | '=' => some .equals
  | '|' => some .bar
  | '^' => some .caret
  | '&' => some .ampersand
  | '<' => some .less
  | '>' => some .greater
  | '-' => some .minus
  | '+' => some .plus
  | '*' => some .star
  | '/' => some .slash
  | '%' => some .percent
  | '!' => some .bang
  | '~' => some .tilde
  | '(' => some .openParen
  | ')' => some .closeParen
  | '[' => some .openBracket
  | ']' => some .closeBracket
  | '\x7b' => some .openBrace
  | '\x7d' => some .closeBrace
  | '.' => some .dot
  | ':' => some .colon
  | ';' => some .semicolon
  | _ => none

def extend? : Symbol → Char → Option Symbol
  | .ampersand, '&' => some .andAnd
  | .bar, '|' => some .orOr
  | .equals, '=' => some .equalEqual
  | .bang, '=' => some .bangEqual
  | .minus, '>' => some .arrow
  | .less, '=' => some .lessEqual
  | .less, '<' => some .shiftLeft
  | .greater, '=' => some .greaterEqual
  | .greater, '>' => some .shiftRight
  | _, _ => none

/-- Whether what follows decides what a symbol of one character stands for: a longer symbol, a
comment after a slash, or a number after a dot. -/
def looksAhead : Symbol → Bool
  | .ampersand | .bar | .equals | .bang | .minus | .less | .greater | .slash | .dot => true
  | _ => false

end Symbol

inductive Word where
  | function | binding | condition | alternative | loop | jump | record | union
  | u0 | i8 | i16 | i32
  deriving DecidableEq, Repr

namespace Word

def all : List Word :=
  [.function, .binding, .condition, .alternative, .loop, .jump, .record, .union,
    .u0, .i8, .i16, .i32]

def spelling : Word → String
  | .function => "fn"
  | .binding => "let"
  | .condition => "if"
  | .alternative => "else"
  | .loop => "for"
  | .jump => "goto"
  | .record => "struct"
  | .union => "union"
  | .u0 => "u0"
  | .i8 => "i8"
  | .i16 => "i16"
  | .i32 => "i32"

def ofSpelling? (text : String) : Option Word :=
  all.find? (·.spelling = text)

end Word
end Abacus
