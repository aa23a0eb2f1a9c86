import Abacus.Parser.ParseError
import Abacus.Token.Stream
import Abacus.Tree

/-!
Parsing: a machine that reads a statement token by token.

Operators whose right operand is still missing wait on a stack. A new operator first completes the
waiting ones that bind at least as tightly, which makes all operators but assignment associate to
the left. From loose to tight: `=`, `|`, `^`, `&`, shifts, sums, products, signs.
-/
namespace Abacus
namespace Parser

/-- How tightly an operator binds; assignment has level 0. -/
def level : BinaryOp → Nat
  | .bitOr => 1
  | .bitXor => 2
  | .bitAnd => 3
  | .shl | .shr => 4
  | .add | .sub => 5
  | .mul | .div | .mod => 6

def binaryOp? : Symbol → Option BinaryOp
  | .bar => some .bitOr
  | .caret => some .bitXor
  | .ampersand => some .bitAnd
  | .shiftLeft => some .shl
  | .shiftRight => some .shr
  | .plus => some .add
  | .minus => some .sub
  | .star => some .mul
  | .slash => some .div
  | .percent => some .mod
  | _ => none

inductive Frame where
  | unary (op : UnaryOp)
  | binary (op : BinaryOp) (left : Term)
  | assign (left : Term)
  | paren

/-- The term that a frame completes to once its operand is read, if the operators of level
`bound` and above are to be completed. -/
def Frame.complete? (bound : Nat) (operand : Term) : Frame → Option Term
  | .unary op => some (.unary op operand)
  | .binary op left => if bound ≤ level op then some (.binary op left operand) else none
  | .assign left => if bound = 0 then some (.assign left operand) else none
  | .paren => none

def complete (bound : Nat) : List Frame → Term → Term × List Frame
  | [], operand => (operand, [])
  | frame :: frames, operand =>
      match frame.complete? bound operand with
      | some term => complete bound frames term
      | none => (operand, frame :: frames)

inductive Phase where
  | start
  | operand (frames : List Frame)
  | operator (frames : List Frame) (operand : Term)

/-- The terms of the blocks that are open, innermost first, and the phase of the statement being
read. -/
structure State where
  blocks : List Term := []
  phase : Phase := .start

def State.initial : State := {}

inductive Step where
  | next (state : State)
  | accept (term : Term)
  | reject (error : ParseError)

def endStatement (term : Term) : List Term → Step
  | [] => .accept term
  | block :: blocks => .next ⟨block.sequence term :: blocks, .start⟩

def stepOperand (blocks : List Term) (frames : List Frame) (token : Token) : Step :=
  match token with
  | .symbol .openParen => .next ⟨blocks, .operand (.paren :: frames)⟩
  -- a plus sign leaves no trace
  | .symbol .plus => .next ⟨blocks, .operand frames⟩
  | .symbol .minus => .next ⟨blocks, .operand (.unary .negate :: frames)⟩
  | .symbol .tilde => .next ⟨blocks, .operand (.unary .bitNot :: frames)⟩
  | .int _ text =>
      match Literal.integer text.toList with
      | .ok value => .next ⟨blocks, .operator frames (.leaf (.number value))⟩
      | .error cause => .reject (.badInteger cause)
  | .float _ text =>
      match Literal.float text.toList with
      | .ok value => .next ⟨blocks, .operator frames (.leaf (.float value))⟩
      | .error cause => .reject (.badFloat cause)
  | .name text => .next ⟨blocks, .operator frames (.leaf (.ident text))⟩
  | _ => .reject (.unexpected token)

def stepClose (blocks : List Term) (frames : List Frame) (operand : Term) (token : Token) : Step :=
  match complete 0 frames operand with
  | (term, []) =>
      if token = .symbol .semicolon then endStatement term blocks
      else .reject (.expected .semicolon token)
  -- only a parenthesis is left waiting when all operators are completed
  | (term, _ :: outer) =>
      if token = .symbol .closeParen then .next ⟨blocks, .operator outer term⟩
      else .reject (.expected .closeParen token)

def stepOperator (blocks : List Term) (frames : List Frame) (operand : Term) (token : Token) :
    Step :=
  match token with
  | .symbol .equals =>
      let (left, frames) := complete 1 frames operand
      .next ⟨blocks, .operand (.assign left :: frames)⟩
  | .symbol symbol =>
      match binaryOp? symbol with
      | some op =>
          let (left, frames) := complete (level op) frames operand
          .next ⟨blocks, .operand (.binary op left :: frames)⟩
      | none => stepClose blocks frames operand token
  | _ => stepClose blocks frames operand token

def stepStart (blocks : List Term) (token : Token) : Step :=
  match token, blocks with
  | .symbol .openBrace, _ => .next ⟨.empty :: blocks, .start⟩
  | .symbol .semicolon, _ => endStatement .empty blocks
  | .symbol .closeBrace, block :: outer => endStatement block outer
  | _, _ => stepOperand blocks [] token

def step (state : State) (token : Token) : Step :=
  match state.phase with
  | .start => stepStart state.blocks token
  | .operand frames => stepOperand state.blocks frames token
  | .operator frames operand => stepOperator state.blocks frames operand token

def endError? (state : State) : Option ParseError :=
  match state.phase, state.blocks with
  | .start, [] => none
  | .start, _ :: _ => some (.expected .closeBrace .eof)
  | .operand _, _ => some (.unexpected .eof)
  | .operator frames operand, _ =>
      match complete 0 frames operand with
      | (_, []) => some (.expected .semicolon .eof)
      | (_, _ :: _) => some (.expected .closeParen .eof)

inductive Reply where
  | endOfInput
  | statement (term : Term)
  | error (error : ParseError)

def replyAtEnd (ending : Ending) (state : State) : Reply :=
  match ending with
  | .failed reason => .error (.lexical (.readFailure reason))
  | .finished =>
      match endError? state with
      | none => .endOfInput
      | some error => .error error

def run (ending : Ending) (state : State) : List Item → Reply × List Item
  | [] => (replyAtEnd ending state, [])
  | .error cause :: items => (.error (.lexical cause), items)
  | .ok token :: items =>
      match step state token with
      | .next state => run ending state items
      | .accept term => (.statement term, items)
      | .reject error => (.error error, if error.keepsToken then .ok token :: items else items)

end Parser

namespace TokenStream
open Abacus.Parser

def statement (stream : TokenStream) : Reply × TokenStream :=
  let (reply, items) := run stream.ending .initial stream.items
  (reply, { stream with items := items })

/-- The replies to at most `count` requests. The end of input is the last one; so is an error,
unless parsing is to resume after it. -/
def replies (resume : Bool) : Nat → TokenStream → List Reply
  | 0, _ => []
  | count + 1, stream =>
      let (reply, rest) := stream.statement
      match reply with
      | .endOfInput => [reply]
      | .statement _ => reply :: replies resume count rest
      | .error _ => if resume then reply :: replies resume count rest else [reply]

end TokenStream

structure Script where
  statements : List Term
  error : Option ParseError

namespace Script
open Abacus.Parser

def ofReply : Reply → Script
  | .endOfInput => ⟨[], none⟩
  | .statement term => ⟨[term], none⟩
  | .error error => ⟨[], some error⟩

def read (ending : Ending) (state : State) : List Item → Script
  | [] => ofReply (replyAtEnd ending state)
  | .error cause :: _ => ⟨[], some (.lexical cause)⟩
  | .ok token :: items =>
      match step state token with
      | .next state => read ending state items
      | .accept term =>
          let rest := read ending .initial items
          { rest with statements := term :: rest.statements }
      | .reject error => ⟨[], some error⟩

def ofSource (source : Source) : Script :=
  read source.ending .initial source.stream.items

end Script
end Abacus
