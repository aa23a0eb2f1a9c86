import Abacus.Number.Integer
import Abacus.Number.Layout
import Abacus.Text.Quoted
import Abacus.Tree

/-!
Terms as text: an indented dump and S-expressions.
-/
namespace Abacus

def resultLayout : Number.Layout := ⟨-4, 6, 2⟩

namespace Label

def symbol : Label → List Char
  | .number value => Number.integerText value.toInt
  | .float value => (resultLayout.text value).toList
  | .ident name => name.toList
  | label => label.operation.text.toList

def line : Label → List Char
  | .number value => "Number ".toList ++ Number.integerText value.toInt
  | .float value => "Float ".toList ++ (resultLayout.text value).toList
  | .ident name => "Ident ".toList ++ Text.quoted '"' name.toList
  | label => label.operation.text.toList

end Label

namespace Term

def indented (depth : Nat) (line : List Char) : List Char :=
  List.replicate (2 * depth) ' ' ++ line ++ ['\n']

def dumpOnto (depth : Nat) : Term → List Char → List Char
  | .empty, rest => rest
  | .node label left right, rest =>
      indented depth label.line ++
        match label with
        | .number _ | .float _ | .ident _ => rest
        | .unary _ => dumpOnto (depth + 1) left rest
        | _ =>
            indented (depth + 1) "Left:".toList ++
              dumpOnto (depth + 2) left
                (indented (depth + 1) "Right:".toList ++ dumpOnto (depth + 2) right rest)

def dump (t : Term) : String :=
  String.ofList (if t.isEmpty then indented 0 "Empty".toList else dumpOnto 0 t [])

def sexprOnto : Term → List Char → List Char
  | .empty, rest => "<nil>".toList ++ rest
  | .node label left right, rest =>
      match label with
      | .number _ | .float _ | .ident _ => label.symbol ++ rest
      | .unary _ => '(' :: (label.symbol ++ ' ' :: sexprOnto left (')' :: rest))
      | _ =>
          '(' :: (label.symbol ++ ' ' :: sexprOnto left (' ' :: sexprOnto right (')' :: rest)))

def sexpr (t : Term) : String :=
  String.ofList (sexprOnto t [])

end Term
end Abacus
