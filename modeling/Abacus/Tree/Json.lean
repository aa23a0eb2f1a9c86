import Abacus.Tree.Printer

/-!
Terms as JSON, indented by two spaces, with the keys of an object in alphabetical order.
-/
namespace Abacus

def jsonLayout : Number.Layout := ⟨-6, 21, 1⟩

inductive JsonError where
  | notFinite (value : Float)
  | tooDeep
  deriving DecidableEq, Repr

def JsonError.message : JsonError → String
  | .notFinite value => "json: unsupported value: " ++ jsonLayout.text value
  | .tooDeep => "exceeded max depth"

def jsonDepthLimit : Nat := 10000

namespace Term

/-- How many objects stand inside one another in the JSON form of a term. Literals and names are
written without their children. -/
def jsonDepth : Term → Nat
  | .empty => 0
  | .node (.number _) _ _ | .node (.float _) _ _ | .node (.ident _) _ _ => 1
  | .node _ left right => max (jsonDepth left) (jsonDepth right) + 1

def notFinite? : Term → Option Float
  | .empty => none
  | .node (.number _) _ _ | .node (.ident _) _ _ => none
  | .node (.float value) _ _ => if Number.Binary64.isFinite value then none else some value
  | .node _ left right => notFinite? left <|> notFinite? right

def jsonKey (depth : Nat) (key : String) : List Char :=
  '\n' :: List.replicate (2 * (depth + 1)) ' ' ++ Text.jsonString key.toList ++ [':', ' ']

def jsonClose (depth : Nat) (rest : List Char) : List Char :=
  '\n' :: List.replicate (2 * depth) ' ' ++ '\x7d' :: rest

/-- The JSON text of a term below `depth` levels, put before `rest`. A missing right child is left
out. -/
def jsonOnto (depth : Nat) : Term → List Char → List Char
  | .empty, rest => "null".toList ++ rest
  | .node label left right, rest =>
      let name := Text.jsonString label.operation.text.toList
      let type := jsonKey depth "type" ++ name
      match label with
      | .number value =>
          '\x7b' :: type ++ ',' :: jsonKey depth "value" ++ Number.integerText value.toInt ++
            jsonClose depth rest
      | .float value =>
          '\x7b' :: type ++ ',' :: jsonKey depth "value" ++ (jsonLayout.text value).toList ++
            jsonClose depth rest
      | .ident ident =>
          '\x7b' :: jsonKey depth "name" ++ Text.jsonString ident.toList ++ ',' :: type ++
            jsonClose depth rest
      | _ =>
          let close := ',' :: type ++ jsonClose depth rest
          '\x7b' :: jsonKey depth "left" ++
            jsonOnto (depth + 1) left
              (if right.isEmpty then close
              else ',' :: jsonKey depth "right" ++ jsonOnto (depth + 1) right close)

def json (t : Term) : Except JsonError String :=
  match t.notFinite? with
  | some value => .error (.notFinite value)
  | none =>
      if jsonDepthLimit < jsonDepth t then .error .tooDeep
      else .ok (String.ofList (jsonOnto 0 t ['\n']))

end Term
end Abacus
