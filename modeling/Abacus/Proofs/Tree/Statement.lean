import Abacus.Proofs.Eval.WellFormed
import Abacus.Proofs.Token.Spelling
import Abacus.Tree.Json

/-!
The terms that statements have. Main statements: such a term has no violations, is evaluated without
meeting an invalid node, and has a JSON form if that is not too deep.
-/
namespace Abacus
open Number

/-- Terms of expressions. Numbers are in range, floats are values of literals, and names are
identifiers that are not reserved. -/
inductive Term.IsExpression : Term → Prop where
  | number (value : Int32) (range : 0 ≤ value.toInt ∧ value.toInt ≤ integerLimit) :
      IsExpression (.leaf (.number value))
  | float (value : Float) (numeral : List Char) (valid : Literal.float numeral = .ok value)
      (finite : Binary64.isFinite value = true) : IsExpression (.leaf (.float value))
  | ident (name : String) (spelled : isName name.toList = true)
      (free : Word.ofSpelling? name = none) : IsExpression (.leaf (.ident name))
  | unary (op : UnaryOp) {x : Term} (operand : IsExpression x) : IsExpression (.unary op x)
  | binary (op : BinaryOp) {x y : Term} (left : IsExpression x) (right : IsExpression y) :
      IsExpression (.binary op x y)
  | assign {x y : Term} (left : IsExpression x) (right : IsExpression y) :
      IsExpression (.assign x y)

/-- Terms of statements that have an effect: terms of expressions, joined by nodes that stand above
all of these. -/
inductive Term.IsStatement : Term → Prop where
  | expression {x : Term} (expression : x.IsExpression) : IsStatement x
  | glue {x y : Term} (first : IsStatement x) (second : IsStatement y) :
      IsStatement (.node .glue x y)

namespace Term

theorem IsExpression.isEmpty {t : Term} (shape : t.IsExpression) : t.isEmpty = false := by
  cases shape <;> rfl

theorem IsStatement.isEmpty {t : Term} (shape : t.IsStatement) : t.isEmpty = false := by
  cases shape with
  | expression shape => exact shape.isEmpty
  | glue => rfl

theorem IsExpression.wellFormed {t : Term} (shape : t.IsExpression) : t.WellFormed := by
  induction shape with
  | number | float | ident => exact ⟨rfl, trivial, trivial⟩
  | unary op operand ih =>
      exact (wellFormed_node_unary op _ _).mpr ⟨⟨operand.isEmpty, rfl⟩, ih, trivial⟩
  | binary op left right ih_left ih_right =>
      exact (wellFormed_node_binary _ _ _ rfl).mpr
        ⟨⟨left.isEmpty, right.isEmpty⟩, ih_left, ih_right⟩
  | assign left right ih_left ih_right =>
      exact (wellFormed_node_binary _ _ _ rfl).mpr
        ⟨⟨left.isEmpty, right.isEmpty⟩, ih_left, ih_right⟩

theorem IsStatement.wellFormed {t : Term} (shape : t.IsStatement) : t.WellFormed := by
  induction shape with
  | expression shape => exact shape.wellFormed
  | glue first second ih_first ih_second =>
      exact wellFormed_glue _ _ ih_first ih_second first.isEmpty second.isEmpty

section Json

theorem IsExpression.notFinite?_eq {t : Term} (shape : t.IsExpression) : t.notFinite? = none := by
  induction shape with
  | number | ident => rfl
  | float value numeral valid finite => exact if_pos finite
  | unary op operand ih => simp [Term.unary, notFinite?, ih]
  | binary op left right ih_left ih_right => simp [Term.binary, notFinite?, ih_left, ih_right]
  | assign left right ih_left ih_right => simp [Term.assign, notFinite?, ih_left, ih_right]

theorem IsStatement.notFinite?_eq {t : Term} (shape : t.IsStatement) : t.notFinite? = none := by
  induction shape with
  | expression shape => exact shape.notFinite?_eq
  | glue first second ih_first ih_second => simp [notFinite?, ih_first, ih_second]

theorem IsStatement.json_eq {t : Term} (shape : t.IsStatement) :
    t.json = if jsonDepthLimit < t.jsonDepth then .error .tooDeep
      else .ok (String.ofList (jsonOnto 0 t ['\n'])) := by
  simp only [json, shape.notFinite?_eq]

end Json

end Term

end Abacus
