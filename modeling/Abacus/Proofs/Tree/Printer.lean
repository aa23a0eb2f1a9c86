import Abacus.Proofs.CommandLine.Modes
import Abacus.Proofs.Eval.Types
import Abacus.Proofs.Number.Layout
import Abacus.Proofs.Text.Quoted

/-!
Printed terms can be read back. Main statements: the dumps of statements, one after another,
determine the statements, and the S-expression of a term without floats determines the term.
-/
namespace Abacus
open Number Text

theorem Text.word_append_inj (stop : Char → Bool) (word word' rest rest' : List Char)
    (inner : ∀ c ∈ word, stop c = false) (inner' : ∀ c ∈ word', stop c = false)
    (ends : ∀ c ∈ rest.head?, stop c = true) (ends' : ∀ c ∈ rest'.head?, stop c = true)
    (same : word ++ rest = word' ++ rest') : word = word' ∧ rest = rest' := by
  have taken (word rest : List Char) (inner : ∀ c ∈ word, stop c = false)
      (ends : ∀ c ∈ rest.head?, stop c = true) : (word ++ rest).takeWhile (!stop ·) = word :=
    (Scan.span_append (!stop ·) word rest (by simpa using inner) (by simpa using ends)).1
  have words : word = word' := by
    rw [← taken word rest inner ends, same, taken word' rest' inner' ends']
  subst words
  exact ⟨rfl, List.append_cancel_left same⟩

namespace Operation

theorem ofText?_text (op : Operation) (known : op.arity? ≠ none) : ofText? op.text = some op := by
  cases op with
  | unary op => cases op <;> decide
  | binary op => cases op <;> decide
  | unknown code => exact absurd rfl known
  | number | float | ident | assign | glue => decide

theorem text_inj (op other : Operation) (known : op.arity? ≠ none) (known' : other.arity? ≠ none)
    (same : op.text = other.text) : op = other := by
  have found := ofText?_text op known
  rw [same, ofText?_text other known'] at found
  exact (Option.some.inj found).symm

theorem isAlpha_of_mem_text (op : Operation) (known : op.arity? ≠ none) :
    ∀ c ∈ op.text.toList, c.isAlpha = true := by
  cases op with
  | unary op => cases op <;> simp [text]
  | binary op => cases op <;> simp [text]
  | unknown code => exact absurd rfl known
  | number | float | ident | assign | glue => simp [text]

end Operation

namespace Label

section Lines

def payload : Label → List Char
  | .number value => ' ' :: integerText value.toInt
  | .float value => ' ' :: (resultLayout.text value).toList
  | .ident name => ' ' :: quoted '"' name.toList
  | _ => []

theorem line_eq (label : Label) : label.line = label.operation.text.toList ++ label.payload := by
  -- for any text, since the texts of numbers are not to be computed
  have number (x : List Char) : "Number ".toList ++ x = "Number".toList ++ ' ' :: x := rfl
  have float (x : List Char) : "Float ".toList ++ x = "Float".toList ++ ' ' :: x := rfl
  have ident (x : List Char) : "Ident ".toList ++ x = "Ident".toList ++ ' ' :: x := rfl
  cases label with
  | number value => exact number _
  | float value => exact float _
  | ident name => exact ident _
  | unary | binary | assign | glue | unknown => exact (List.append_nil _).symm

theorem eq_of_payload_eq (label other : Label) (operation : label.operation = other.operation)
    (same : label.payload = other.payload) : label = other := by
  cases label <;> cases other <;> simp only [Label.operation, payload, reduceCtorEq,
    Operation.unary.injEq, Operation.binary.injEq, Operation.unknown.injEq] at operation same
  case number.number m n =>
    rw [Int32.toInt_inj.mp (integerText_injective (List.cons.inj same).2)]
  case float.float x y =>
    rw [resultLayout.text_injective (String.toList_inj.mp (List.cons.inj same).2)]
  case ident.ident a b =>
    rw [String.toList_inj.mp (quoted_injective (List.cons.inj same).2)]
  all_goals simp [operation]

theorem blank_of_mem_head?_payload (label : Label) :
    ∀ c ∈ label.payload.head?, (c == ' ') = true := by
  cases label <;> simp [payload]

variable (label other : Label) (known : label.operation.arity? ≠ none)
include known

theorem blank_not_mem_text : ∀ c ∈ label.operation.text.toList, (c == ' ') = false := by
  intro c member
  have letter := label.operation.isAlpha_of_mem_text known c member
  refine beq_false_of_ne ?_
  rintro rfl
  exact absurd letter (by decide)

theorem line_inj (known' : other.operation.arity? ≠ none) (same : label.line = other.line) :
    label = other := by
  rw [line_eq, line_eq] at same
  obtain ⟨texts, payloads⟩ := word_append_inj (· == ' ') _ _ _ _ (label.blank_not_mem_text known)
    (other.blank_not_mem_text known') label.blank_of_mem_head?_payload
    other.blank_of_mem_head?_payload same
  have operation := Operation.text_inj _ _ known known' (String.toList_inj.mp texts)
  exact label.eq_of_payload_eq other operation payloads

theorem newline_not_mem_line : '\n' ∉ label.line := by
  have text : '\n' ∉ label.operation.text.toList := fun member =>
    absurd (label.operation.isAlpha_of_mem_text known _ member) (by decide)
  have payload : '\n' ∉ label.payload := by
    cases label with
    | number value => simp [payload, newline_not_mem_integerText]
    | float value => simp [payload, Layout.newline_not_mem_text]
    | ident name => simp [payload, newline_not_mem_quoted]
    | unary | binary | assign | glue | unknown => simp [payload]
  rw [line_eq, List.mem_append, not_or]
  exact ⟨text, payload⟩

theorem line_ne_empty : label.line ≠ "Empty".toList := by
  intro same
  rw [line_eq, ← List.append_nil "Empty".toList] at same
  obtain ⟨text, -⟩ := word_append_inj (· == ' ') _ _ _ _ (label.blank_not_mem_text known)
    (by simp) label.blank_of_mem_head?_payload (by simp) same
  have found := label.operation.ofText?_text known
  rw [String.toList_inj.mp text] at found
  have unnamed : Operation.ofText? "Empty" = none := by decide
  rw [unnamed] at found
  cases found

end Lines

end Label

namespace Term

section Dumps

theorem indented_append_inj (depth : Nat) (line line' rest rest' : List Char) (single : '\n' ∉ line)
    (single' : '\n' ∉ line') (same : indented depth line ++ rest = indented depth line' ++ rest') :
    line = line' ∧ rest = rest' := by
  simp only [indented, List.append_assoc] at same
  have lines := List.append_cancel_left same
  have inner (line : List Char) (single : '\n' ∉ line) : ∀ c ∈ line, (c == '\n') = false := by
    intro c member
    exact beq_false_of_ne fun same => single (same ▸ member)
  obtain ⟨line_eq, rest_eq⟩ := word_append_inj (· == '\n') _ _ _ _ (inner line single)
    (inner line' single') (by simp) (by simp) lines
  exact ⟨line_eq, (List.cons.inj rest_eq).2⟩

theorem dumpOnto_node (depth : Nat) (label : Label) (left right : Term) (rest : List Char) :
    dumpOnto depth (.node label left right) rest = indented depth label.line ++
      match label.operation.arity? with
      | some .leaf => rest
      | some .unary => dumpOnto (depth + 1) left rest
      | _ => indented (depth + 1) "Left:".toList ++ dumpOnto (depth + 2) left
          (indented (depth + 1) "Right:".toList ++ dumpOnto (depth + 2) right rest) := by
  cases label <;> rfl

theorem dumpOnto_append (t : Term) (depth : Nat) (rest more : List Char) :
    dumpOnto depth t (rest ++ more) = dumpOnto depth t rest ++ more := by
  induction t generalizing depth rest with
  | empty => rfl
  | node label left right ih_left ih_right =>
      rw [dumpOnto_node, dumpOnto_node, List.append_assoc]
      congr 1
      split
      · rfl
      · exact ih_left (depth + 1) rest
      · rw [ih_right, ← List.append_assoc, ih_left, List.append_assoc]

theorem eq_empty_of_isEmpty (t : Term) (none : t.isEmpty = true) : t = .empty := by
  cases t with
  | empty => rfl
  | node => cases none

def HasChildren (left right : Term) : Option Operation.Arity → Prop
  | none => False
  | some .leaf => left = .empty ∧ right = .empty
  | some .unary => (left.isEmpty = false ∧ left.WellFormed) ∧ right = .empty
  | some .binary =>
      (left.isEmpty = false ∧ left.WellFormed) ∧ right.isEmpty = false ∧ right.WellFormed

theorem WellFormed.children {label : Label} {left right : Term}
    (formed : WellFormed (.node label left right)) :
    HasChildren left right label.operation.arity? := by
  obtain ⟨flaws, left_formed, right_formed⟩ := formed
  rw [Operation.flaws] at flaws
  generalize label.operation.arity? = arity at flaws ⊢
  cases arity with
  | none => simp at flaws
  | some arity =>
      cases arity with
      | leaf =>
          obtain ⟨no_left, no_right⟩ : left.isEmpty = true ∧ right.isEmpty = true := by
            simpa using flaws
          exact ⟨eq_empty_of_isEmpty left no_left, eq_empty_of_isEmpty right no_right⟩
      | unary =>
          obtain ⟨has_left, no_right⟩ : left.isEmpty = false ∧ right.isEmpty = true := by
            simpa using flaws
          exact ⟨⟨has_left, left_formed⟩, eq_empty_of_isEmpty right no_right⟩
      | binary =>
          obtain ⟨has_left, has_right⟩ : left.isEmpty = false ∧ right.isEmpty = false := by
            simpa using flaws
          exact ⟨⟨has_left, left_formed⟩, has_right, right_formed⟩

theorem WellFormed.arity?_ne_none {label : Label} {left right : Term}
    (formed : WellFormed (.node label left right)) : label.operation.arity? ≠ none := by
  intro unknown
  have children := formed.children
  rw [unknown] at children
  exact children

theorem dumpOnto_inj (t t' : Term) (formed : t.WellFormed) (formed' : t'.WellFormed)
    (nonempty : t.isEmpty = false) (nonempty' : t'.isEmpty = false) (depth : Nat)
    (rest rest' : List Char) (same : dumpOnto depth t rest = dumpOnto depth t' rest') :
    t = t' ∧ rest = rest' := by
  -- the line of the root says how many dumps follow it: depth need only be the same on both sides
  induction t generalizing t' depth rest rest' with
  | empty => cases nonempty
  | node label left right ih_left ih_right =>
  cases t' with
  | empty => cases nonempty'
  | node label' left' right' =>
      have known := formed.arity?_ne_none
      have known' := formed'.arity?_ne_none
      rw [dumpOnto_node, dumpOnto_node] at same
      obtain ⟨lines, behind⟩ := indented_append_inj depth _ _ _ _ (label.newline_not_mem_line known)
        (label'.newline_not_mem_line known') same
      obtain rfl := label.line_inj label' known known' lines
      have children := formed.children
      have children' := formed'.children
      generalize label.operation.arity? = arity at behind children children'
      match arity with
      | none => exact children.elim
      | some .leaf =>
          obtain ⟨rfl, rfl⟩ := children
          obtain ⟨rfl, rfl⟩ := children'
          exact ⟨rfl, behind⟩
      | some .unary =>
          obtain ⟨⟨left_nonempty, left_formed⟩, rfl⟩ := children
          obtain ⟨⟨left_nonempty', left_formed'⟩, rfl⟩ := children'
          obtain ⟨rfl, rest_eq⟩ := ih_left left' left_formed left_formed' left_nonempty
            left_nonempty' _ _ _ behind
          exact ⟨rfl, rest_eq⟩
      | some .binary =>
          obtain ⟨⟨left_nonempty, left_formed⟩, right_nonempty, right_formed⟩ := children
          obtain ⟨⟨left_nonempty', left_formed'⟩, right_nonempty', right_formed'⟩ := children'
          obtain ⟨rfl, after_left⟩ := ih_left left' left_formed left_formed' left_nonempty
            left_nonempty' _ _ _ (List.append_cancel_left behind)
          obtain ⟨rfl, rest_eq⟩ := ih_right right' right_formed right_formed' right_nonempty
            right_nonempty' _ _ _ (List.append_cancel_left after_left)
          exact ⟨rfl, rest_eq⟩

theorem dump_node_append_ne (label : Label) (left right : Term)
    (formed : WellFormed (.node label left right)) (rest rest' : List Char) :
    (dump (.node label left right)).toList ++ rest ≠ (dump .empty).toList ++ rest' := by
  have known := formed.arity?_ne_none
  intro same
  simp only [dump, String.toList_ofList, Tree.isEmpty, ↓reduceIte, Bool.false_eq_true,
    dumpOnto_node, List.append_assoc] at same
  obtain ⟨lines, -⟩ := indented_append_inj 0 _ _ _ _ (label.newline_not_mem_line known) (by simp)
    same
  exact label.line_ne_empty known lines

theorem dump_append_inj (t t' : Term) (formed : t.WellFormed) (formed' : t'.WellFormed)
    (rest rest' : List Char) (same : t.dump.toList ++ rest = t'.dump.toList ++ rest') :
    t = t' ∧ rest = rest' := by
  cases t with
  | empty =>
      cases t' with
      | empty => exact ⟨rfl, List.append_cancel_left same⟩
      | node label' left' right' =>
          exact absurd same.symm (dump_node_append_ne label' left' right' formed' rest' rest)
  | node label left right =>
      cases t' with
      | empty => exact absurd same (dump_node_append_ne label left right formed rest rest')
      | node label' left' right' =>
          simp only [dump, String.toList_ofList, Tree.isEmpty, Bool.false_eq_true, ↓reduceIte,
            ← dumpOnto_append, List.nil_append] at same
          exact dumpOnto_inj _ _ formed formed' rfl rfl 0 rest rest' same

theorem dump_ne_empty (t : Term) : t.dump ≠ "" := by
  cases t with
  | empty => simp [dump, Tree.isEmpty, indented]
  | node label left right => simp [dump, Tree.isEmpty, dumpOnto_node, indented]

theorem join_dump_inj (terms others : List Term) (formed : ∀ t ∈ terms, t.WellFormed)
    (formed' : ∀ t ∈ others, t.WellFormed)
    (same : String.join (terms.map dump) = String.join (others.map dump)) : terms = others := by
  have chars := congrArg String.toList same
  rw [String.toList_join, String.toList_join] at chars
  clear same
  induction terms generalizing others with
  | nil =>
      cases others with
      | nil => rfl
      | cons t' others =>
          have none : t'.dump = "" ∧ ∀ t ∈ others, t.dump = "" := by simpa using chars
          exact absurd none.1 t'.dump_ne_empty
  | cons t terms ih =>
      cases others with
      | nil =>
          have none : t.dump = "" ∧ ∀ t ∈ terms, t.dump = "" := by simpa using chars
          exact absurd none.1 t.dump_ne_empty
      | cons t' others =>
          rw [List.map_cons, List.flatMap_cons, List.map_cons, List.flatMap_cons] at chars
          obtain ⟨rfl, rest⟩ := dump_append_inj t t' (formed t List.mem_cons_self)
            (formed' t' List.mem_cons_self) _ _ chars
          rw [ih others (fun t member => formed t (.tail _ member))
            (fun t member => formed' t (.tail _ member)) rest]

end Dumps

section SExpressions

structure Plain (t : Term) : Prop where
  floatFree : t.FloatFree
  names : ∀ name ∈ t.idents, isName name.toList = true

section Plain
variable {label : Label} {left right : Term} (plain : Plain (.node label left right))
include plain

theorem plain_left : Plain left where
  floatFree := ((Tree.all_node _ _ _ _).mp plain.floatFree).2.1
  names name member := plain.names name (idents_left_subset label left right member)

theorem plain_right : Plain right where
  floatFree := ((Tree.all_node _ _ _ _).mp plain.floatFree).2.2
  names name member := plain.names name (idents_right_subset label left right member)

theorem leaf_cases_of_plain (leaf : label.operation.arity? = some .leaf) :
    (∃ value, label = .number value) ∨
      ∃ name, label = .ident name ∧ isName name.toList = true := by
  cases label with
  | number value => exact .inl ⟨value, rfl⟩
  | float value => cases ((Tree.all_node _ _ _ _).mp plain.floatFree).1
  | ident name => exact .inr ⟨name, rfl, plain.names name List.mem_cons_self⟩
  | unary | binary | assign | glue | unknown => simp [Label.operation, Operation.arity?] at leaf

end Plain

def isDelimiter (c : Char) : Bool :=
  c == ' ' || c == '(' || c == ')'

theorem isDelimiter_eq_false (p : Char → Prop) (blank : ¬ p ' ') (left : ¬ p '(') (right : ¬ p ')')
    (c : Char) (inner : p c) : isDelimiter c = false := by
  have apart (d : Char) (outer : ¬ p d) : (c == d) = false :=
    beq_false_of_ne fun same => outer (same ▸ inner)
  simp [isDelimiter, apart ' ' blank, apart '(' left, apart ')' right]

theorem isDelimiter_integerText (n : Int) : ∀ c ∈ integerText n, isDelimiter c = false := by
  intro c member
  exact isDelimiter_eq_false (fun c => isDigit c = true ∨ c = '-') (by decide) (by decide)
    (by decide) c (isDigit_or_minus_of_mem_integerText n c member)

theorem isDelimiter_name (name : List Char) (named : isName name = true) :
    ∀ c ∈ name, isDelimiter c = false := by
  intro c member
  exact isDelimiter_eq_false (Scan.isNameChar · = true) (by decide +kernel) (by decide +kernel)
    (by decide +kernel) c (isNameChar_of_mem_isName name named c member)

theorem isDelimiter_operation (op : Operation) (known : op.arity? ≠ none) :
    ∀ c ∈ op.text.toList, isDelimiter c = false := by
  intro c member
  exact isDelimiter_eq_false (·.isAlpha = true) (by decide) (by decide) (by decide) c
    (op.isAlpha_of_mem_text known c member)

theorem integerText_ne_name (n : Int) (name : List Char) (named : isName name = true) :
    integerText n ≠ name := by
  intro same
  cases name with
  | nil => cases named
  | cons c rest =>
      have start : Scan.isNameStart c = true := by
        simp only [isName, Bool.and_eq_true] at named
        exact named.1
      rcases isDigit_or_minus_of_mem_integerText n c (same ▸ List.mem_cons_self) with digit | rfl
      · rw [isDigit_of_isNameStart c start] at digit
        cases digit
      · exact absurd start (by decide +kernel)

section Equations
variable (label : Label) (left right : Term) (rest : List Char)

theorem sexprOnto_leaf (leaf : label.operation.arity? = some .leaf) :
    sexprOnto (.node label left right) rest = label.symbol ++ rest := by
  cases label with
  | number | float | ident => rfl
  | unary | binary | assign | glue | unknown => simp [Label.operation, Operation.arity?] at leaf

theorem sexprOnto_node (inner : label.operation.arity? ≠ some .leaf) :
    sexprOnto (.node label left right) rest = '(' :: (label.operation.text.toList ++ ' ' ::
      match label.operation.arity? with
      | some .unary => sexprOnto left (')' :: rest)
      | _ => sexprOnto left (' ' :: sexprOnto right (')' :: rest))) := by
  cases label with
  | number | float | ident => exact absurd rfl inner
  | unary | binary | assign | glue | unknown => rfl

end Equations

theorem symbol_of_plain {label : Label} {left right : Term}
    (plain : Plain (.node label left right)) (leaf : label.operation.arity? = some .leaf) :
    (∀ c ∈ label.symbol, isDelimiter c = false) ∧ label.symbol ≠ [] := by
  obtain ⟨value, rfl⟩ | ⟨name, rfl, named⟩ := leaf_cases_of_plain plain leaf
  · exact ⟨isDelimiter_integerText _, integerText_ne_nil _⟩
  · refine ⟨isDelimiter_name _ named, ?_⟩
    intro none
    rw [show name.toList = [] from none] at named
    cases named

theorem symbol_append_ne_open {label : Label} {left right : Term}
    (plain : Plain (.node label left right)) (leaf : label.operation.arity? = some .leaf)
    (rest text : List Char) : label.symbol ++ rest ≠ '(' :: text := by
  obtain ⟨inner, nonempty⟩ := symbol_of_plain plain leaf
  obtain ⟨c, word, symbol_eq⟩ := List.exists_cons_of_ne_nil nonempty
  intro parenthesis
  rw [symbol_eq] at inner parenthesis
  obtain rfl := (List.cons.inj parenthesis).1
  exact absurd (inner '(' List.mem_cons_self) (by decide)

theorem symbol_inj_of_plain {label label' : Label} {left right left' right' : Term}
    (plain : Plain (.node label left right)) (plain' : Plain (.node label' left' right'))
    (leaf : label.operation.arity? = some .leaf) (leaf' : label'.operation.arity? = some .leaf)
    (same : label.symbol = label'.symbol) : label = label' := by
  obtain ⟨m, rfl⟩ | ⟨a, rfl, named⟩ := leaf_cases_of_plain plain leaf <;>
    obtain ⟨n, rfl⟩ | ⟨b, rfl, named'⟩ := leaf_cases_of_plain plain' leaf'
  · rw [Int32.toInt_inj.mp (integerText_injective same)]
  · exact absurd same (integerText_ne_name _ _ named')
  · exact absurd same.symm (integerText_ne_name _ _ named)
  · rw [String.toList_inj.mp same]

theorem payload_eq_nil (label : Label) (inner : label.operation.arity? ≠ some .leaf) :
    label.payload = [] := by
  cases label with
  | number | float | ident => exact absurd rfl inner
  | unary | binary | assign | glue | unknown => rfl

/-- An S-expression in front of a delimiter or of nothing determines the term and what follows. -/
theorem sexprOnto_inj (t t' : Term) (formed : t.WellFormed) (formed' : t'.WellFormed)
    (nonempty : t.isEmpty = false) (nonempty' : t'.isEmpty = false) (plain : t.Plain)
    (plain' : t'.Plain) (rest rest' : List Char) (ends : ∀ c ∈ rest.head?, isDelimiter c = true)
    (ends' : ∀ c ∈ rest'.head?, isDelimiter c = true)
    (same : sexprOnto t rest = sexprOnto t' rest') : t = t' ∧ rest = rest' := by
  induction t generalizing t' rest rest' with
  | empty => cases nonempty
  | node label left right ih_left ih_right =>
  cases t' with
  | empty => cases nonempty'
  | node label' left' right' =>
      have children := formed.children
      have children' := formed'.children
      by_cases leaf : label.operation.arity? = some .leaf <;>
        by_cases leaf' : label'.operation.arity? = some .leaf
      · rw [sexprOnto_leaf _ _ _ _ leaf, sexprOnto_leaf _ _ _ _ leaf'] at same
        obtain ⟨symbols, rest_eq⟩ := word_append_inj isDelimiter _ _ _ _
          (symbol_of_plain plain leaf).1 (symbol_of_plain plain' leaf').1 ends ends' same
        obtain rfl := symbol_inj_of_plain plain plain' leaf leaf' symbols
        rw [leaf] at children children'
        obtain ⟨rfl, rfl⟩ := children
        obtain ⟨rfl, rfl⟩ := children'
        exact ⟨rfl, rest_eq⟩
      · rw [sexprOnto_leaf _ _ _ _ leaf, sexprOnto_node _ _ _ _ leaf'] at same
        exact absurd same (symbol_append_ne_open plain leaf _ _)
      · rw [sexprOnto_node _ _ _ _ leaf, sexprOnto_leaf _ _ _ _ leaf'] at same
        exact absurd same.symm (symbol_append_ne_open plain' leaf' _ _)
      · rw [sexprOnto_node _ _ _ _ leaf, sexprOnto_node _ _ _ _ leaf'] at same
        have known := formed.arity?_ne_none
        have known' := formed'.arity?_ne_none
        obtain ⟨texts, behind⟩ := word_append_inj isDelimiter _ _ _ _
          (isDelimiter_operation _ known) (isDelimiter_operation _ known') (by simp [isDelimiter])
          (by simp [isDelimiter]) (List.cons.inj same).2
        have operation := Operation.text_inj _ _ known known' (String.toList_inj.mp texts)
        obtain rfl := label.eq_of_payload_eq label' operation
          ((payload_eq_nil label leaf).trans (payload_eq_nil label' leaf').symm)
        have behind := (List.cons.inj behind).2
        generalize label.operation.arity? = arity at behind children children' leaf
        match arity with
        | none => exact children.elim
        | some .leaf => exact absurd rfl leaf
        | some .unary =>
            obtain ⟨⟨left_nonempty, left_formed⟩, rfl⟩ := children
            obtain ⟨⟨left_nonempty', left_formed'⟩, rfl⟩ := children'
            obtain ⟨rfl, closed⟩ := ih_left left' left_formed left_formed' left_nonempty
              left_nonempty' (plain_left plain) (plain_left plain') _ _ (by simp [isDelimiter])
              (by simp [isDelimiter]) behind
            exact ⟨rfl, (List.cons.inj closed).2⟩
        | some .binary =>
            obtain ⟨⟨left_nonempty, left_formed⟩, right_nonempty, right_formed⟩ := children
            obtain ⟨⟨left_nonempty', left_formed'⟩, right_nonempty', right_formed'⟩ := children'
            obtain ⟨rfl, after_left⟩ := ih_left left' left_formed left_formed' left_nonempty
              left_nonempty' (plain_left plain) (plain_left plain') _ _ (by simp [isDelimiter])
              (by simp [isDelimiter]) behind
            obtain ⟨rfl, closed⟩ := ih_right right' right_formed right_formed' right_nonempty
              right_nonempty' (plain_right plain) (plain_right plain') _ _ (by simp [isDelimiter])
              (by simp [isDelimiter]) (List.cons.inj after_left).2
            exact ⟨rfl, (List.cons.inj closed).2⟩

end SExpressions

end Term

theorem CommandLine.printTerms_eq_join (options : Options) (name : String)
    (format : options.treeFormat ≠ "json") (terms : List Term)
    (formed : ∀ t ∈ terms, t.WellFormed) :
    printTerms options name none terms = { out := String.join (terms.map Term.dump) } := by
  induction terms with
  | nil => rfl
  | cons t terms ih =>
      have rendered : renderTree options.treeFormat t = .ok t.dump := if_neg format
      rw [printTerms_cons_ok options name none t (formed t List.mem_cons_self) terms _ rendered,
        ih fun t member => formed t (.tail _ member)]
      simp [Outcome.after]

namespace Graph

theorem violations_eq_nil_iff_nodup (g : Graph) :
    g.violations = [] ↔ g.term.WellFormed ∧ g.ids.Nodup := by
  rw [violations_eq_nil_iff, nodup_ids_iff]

theorem wellFormed_of_accepted (graphs : List Graph) (accepted : ∀ g ∈ graphs, g.violations = []) :
    ∀ t ∈ graphs.map term, t.WellFormed := by
  intro t member
  obtain ⟨g, found, rfl⟩ := List.mem_map.mp member
  exact ((violations_eq_nil_iff g).mp (accepted g found)).1

/-- The dumps of trees that the shape check accepts, or of statements without effect, determine the
trees when they are written one after another, as they are where the trees of a file are printed.
There is one double that is not a number, so that the values of floats are determined too. -/
theorem term_eq_of_join_dump_eq (graphs others : List Graph)
    (accepted : ∀ g ∈ graphs, g.violations = []) (accepted' : ∀ g ∈ others, g.violations = []) :
    (String.join (graphs.map (·.term.dump)) = String.join (others.map (·.term.dump)) →
      graphs.length = others.length ∧ graphs.map term = others.map term) ∧
    ∀ (options : CommandLine.Options) (name : String), options.treeFormat ≠ "json" →
      (CommandLine.printTerms options name none (graphs.map term)).out =
        String.join (graphs.map (·.term.dump)) := by
  have formed := wellFormed_of_accepted graphs accepted
  have formed' := wellFormed_of_accepted others accepted'
  have dumps (graphs : List Graph) :
      graphs.map (·.term.dump) = (graphs.map term).map Term.dump := by
    rw [List.map_map]
    rfl
  rw [dumps, dumps]
  refine ⟨fun same => ?_, fun options name format => ?_⟩
  · have terms := Term.join_dump_inj _ _ formed formed' same
    exact ⟨by simpa using congrArg List.length terms, terms⟩
  · rw [CommandLine.printTerms_eq_join options name format _ formed]

/-- A name that holds the end of a line and what looks like the next one. The trees of the second
list have other nodes, those of the third are two names. -/
theorem term_eq_of_join_dump_eq_names :
    let name : Label := .ident "a\"\nIdent \"b"
    let graphs : List Graph :=
      [.node (0, .unary .negate) (.node (1, name) .empty .empty) .empty, .empty]
    let others : List Graph :=
      [.node (5, .unary .negate) (.node (2, name) .empty .empty) .empty, .empty]
    let names : List Graph :=
      [.node (0, .unary .negate) (.node (1, .ident "a") .empty .empty) .empty,
        .node (0, .ident "b") .empty .empty, .empty]
    (∀ g ∈ graphs, g.violations = []) ∧ (∀ g ∈ others, g.violations = []) ∧
      (∀ g ∈ names, g.violations = []) ∧ graphs ≠ others ∧ graphs.map term = others.map term ∧
      (CommandLine.printTerms {} "f" none (graphs.map term)).out =
        "Negate\n  Ident \"a\\\"\\nIdent \\\"b\"\nEmpty\n" ∧
      String.join (graphs.map (·.term.dump)) ≠ String.join (names.map (·.term.dump)) := by
  intro name graphs others names
  have accepted : ∀ g ∈ graphs, g.violations = [] := by
    simp only [violations_eq_nil_iff_nodup]
    decide
  have accepted' : ∀ g ∈ others, g.violations = [] := by
    simp only [violations_eq_nil_iff_nodup]
    decide
  have names_accepted : ∀ g ∈ names, g.violations = [] := by
    simp only [violations_eq_nil_iff_nodup]
    decide
  obtain ⟨same, printed⟩ := term_eq_of_join_dump_eq graphs others accepted accepted'
  obtain ⟨unlike, -⟩ := term_eq_of_join_dump_eq graphs names accepted names_accepted
  exact ⟨accepted, accepted', names_accepted, by decide, (same rfl).2,
    (printed {} "f" (by decide)).trans (by decide +kernel),
    fun text => absurd (unlike text).1 (by decide)⟩

/-- The S-expression of a tree without floats, which the shape check accepts and whose names are
identifiers, determines the tree. -/
theorem term_eq_of_sexpr_eq (g other : Graph) (nonempty : g.isEmpty = false)
    (nonempty' : other.isEmpty = false) (accepted : g.violations = [])
    (accepted' : other.violations = []) (plain : g.term.Plain) (plain' : other.term.Plain)
    (same : g.term.sexpr = other.term.sexpr) : g.term = other.term := by
  have formed := ((violations_eq_nil_iff g).mp accepted).1
  have formed' := ((violations_eq_nil_iff other).mp accepted').1
  have has_root : g.term.isEmpty = false := (Tree.isEmpty_map _ g).trans nonempty
  have has_root' : other.term.isEmpty = false := (Tree.isEmpty_map _ other).trans nonempty'
  exact (Term.sexprOnto_inj _ _ formed formed' has_root has_root' plain plain' [] [] (by simp)
    (by simp) (String.ofList_injective same)).1

/-- A name that reads like an operation, and a number with a sign beside an operation that negates.
The second tree has other nodes. -/
theorem term_eq_of_sexpr_eq_names :
    let label : Label := .number (-1)
    let g : Graph := .node (0, .assign) (.node (1, .ident "Glue") .empty .empty)
      (.node (2, .unary .negate) (.node (3, label) .empty .empty) .empty)
    let other : Graph := .node (3, .assign) (.node (2, .ident "Glue") .empty .empty)
      (.node (1, .unary .negate) (.node (0, label) .empty .empty) .empty)
    g.violations = [] ∧ other.violations = [] ∧ g.term.Plain ∧ g ≠ other ∧
      g.term.sexpr = "(Assign Glue (Negate -1))" ∧ other.term.sexpr = g.term.sexpr ∧
      g.term = other.term := by
  intro label g other
  have accepted : g.violations = [] := (violations_eq_nil_iff_nodup g).mpr (by decide)
  have accepted' : other.violations = [] := (violations_eq_nil_iff_nodup other).mpr (by decide)
  have plain : g.term.Plain :=
    ⟨by simp [g, label, term, Tree.map, Term.FloatFree, Label.isFloat], by decide +kernel⟩
  have text : g.term.sexpr = "(Assign Glue (Negate -1))" := by decide +kernel
  have text' : other.term.sexpr = "(Assign Glue (Negate -1))" := by decide +kernel
  have same : g.term.sexpr = other.term.sexpr := text.trans text'.symm
  exact ⟨accepted, accepted', plain, by decide, text, same.symm,
    term_eq_of_sexpr_eq g other rfl rfl accepted accepted' plain plain same⟩

end Graph

end Abacus
