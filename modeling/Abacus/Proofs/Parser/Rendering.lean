import Abacus.Proofs.Parser.Language
import Abacus.Proofs.Token.Layout

/-!
Writing terms as text. Main statement: however a term is written, with what parentheses it needs and
any it does not, plus signs before operands and blanks between the words, it is read back.
-/
namespace Abacus.Rendering
open Grammar Text

def category : BinaryOp → Category
  | .bitOr => .bitOr
  | .bitXor => .bitXor
  | .bitAnd => .bitAnd
  | .shl | .shr => .shift
  | .add | .sub => .additive
  | .mul | .div | .mod => .multiplicative

def operatorWord : BinaryOp → List Char
  | .bitOr => ['|']
  | .bitXor => ['^']
  | .bitAnd => ['&']
  | .shl => ['<', '<']
  | .shr => ['>', '>']
  | .add => ['+']
  | .sub => ['-']
  | .mul => ['*']
  | .div => ['/']
  | .mod => ['%']

def signWord : UnaryOp → List Char
  | .negate => ['-']
  | .bitNot => ['~']

/-- The words that write an expression where a phrase of a category must stand. Operands that bind
less tightly than that are put in parentheses, and any others may be. -/
inductive Writes : Category → Term → List (List Char) → Prop where
  | number (c : Category) (n : Nat) (bound : n ≤ 2147483647) :
      Writes c (.leaf (.number (Int32.ofNat n))) [Nat.toDigits 10 n]
  | ident (c : Category) (name : List Char) (valid : isName name = true)
      (free : Word.ofSpelling? (String.ofList name) = none) :
      Writes c (.leaf (.ident (String.ofList name))) [name]
  | paren (c : Category) {term : Term} {words : List (List Char)}
      (inner : Writes .assignment term words) : Writes c term (['('] :: (words ++ [[')']]))
  | plus (c : Category) {term : Term} {words : List (List Char)}
      (loose : c.rank ≤ Category.unary.rank) (operand : Writes .unary term words) :
      Writes c term (['+'] :: words)
  | sign (c : Category) (op : UnaryOp) {term : Term} {words : List (List Char)}
      (loose : c.rank ≤ Category.unary.rank) (operand : Writes .unary term words) :
      Writes c (.unary op term) (signWord op :: words)
  | binary (c : Category) (op : BinaryOp) {left right : Term} {words others : List (List Char)}
      (loose : c.rank ≤ (category op).rank) (first : Writes (category op) left words)
      (second : Writes (category op).tighter right others) :
      Writes c (.binary op left right) (words ++ operatorWord op :: others)
  | assign {left right : Term} {words others : List (List Char)}
      (first : Writes .bitOr left words) (second : Writes .assignment right others) :
      Writes .assignment (.assign left right) (words ++ ['='] :: others)

inductive WritesStatement : Term → List (List Char) → Prop where
  | expression {term : Term} {words : List (List Char)} (written : Writes .assignment term words) :
      WritesStatement term (words ++ [[';']])
  | sequence {first second : Term} {words others : List (List Char)}
      (written : WritesStatement first words) (also_written : WritesStatement second others) :
      WritesStatement (.node .glue first second) (['\x7b'] :: (words ++ others ++ [['\x7d']]))

inductive Spaced : List (List Char) → List Char → Prop where
  | blank {gap : List Char} (blank : ∀ b ∈ gap, isBlank b = true) : Spaced [] gap
  | word {gap word rest : List Char} {words : List (List Char)}
      (blank : ∀ b ∈ gap, isBlank b = true) (apart : ∀ b ∈ rest.head?, isBlank b = true)
      (others : Spaced words rest) : Spaced (word :: words) (gap ++ (word ++ rest))

/-- The expressions that can be written: numbers are neither negative nor floats, and names are not
reserved. -/
inductive Plain : Term → Prop where
  | number (n : Nat) (bound : n ≤ 2147483647) : Plain (.leaf (.number (Int32.ofNat n)))
  | ident (name : List Char) (valid : isName name = true)
      (free : Word.ofSpelling? (String.ofList name) = none) :
      Plain (.leaf (.ident (String.ofList name)))
  | unary (op : UnaryOp) {operand : Term} (inner : Plain operand) : Plain (.unary op operand)
  | binary (op : BinaryOp) {left right : Term} (first : Plain left) (second : Plain right) :
      Plain (.binary op left right)
  | assign {left right : Term} (first : Plain left) (second : Plain right) :
      Plain (.assign left right)

inductive PlainStatement : Term → Prop where
  | expression {term : Term} (plain : Plain term) : PlainStatement term
  | sequence {first second : Term} (plain : PlainStatement first)
      (also_plain : PlainStatement second) : PlainStatement (.node .glue first second)

theorem exists_writes (term : Term) (plain : Plain term) (c : Category) :
    ∃ words, Writes c term words := by
  induction plain generalizing c with
  | number n bound => exact ⟨_, .number c n bound⟩
  | ident name valid free => exact ⟨_, .ident c name valid free⟩
  | unary op _ ih =>
      obtain ⟨words, written⟩ := ih .unary
      exact ⟨_, .paren c (.sign .assignment op (Nat.zero_le _) written)⟩
  | binary op _ _ ih_left ih_right =>
      obtain ⟨words, written⟩ := ih_left (category op)
      obtain ⟨others, also_written⟩ := ih_right (category op).tighter
      exact ⟨_, .paren c (.binary .assignment op (Nat.zero_le _) written also_written)⟩
  | assign _ _ ih_left ih_right =>
      obtain ⟨words, written⟩ := ih_left .bitOr
      obtain ⟨others, also_written⟩ := ih_right .assignment
      exact ⟨_, .paren c (.assign written also_written)⟩

theorem exists_writesStatement (term : Term) (plain : PlainStatement term) :
    ∃ words, WritesStatement term words := by
  induction plain with
  | expression plain =>
      obtain ⟨words, written⟩ := exists_writes _ plain .assignment
      exact ⟨_, .expression written⟩
  | sequence _ _ ih_first ih_second =>
      obtain ⟨words, written⟩ := ih_first
      obtain ⟨others, also_written⟩ := ih_second
      exact ⟨_, .sequence written also_written⟩

theorem spaced_flatMap (words : List (List Char)) : Spaced words (words.flatMap (' ' :: ·)) := by
  have space : ∀ b ∈ [' '], isBlank b = true := List.all_eq_true.mp (by decide)
  induction words with
  | nil => exact .blank (by simp)
  | cons word words ih =>
      refine .word space ?_ ih
      cases words with
      | nil => simp
      | cons => simpa using space

theorem spells_symbol (s : Symbol) (word : List Char) (spelling : s.spelling.toList = word) :
    Spells word (.symbol s) where
  scans := by rw [← spelling, scan_spelling]
  token := by simp

theorem layout_of_spaced (words : List (List Char)) (text : List Char)
    (spaced : Spaced words text) : Layout words text := by
  have before (gap rest : List Char) (blank : ∀ b ∈ gap, isBlank b = true) :
      Trivia.Before rest gap := by
    induction gap with
    | nil => exact .nil
    | cons b gap ih =>
        have others := ih fun c member => blank c (.tail b member)
        exact .blank b gap (blank b List.mem_cons_self) others
  induction spaced with
  | @blank gap blank => exact .trivia (before gap [] blank)
  | @word gap word rest words blank apart _ ih => exact .word (before gap _ blank) apart ih

theorem scanAll_of_spaced (words : List (List Char)) (text : List Char) (spaced : Spaced words text)
    (tokens : List Token) (spell : List.Forall₂ Spells words tokens) :
    scanAll .finished text = tokens.map .ok :=
  scanAll_of_layout words text (layout_of_spaced words text spaced) tokens spell

theorem exists_operator (op : BinaryOp) :
    ∃ s, (s, op) ∈ (category op).operators ∧ Spells (operatorWord op) (.symbol s) := by
  have found : ∃ s : Symbol, (s, op) ∈ (category op).operators ∧
      s.spelling.toList = operatorWord op := by
    cases op <;> simp [category, Category.operators, operatorWord] <;> decide
  obtain ⟨s, member, spelling⟩ := found
  exact ⟨s, member, spells_symbol s _ spelling⟩

theorem spells_sign (op : UnaryOp) : Spells (signWord op) (.symbol (signSymbol op)) :=
  spells_symbol _ _ (by cases op <;> rfl)

def Derives (c : Category) (term : Term) (words : List (List Char)) : Prop :=
  ∃ x : Phrase c, x.term = term ∧ List.Forall₂ Spells words x.tokens

theorem Derives.looser {d : Category} {term : Term} {words : List (List Char)}
    (derives : Derives d term words) (c : Category) (looser : c.rank ≤ d.rank) :
    Derives c term words := by
  obtain ⟨x, term_eq, spelled⟩ := derives
  obtain ⟨y, tokens_eq, same⟩ := Phrase.exists_looser c d looser x
  exact ⟨y, same.trans term_eq, tokens_eq ▸ spelled⟩

theorem derives_of_primary (x : Phrase .primary) (words : List (List Char))
    (spelled : List.Forall₂ Spells words x.tokens) (c : Category) : Derives c x.term words :=
  Derives.looser ⟨x, rfl, spelled⟩ c c.rank_le_eight

theorem derives_number (c : Category) (n : Nat) (bound : n ≤ 2147483647) :
    Derives c (.leaf (.number (Int32.ofNat n))) [Nat.toDigits 10 n] := by
  have decimal := isDecimal_toDigits n
  have value := positional_toDigits 10 (by decide) (by decide) n
  have scans := scan_decimal _ decimal (by rw [value]; exact bound)
  have valid := integer_decimal _ decimal (by rw [value]; exact bound)
  rw [value] at scans valid
  rw [← String.toList_ofList (l := Nat.toDigits 10 n)] at valid
  have spelled : List.Forall₂ Spells [Nat.toDigits 10 n]
      [.int (Int32.ofNat n) (String.ofList (Nat.toDigits 10 n))] := .cons ⟨scans, by simp⟩ .nil
  exact derives_of_primary (.integer (Int32.ofNat n) _ _ valid) _ spelled c

theorem derives_ident (c : Category) (name : List Char) (valid : isName name = true)
    (free : Word.ofSpelling? (String.ofList name) = none) :
    Derives c (.leaf (.ident (String.ofList name))) [name] :=
  derives_of_primary (.name (String.ofList name)) [name]
    (.cons ⟨scan_name name valid free, by simp⟩ .nil) c

theorem derives_of_writes (c : Category) (term : Term) (words : List (List Char))
    (written : Writes c term words) : Derives c term words := by
  induction written with
  | number c n bound => exact derives_number c n bound
  | ident c name valid free => exact derives_ident c name valid free
  | paren c _ ih =>
      obtain ⟨x, rfl, spelled⟩ := ih
      have closed := List.rel_append spelled (.cons (spells_symbol .closeParen _ rfl) .nil)
      exact derives_of_primary (.paren x) _ (.cons (spells_symbol .openParen _ rfl) closed) c
  | plus c loose _ ih =>
      obtain ⟨x, rfl, spelled⟩ := ih
      exact Derives.looser ⟨.plus x, rfl, .cons (spells_symbol .plus _ rfl) spelled⟩ c loose
  | sign c op loose _ ih =>
      obtain ⟨x, rfl, spelled⟩ := ih
      exact Derives.looser ⟨.sign op x, rfl, .cons (spells_sign op) spelled⟩ c loose
  | binary c op loose _ _ ih_left ih_right =>
      obtain ⟨x, rfl, spelled⟩ := ih_left
      obtain ⟨y, rfl, also_spelled⟩ := ih_right
      obtain ⟨s, member, operator⟩ := exists_operator op
      exact Derives.looser ⟨.binary s op member x y, rfl,
        List.rel_append spelled (.cons operator also_spelled)⟩ c loose
  | assign _ _ ih_left ih_right =>
      obtain ⟨x, rfl, spelled⟩ := ih_left
      obtain ⟨y, rfl, also_spelled⟩ := ih_right
      exact ⟨.assign x y, rfl,
        List.rel_append spelled (.cons (spells_symbol .equals _ rfl) also_spelled)⟩

theorem exists_statement_of_writes (term : Term) (words : List (List Char))
    (written : WritesStatement term words) :
    ∃ x : Statement, x.term = term ∧ term.isEmpty = false ∧
      List.Forall₂ Spells words x.tokens := by
  induction written with
  | expression written =>
      obtain ⟨x, rfl, spelled⟩ := derives_of_writes _ _ _ written
      exact ⟨.expression x, rfl, x.isEmpty_term,
        List.rel_append spelled (.cons (spells_symbol .semicolon _ rfl) .nil)⟩
  | sequence _ _ ih_first ih_second =>
      obtain ⟨x, rfl, nonempty, spelled⟩ := ih_first
      obtain ⟨y, rfl, also_nonempty, also_spelled⟩ := ih_second
      refine ⟨.block [x, y], ?_, rfl, ?_⟩
      · simp [Statement.term, Statement.termsOfAll, joined, nonempty, also_nonempty]
      · simp only [Statement.tokens, Statement.tokensOfAll, List.append_nil]
        exact .cons (spells_symbol .openBrace _ rfl) (List.rel_append
          (List.rel_append spelled also_spelled) (.cons (spells_symbol .closeBrace _ rfl) .nil))

/-- Every plain statement can be written, and each text that writes it is read as this statement
and then ends. -/
theorem replies_of_writesStatement (term : Term) (plain : PlainStatement term) :
    (∃ words text, WritesStatement term words ∧ Spaced words text) ∧
      ∀ (words : List (List Char)) (source : Source), WritesStatement term words →
        Spaced words source.chars → source.ending = .finished →
          source.stream.replies false 2 = [.statement term, .endOfInput] := by
  constructor
  · obtain ⟨words, written⟩ := exists_writesStatement term plain
    exact ⟨words, _, written, spaced_flatMap words⟩
  · intro words source written spaced finished
    obtain ⟨x, rfl, -, spelled⟩ := exists_statement_of_writes term words written
    have items : source.stream.items = (Program.tokens [x]).map .ok := by
      simp only [Source.stream, finished, Program.tokens, Statement.tokensOfAll, List.append_nil]
      exact scanAll_of_spaced words source.chars spaced _ spelled
    have ending : source.stream.ending = .finished := finished
    rw [TokenStream.replies_eq_take, items, ending, Parser.read_program]
    rfl

theorem replies_of_writesStatement_block :
    let source : Source := ⟨" \x7b x = + ( 1 ) ; ( y << 2 ) * - 7 ; \x7d".toList, .finished⟩
    source.stream.replies false 2 =
      [.statement (.node .glue (Term.assign (.leaf (.ident "x")) (.leaf (.number 1)))
        (Term.binary .mul (.binary .shl (.leaf (.ident "y")) (.leaf (.number 2)))
          (.unary .negate (.leaf (.number 7))))), .endOfInput] := by
  have x (c : Category) := Writes.ident c ['x'] (by decide) (by decide)
  have y (c : Category) := Writes.ident c ['y'] (by decide) (by decide)
  have assigned := Writes.assign (x .bitOr)
    (.plus .assignment (by decide) (.paren .unary (.number .assignment 1 (by decide))))
  have shifted := Writes.binary .assignment .shl (by decide) (y .shift)
    (.number .additive 2 (by decide))
  have product := Writes.binary .assignment .mul (by decide) (.paren .multiplicative shifted)
    (.sign .unary .negate (by decide) (.number .unary 7 (by decide)))
  have plain : PlainStatement (.node .glue (Term.assign (.leaf (.ident "x")) (.leaf (.number 1)))
      (Term.binary .mul (.binary .shl (.leaf (.ident "y")) (.leaf (.number 2)))
        (.unary .negate (.leaf (.number 7))))) :=
    .sequence
      (.expression (.assign (.ident ['x'] (by decide) (by decide)) (.number 1 (by decide))))
      (.expression (.binary .mul
        (.binary .shl (.ident ['y'] (by decide) (by decide)) (.number 2 (by decide)))
        (.unary .negate (.number 7 (by decide)))))
  exact (replies_of_writesStatement _ plain).2 _ _
    (.sequence (.expression assigned) (.expression product)) (spaced_flatMap _) rfl

end Abacus.Rendering
