import Abacus.Proofs.Token.Spelling

/-!
Scanning loses nothing. Main statement: a text is the trivia that are skipped, the spelling of the
token that is found, and the text that is left, and the spelling is as long as it can be.
-/
namespace Abacus
open Text Scan

namespace Trivia

/-- Trivia that stand before the text `after`. A line comment ends behind a line feed, or with the
input; a block comment ends with the first `*/` in it. -/
inductive Before (after : List Char) : List Char → Prop where
  | nil : Before after []
  | blank (c : Char) (more : List Char) (blank : isBlank c = true) (others : Before after more) :
      Before after (c :: more)
  | line (body more : List Char) (single : '\n' ∉ body) (others : Before after more) :
      Before after ('/' :: '/' :: (body ++ '\n' :: more))
  | block (body more : List Char) (first : ¬ ['*', '/'] <:+: body ++ ['*'])
      (others : Before after more) : Before after ('/' :: '*' :: (body ++ '*' :: '/' :: more))
  | lastLine (body : List Char) (single : '\n' ∉ body) (last : after = []) :
      Before after ('/' :: '/' :: body)

def Mode.opening : Mode → List Char
  | .blanks => []
  | .line => ['/', '/']
  | .block => ['/', '*']

theorem Before.line_cons {after text : List Char} {c : Char} (inner : c ≠ '\n')
    (trivia : Before after ('/' :: '/' :: text)) : Before after ('/' :: '/' :: c :: text) := by
  cases trivia with
  | blank _ _ blank => simp [isBlank] at blank
  | line body more single others =>
      exact .line (c :: body) more (by simp [single, Ne.symm inner]) others
  | lastLine _ single last => exact .lastLine (c :: text) (by simp [single, Ne.symm inner]) last

theorem Before.block_cons {after text : List Char} {c : Char}
    (inner : ∀ more, c = '*' → text = '/' :: more → False)
    (trivia : Before after ('/' :: '*' :: text)) : Before after ('/' :: '*' :: c :: text) := by
  generalize whole : '/' :: '*' :: text = comment at trivia
  cases trivia with
  | nil => simp at whole
  | blank _ _ blank =>
      obtain rfl := (List.cons.inj whole).1
      simp [isBlank] at blank
  | line => simp at whole
  | lastLine => simp at whole
  | block body more first others =>
      obtain rfl : text = body ++ '*' :: '/' :: more := by simpa using whole
      refine .block (c :: body) more ?_ others
      rw [List.cons_append, List.infix_cons_iff, not_or]
      refine ⟨?_, first⟩
      rintro ⟨tail, starts⟩
      obtain ⟨is_star, slash⟩ : c = '*' ∧ body ++ ['*'] = '/' :: tail := by
        simpa [eq_comm] using starts
      cases body with
      | nil => simp at slash
      | cons d body =>
          obtain ⟨rfl, -⟩ := List.cons.inj slash
          exact inner _ is_star rfl

/-- What is skipped are trivia. In a comment they are so together with its beginning. -/
theorem before_of_skipFrom (mode : Mode) (text rest : List Char)
    (skipped : skipFrom mode text = some rest) :
    ∃ consumed, text = consumed ++ rest ∧ Before rest (mode.opening ++ consumed) := by
  fun_induction skipFrom mode text with
  | case1 =>
      obtain rfl : [] = rest := by simpa using skipped
      exact ⟨[], rfl, .nil⟩
  | case2 text ih =>
      obtain ⟨consumed, rfl, trivia⟩ := ih skipped
      exact ⟨'/' :: '/' :: consumed, rfl, trivia⟩
  | case3 text ih =>
      obtain ⟨consumed, rfl, trivia⟩ := ih skipped
      exact ⟨'/' :: '*' :: consumed, rfl, trivia⟩
  | case4 c text _ _ blank ih =>
      obtain ⟨consumed, rfl, trivia⟩ := ih skipped
      exact ⟨c :: consumed, rfl, .blank c consumed blank trivia⟩
  | case5 c text =>
      obtain rfl : c :: text = rest := by simpa using skipped
      exact ⟨[], rfl, .nil⟩
  | case6 =>
      obtain rfl : [] = rest := by simpa using skipped
      exact ⟨[], rfl, .lastLine [] (by simp) rfl⟩
  | case7 text ih =>
      obtain ⟨consumed, rfl, trivia⟩ := ih skipped
      exact ⟨'\n' :: consumed, rfl, .line [] consumed (by simp) trivia⟩
  | case8 c text inner ih =>
      obtain ⟨consumed, rfl, trivia⟩ := ih skipped
      exact ⟨c :: consumed, rfl, trivia.line_cons inner⟩
  | case9 => simp at skipped
  | case10 text ih =>
      obtain ⟨consumed, rfl, trivia⟩ := ih skipped
      exact ⟨'*' :: '/' :: consumed, rfl, .block [] consumed (by decide) trivia⟩
  | case11 c text inner ih =>
      obtain ⟨consumed, rfl, trivia⟩ := ih skipped
      refine ⟨c :: consumed, rfl, trivia.block_cons ?_⟩
      rintro more is_star rfl
      exact inner (more ++ rest) is_star rfl

end Trivia

def Token.isWord : Token → Bool
  | .symbol _ | .word _ | .name _ => true
  | _ => false

/-- No operator and no identifier that is longer than `spelling` begins the text. -/
def Longest (spelling text : List Char) : Prop :=
  ∀ word, isName word = true ∨ (∃ s : Symbol, word = s.spelling.toList) → word <+: text →
    word.length ≤ spelling.length

/-- An identifier and an operator never begin the same text. -/
theorem isName_append_ne (word : List Char) (name : isName word = true) (s : Symbol)
    (rest rest' : List Char) : word ++ rest ≠ s.spelling.toList ++ rest' := by
  intro same
  have none := any_isNameStart_spelling s
  have nonempty : s.spelling.toList ≠ [] := by cases s <;> decide
  obtain ⟨d, more, spelled⟩ := List.exists_cons_of_ne_nil nonempty
  cases word with
  | nil => simp [isName] at name
  | cons c word =>
      obtain ⟨start, -⟩ : isNameStart c = true ∧ ∀ d ∈ word, isNameChar d = true := by
        simpa [isName] using name
      rw [spelled] at same none
      obtain ⟨rfl, -⟩ := List.cons.inj same
      simp [start] at none

theorem longest_name (word rest : List Char) (name : isName word = true)
    (stop : ∀ c ∈ rest.head?, isNameChar c = false) : Longest word (word ++ rest) := by
  have whole := span_append isNameChar word rest (isNameChar_of_mem_isName word name) stop
  rintro longer (other | ⟨s, rfl⟩) begins
  · obtain ⟨more, same⟩ := begins
    rw [← whole.1, ← same, List.takeWhile_append_of_pos (isNameChar_of_mem_isName longer other),
      List.length_append]
    exact Nat.le_add_right _ _
  · obtain ⟨more, same⟩ := begins
    exact absurd same.symm (isName_append_ne word name s rest more)

theorem spelling_cases (s : Symbol) :
    (∃ c, s.spelling.toList = [c]) ∨
      ∃ c d first, s.spelling.toList = [c, d] ∧ Symbol.ofChar? c = some first ∧
        first.extend? d = some s := by
  cases s <;> first
    | exact .inl ⟨_, rfl⟩
    | exact .inr ⟨_, _, _, rfl, rfl, rfl⟩

theorem ofChar?_of_spelling (s : Symbol) (c : Char) (single : s.spelling.toList = [c]) :
    Symbol.ofChar? c = some s := by
  cases s <;> simp_all [Symbol.spelling] <;> subst single <;> rfl

theorem longest_symbol (s : Symbol) (rest : List Char) (ends : (Token.symbol s).EndsBefore rest) :
    Longest s.spelling.toList (s.spelling.toList ++ rest) := by
  rintro word (name | ⟨longer, rfl⟩) begins
  · obtain ⟨more, same⟩ := begins
    exact absurd same (isName_append_ne word name s more rest)
  · rcases spelling_cases longer with ⟨d, single⟩ | ⟨d, e, first, double, first_found, extends_to⟩
    · rw [single]
      exact List.length_pos_iff.mpr (by cases s <;> decide)
    · rcases spelling_cases s with ⟨c, single⟩ | ⟨c, f, -, double', -⟩
      · rw [double, single, List.singleton_append, List.cons_prefix_cons] at begins
        obtain ⟨rfl, next⟩ := begins
        obtain rfl : first = s :=
          Option.some.inj (first_found.symm.trans (ofChar?_of_spelling s d single))
        cases rest with
        | nil => simp at next
        | cons f rest =>
            rw [List.cons_prefix_cons] at next
            obtain ⟨rfl, -⟩ := next
            simp [(ends e rfl).1] at extends_to
      · simp [double, double']

theorem longest_of_endsBefore (t : Token) (word rest : List Char) (spelled : t.SpelledBy word)
    (ends : t.EndsBefore rest) (is_word : t.isWord = true) : Longest word (word ++ rest) := by
  cases t with
  | name text => exact longest_name word rest spelled.2.1 ends
  | word w => exact longest_name word rest spelled.2 ends
  | symbol s =>
      obtain rfl : word = s.spelling.toList := spelled
      exact longest_symbol s rest ends
  | _ => simp [Token.isWord] at is_word

/-- A text that has a next token is trivia, the spelling of the token, and the text that is left; at
the end of input nothing is left. No operator or identifier longer than an operator, a reserved word
or a name is there in its place, no digit follows a dot, and no comment begins at a slash. -/
theorem scan_eq_append (ending : Ending) (text rest : List Char) (t : Token)
    (scanned : scan ending text = (.ok t, rest)) :
    ∃ trivia spelling, text = trivia ++ spelling ++ rest ∧
      Trivia.Before (spelling ++ rest) trivia ∧ t.SpelledBy spelling ∧ (t = .eof → rest = []) ∧
      (t.isWord = true → Longest spelling (spelling ++ rest)) ∧
      (t = .symbol .dot → ∀ c ∈ rest.head?, isDigit c = false) ∧
      (t = .symbol .slash → ∀ c ∈ rest.head?, c ≠ '/' ∧ c ≠ '*') := by
  rcases nextToken_of_scan ending text rest t scanned with
    ⟨rfl, -, skipped, rfl⟩ | ⟨token, word, next⟩
  · obtain ⟨trivia, rfl, before⟩ := Trivia.before_of_skipFrom .blanks text [] skipped
    exact ⟨trivia, [], by simp, before, rfl, by simp, by simp [Token.isWord], by simp, by simp⟩
  · obtain ⟨trivia, rfl, before⟩ := Trivia.before_of_skipFrom .blanks text _ next.skipped
    refine ⟨trivia, word, by simp, before, next.spelled, fun same => absurd same token,
      longest_of_endsBefore t word rest next.spelled next.ends, ?_, ?_⟩
    · rintro rfl c first
      exact (next.ends c first).2 rfl
    · rintro rfl
      obtain rfl : word = ['/'] := next.spelled
      exact (Trivia.head_of_skipFrom .blanks _ _ '/' next.skipped).2 rfl

/-- The block comment ends at the first mark that can end it, and `<<=` is no operator. -/
theorem scan_eq_append_shift :
    scan .finished "/*/**/ <<=x".toList = (.ok (.symbol .shiftLeft), "=x".toList) ∧
      Longest "<<".toList "<<=x".toList := by
  have scanned : scan .finished "/*/**/ <<=x".toList =
      (.ok (.symbol .shiftLeft), "=x".toList) := by decide +kernel
  obtain ⟨trivia, spelling, -, -, spelled, -, longest, -⟩ := scan_eq_append _ _ _ _ scanned
  obtain rfl : spelling = "<<".toList := spelled
  exact ⟨scanned, longest rfl⟩

end Abacus
