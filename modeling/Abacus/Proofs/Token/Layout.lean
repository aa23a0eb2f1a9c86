import Mathlib.Data.List.Forall2
import Abacus.Proofs.Token.Lossless

/-!
Layout makes no difference. Main statement: the words that a text is scanned into, written down with
other blanks and comments between them, are scanned into the same tokens.
-/
namespace Abacus
open Text Scan

namespace Trivia

theorem skipFrom_line_append (body rest : List Char) (single : '\n' ∉ body) :
    skipFrom .line (body ++ rest) = skipFrom .line rest := by
  induction body with
  | nil => rfl
  | cons c body ih =>
      obtain ⟨other, inner⟩ : '\n' ≠ c ∧ '\n' ∉ body := by simpa using single
      rw [List.cons_append, skipFrom_line_cons, if_neg (Ne.symm other), ih inner]

theorem skipFrom_block_append (body rest : List Char) (first : ¬ ['*', '/'] <:+: body ++ ['*']) :
    skipFrom .block (body ++ '*' :: '/' :: rest) = skipFrom .blanks rest := by
  induction body with
  | nil => rfl
  | cons c body ih =>
      rw [List.cons_append, List.infix_cons_iff, not_or] at first
      have inner : c = '*' → ∀ d ∈ (body ++ '*' :: '/' :: rest).head?, d ≠ '/' := by
        rintro rfl d head rfl
        cases body with
        | nil => simp at head
        | cons e body =>
            obtain rfl : e = '/' := by simpa using head
            exact first.1 ⟨body ++ ['*'], rfl⟩
      rw [List.cons_append, skipFrom_block_cons c _ inner, ih first.2]

theorem skip_append_of_before (trivia rest : List Char) (before : Before rest trivia) :
    skip (trivia ++ rest) = skip rest := by
  unfold skip
  induction before with
  | nil => rfl
  | blank c more blank _ ih =>
      rw [List.cons_append, skipFrom_blanks_cons c _ fun same =>
        absurd same (ne_slash_of_isBlank c blank), if_pos blank, ih]
  | line body more single _ ih =>
      show skipFrom .line (body ++ '\n' :: more ++ rest) = _
      rw [List.append_assoc, skipFrom_line_append body _ single, List.cons_append,
        skipFrom_line_cons, if_pos rfl, ih]
  | block body more first _ ih =>
      show skipFrom .block (body ++ '*' :: '/' :: more ++ rest) = _
      rw [List.append_assoc, List.cons_append, List.cons_append,
        skipFrom_block_append body _ first, ih]
  | lastLine body single last =>
      subst last
      show skipFrom .line (body ++ []) = _
      rw [skipFrom_line_append body [] single]
      rfl

end Trivia

theorem scan_append_of_before (ending : Ending) (trivia rest : List Char)
    (before : Trivia.Before rest trivia) : scan ending (trivia ++ rest) = scan ending rest := by
  simp only [scan, Trivia.skip_append_of_before trivia rest before]

structure Spells (word : List Char) (t : Token) : Prop where
  scans : scan .finished word = (.ok t, [])
  token : t ≠ .eof

theorem scan_word (word rest : List Char) (t : Token) (spells : Spells word t)
    (apart : ∀ b ∈ rest.head?, isBlank b = true) :
    scan .finished (word ++ rest) = (.ok t, rest) := by
  cases rest with
  | nil => rw [List.append_nil, spells.scans]
  | cons b rest =>
      exact scan_append_blank b (apart b rfl) rest _ word [] t spells.scans spells.token

/-- A text in which the words stand apart: trivia before and between them, of which those behind a
word begin with a blank, and trivia or nothing behind the last. -/
inductive Layout : List (List Char) → List Char → Prop where
  | trivia {gap : List Char} (before : Trivia.Before [] gap) : Layout [] gap
  | word {gap word rest : List Char} {words : List (List Char)}
      (before : Trivia.Before (word ++ rest) gap) (apart : ∀ b ∈ rest.head?, isBlank b = true)
      (others : Layout words rest) : Layout (word :: words) (gap ++ (word ++ rest))

theorem scanAll_of_layout (words : List (List Char)) (text : List Char) (layout : Layout words text)
    (tokens : List Token) (spell : List.Forall₂ Spells words tokens) :
    scanAll .finished text = tokens.map .ok := by
  induction layout generalizing tokens with
  | @trivia gap before =>
      obtain rfl := List.forall₂_nil_left_iff.mp spell
      have scanned : scan .finished gap = (.ok .eof, []) := by
        have skipped := scan_append_of_before .finished gap [] before
        rwa [List.append_nil, scan_nil, Ending.lookAt_finished] at skipped
      exact scanAll_of_scan_eof .finished gap [] scanned
  | @word gap word rest words before apart _ ih =>
      obtain ⟨t, tokens, spells, others, rfl⟩ := List.forall₂_cons_left_iff.mp spell
      have scanned : scan .finished (gap ++ (word ++ rest)) = (.ok t, rest) := by
        rw [scan_append_of_before .finished gap _ before, scan_word word rest t spells apart]
      rw [scanAll_of_scan_ok .finished _ rest t scanned spells.token, ih tokens others,
        List.map_cons]

def nextWord (text : List Char) : List Char :=
  let start := (Trivia.skip text).getD []
  start.take (start.length - (scan .finished text).2.length)

def nextWords : Nat → List Char → List (List Char)
  | 0, _ => []
  | count + 1, text => nextWord text :: nextWords count (scan .finished text).2

theorem spells_nextWord (text rest : List Char) (t : Token)
    (scanned : scan .finished text = (.ok t, rest)) (token : t ≠ .eof) :
    Spells (nextWord text) t := by
  refine ⟨?_, token⟩
  have left : (scan .finished text).2 = rest := congrArg Prod.snd scanned
  obtain ⟨word, next⟩ := exists_nextToken .finished text rest t scanned token
  have taken : nextWord text = word := by
    simp only [nextWord, next.skipped, left, Option.getD_some]
    exact List.take_left' (by simp)
  have unskipped : Trivia.skip word = some word := by
    obtain ⟨c, others, rfl⟩ := List.exists_cons_of_ne_nil next.nonempty
    obtain ⟨not_blank, no_comment⟩ := Trivia.head_of_skipFrom .blanks text _ c next.skipped
    rw [Trivia.skip, Trivia.skipFrom_blanks_cons c others, not_blank]
    · rfl
    · intro is_slash d head
      cases others with
      | nil => simp at head
      | cons e others => exact no_comment is_slash d head
  rw [taken, scan, unskipped]
  exact next.reads.alone

theorem spells_nextWords (text : List Char) (tokens : List Token)
    (items : scanAll .finished text = tokens.map .ok) :
    List.Forall₂ Spells (nextWords tokens.length text) tokens := by
  induction tokens generalizing text with
  | nil => exact .nil
  | cons t tokens ih =>
      obtain ⟨rest, scanned, token, others⟩ := scan_of_scanAll_eq_cons text _ _ items
      refine .cons (spells_nextWord text rest t scanned (by simpa using token)) ?_
      rw [scanned]
      exact ih rest others

theorem Source.answers_of_scanAll (text : List Char) (tokens : List Token)
    (items : scanAll .finished text = tokens.map .ok) (count : Nat)
    (enough : tokens.length < count) :
    (Source.mk text .finished).answers false count = tokens.map .ok ++ [.ok .eof] := by
  induction tokens generalizing text count with
  | nil =>
      obtain ⟨rest, scanned⟩ := scan_of_scanAll_eq_nil text items
      cases count with
      | zero => simp at enough
      | succ count => simp [answers, next, scanned]
  | cons t tokens ih =>
      obtain ⟨rest, scanned, token, others⟩ := scan_of_scanAll_eq_cons text _ _ items
      cases count with
      | zero => simp at enough
      | succ count =>
          have behind := ih rest others count (by simpa using enough)
          simp only [answers, next, scanned]
          split
          · rename_i same
            exact absurd same token
          · simp [behind]
          · rename_i same
            simp at same

/-- If a text has tokens and no error, the words of the tokens, written down with other trivia
before, between and behind them, have the same tokens. -/
theorem Source.answers_of_layout (text laid : List Char) (tokens : List Token) (requests : Nat)
    (lexed : (Source.mk text .finished).answers false requests = tokens.map .ok ++ [.ok .eof])
    (layout : Layout (nextWords tokens.length text) laid) (count : Nat)
    (enough : tokens.length < count) :
    (Source.mk laid .finished).answers false count = tokens.map .ok ++ [.ok .eof] := by
  obtain ⟨-, items⟩ := stream_of_answers tokens requests ⟨text, .finished⟩ lexed
  have spelled := spells_nextWords text tokens items
  exact answers_of_scanAll laid tokens (scanAll_of_layout _ laid layout tokens spelled) count enough

/-- Three tokens without anything between them, of which the first would be part of a longer numeral
if the next digit were an octal one, and the same tokens with comments between them. -/
theorem Source.answers_of_layout_numerals :
    let tokens : List Token := [.int 0 "0", .int 8 "8", .name "g"]
    (Source.mk ['0', '8', 'g'] .finished).answers false 4 = tokens.map .ok ++ [.ok .eof] ∧
      (Source.mk ['0', ' ', '/', '/', '1', '\n', '8', '\t', '/', '*', '*', '/', 'g', ' ']
        .finished).answers false 4 = tokens.map .ok ++ [.ok .eof] := by
  intro tokens
  have lexed : (Source.mk ['0', '8', 'g'] .finished).answers false 4 =
      tokens.map .ok ++ [.ok .eof] := by rfl
  have words : nextWords 3 ['0', '8', 'g'] = [['0'], ['8'], ['g']] := by rfl
  have blank (b : Char) (blank : isBlank b = true) (text : List Char) :
      ∀ c ∈ (b :: text).head?, isBlank c = true := by
    rintro c ⟨⟩
    exact blank
  have last : Layout [['g']] ['\t', '/', '*', '*', '/', 'g', ' '] :=
    @Layout.word ['\t', '/', '*', '*', '/'] ['g'] [' '] []
      (.blank _ _ rfl (.block [] [] (by decide) .nil)) (blank _ rfl _)
      (.trivia (.blank _ _ rfl .nil))
  have second : Layout [['8'], ['g']]
      [' ', '/', '/', '1', '\n', '8', '\t', '/', '*', '*', '/', 'g', ' '] :=
    @Layout.word [' ', '/', '/', '1', '\n'] ['8'] _ _
      (.blank _ _ rfl (.line ['1'] [] (by decide) .nil)) (blank _ rfl _) last
  have layout : Layout (nextWords tokens.length ['0', '8', 'g'])
      ['0', ' ', '/', '/', '1', '\n', '8', '\t', '/', '*', '*', '/', 'g', ' '] :=
    words ▸ @Layout.word [] ['0'] _ _ .nil (blank _ rfl _) second
  exact ⟨lexed, answers_of_layout _ _ tokens 4 lexed layout 4 (by decide)⟩

end Abacus
