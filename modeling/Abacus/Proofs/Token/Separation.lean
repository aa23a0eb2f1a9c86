import Abacus.Proofs.Token.Stream

/-!
A blank ends a token. What scans as a token up to the end of a text scans as the same token when a
blank and any other text follow, and leaves these unread; a line feed also ends a comment.
-/
namespace Abacus
open Text

def blanks : List Char :=
  ['\t', '\n', '\x0b', '\x0c', '\r', ' ', '\u0085', '\u00a0', '\u1680', '\u2000', '\u2001',
    '\u2002', '\u2003', '\u2004', '\u2005', '\u2006', '\u2007', '\u2008', '\u2009', '\u200a',
    '\u2028', '\u2029', '\u202f', '\u205f', '\u3000']

theorem mem_blanks_of_isBlank (c : Char) (blank : isBlank c = true) : c ∈ blanks := by
  have code : c.toNat ∈ blanks.map Char.toNat := by
    simp only [isBlank, Bool.or_eq_true, Bool.and_eq_true, decide_eq_true_eq, beq_iff_eq] at blank
    simp only [blanks, List.map_cons, List.map_nil, List.mem_cons, Char.reduceToNat]
    omega
  obtain ⟨d, member, same⟩ := List.mem_map.mp code
  rwa [← Char.toNat_inj.mp same]

theorem separates_of_isBlank (c : Char) (blank : isBlank c = true) : Separates c := by
  have member := mem_blanks_of_isBlank c blank
  -- a Boolean test, which is run on the list and not on all characters
  have all : (blanks.all fun c => !Scan.isNameChar c && (digitValue? c).isNone &&
      (Symbol.ofChar? c).isNone && Symbol.all.all fun s => (s.extend? c).isNone) = true := by
    decide +kernel
  have none := List.all_eq_true.mp all c member
  simp only [Bool.and_eq_true, Bool.not_eq_true', Option.isNone_iff_eq_none, List.all_eq_true]
    at none
  obtain ⟨⟨⟨name, digit⟩, symbol⟩, longer⟩ := none
  exact ⟨name, digit, symbol, fun s => longer s (by cases s <;> decide)⟩

namespace Trivia

theorem skipFrom_blanks_cons (c : Char) (text : List Char)
    (no_comment : c = '/' → ∀ d ∈ text.head?, d ≠ '/' ∧ d ≠ '*') :
    skipFrom .blanks (c :: text) =
      if isBlank c then skipFrom .blanks text else some (c :: text) := by
  rw [skipFrom.eq_def]
  split <;> simp_all

theorem skipFrom_line_cons (c : Char) (text : List Char) :
    skipFrom .line (c :: text) = if c = '\n' then skipFrom .blanks text else skipFrom .line text :=
  rfl

theorem skipFrom_block_cons (c : Char) (text : List Char)
    (no_end : c = '*' → ∀ d ∈ text.head?, d ≠ '/') :
    skipFrom .block (c :: text) = skipFrom .block text := by
  rw [skipFrom.eq_def]
  split <;> simp_all

theorem head_of_skipFrom (mode : Mode) (text rest : List Char) (c : Char)
    (skipped : skipFrom mode text = some (c :: rest)) :
    isBlank c = false ∧ (c = '/' → ∀ d ∈ rest.head?, d ≠ '/' ∧ d ≠ '*') := by
  fun_induction skipFrom mode text with
  | case1 => simp at skipped
  | case2 text ih => exact ih skipped
  | case3 text ih => exact ih skipped
  | case4 d text _ _ _ ih => exact ih skipped
  | case5 d text no_line no_block not_blank =>
      obtain ⟨rfl, rfl⟩ : d = c ∧ text = rest := by simpa using skipped
      refine ⟨by simpa using not_blank, ?_⟩
      rintro is_slash e first
      obtain ⟨more, rfl⟩ : ∃ more, text = e :: more := by
        cases text <;> simp_all
      exact ⟨fun same => no_line more is_slash (by rw [same]),
        fun same => no_block more is_slash (by rw [same])⟩
  | case6 => simp at skipped
  | case7 text ih => exact ih skipped
  | case8 d text _ ih => exact ih skipped
  | case9 => simp at skipped
  | case10 text ih => exact ih skipped
  | case11 d text _ ih => exact ih skipped

theorem skipFrom_append_more (mode : Mode) (text : List Char) (c : Char) (rest more : List Char)
    (skipped : skipFrom mode text = some (c :: rest))
    (apart : c = '/' → ∀ d ∈ (rest ++ more).head?, d ≠ '/' ∧ d ≠ '*') :
    skipFrom mode (text ++ more) = some (c :: (rest ++ more)) := by
  fun_induction skipFrom mode text with
  | case1 => simp at skipped
  | case2 text ih => exact ih skipped
  | case3 text ih => exact ih skipped
  | case4 d text no_line no_block is_blank ih =>
      have not_slash : d ≠ '/' := by
        rintro rfl
        simp [isBlank] at is_blank
      rw [List.cons_append, skipFrom_blanks_cons d _ fun same => absurd same not_slash,
        if_pos is_blank, ih skipped]
  | case5 d text no_line no_block not_blank =>
      obtain ⟨rfl, rfl⟩ : d = c ∧ text = rest := by simpa using skipped
      rw [List.cons_append, skipFrom_blanks_cons d _ apart, if_neg not_blank]
  | case6 => simp at skipped
  | case7 text ih => exact ih skipped
  | case8 d text not_feed ih =>
      rw [List.cons_append, skipFrom_line_cons, if_neg not_feed, ih skipped]
  | case9 => simp at skipped
  | case10 text ih => exact ih skipped
  | case11 d text no_end ih =>
      have inner : d = '*' → ∀ e ∈ (text ++ more).head?, e ≠ '/' := by
        -- the comment goes on, so that what follows the star is part of the text
        cases text with
        | nil => simp [show skipFrom .block [] = none from rfl] at skipped
        | cons e text =>
            rintro is_star _ ⟨⟩ rfl
            exact no_end text is_star rfl
      rw [List.cons_append, skipFrom_block_cons d _ inner, ih skipped]

section Blank
variable (b : Char) (blank : isBlank b = true) (more : List Char)
include blank

theorem ne_slash_of_isBlank : b ≠ '/' := by
  rintro rfl
  simp [isBlank] at blank

theorem ne_star_of_isBlank : b ≠ '*' := by
  rintro rfl
  simp [isBlank] at blank

theorem no_comment_append (c : Char) (text : List Char)
    (no_line : ∀ rest, c = '/' → text = '/' :: rest → False)
    (no_block : ∀ rest, c = '/' → text = '*' :: rest → False) (is_slash : c = '/') :
    ∀ d ∈ (text ++ b :: more).head?, d ≠ '/' ∧ d ≠ '*' := by
  intro d first
  cases text with
  | nil =>
      obtain rfl : b = d := by simpa using first
      exact ⟨ne_slash_of_isBlank b blank, ne_star_of_isBlank b blank⟩
  | cons e text =>
      obtain rfl : e = d := by simpa using first
      exact ⟨fun same => no_line text is_slash (by rw [same]),
        fun same => no_block text is_slash (by rw [same])⟩

theorem no_end_append (c : Char) (text : List Char)
    (no_end : ∀ rest, c = '*' → text = '/' :: rest → False) (is_star : c = '*') :
    ∀ d ∈ (text ++ b :: more).head?, d ≠ '/' := by
  intro d first
  cases text with
  | nil =>
      obtain rfl : b = d := by simpa using first
      exact ne_slash_of_isBlank b blank
  | cons e text =>
      obtain rfl : e = d := by simpa using first
      exact fun same => no_end text is_star (by rw [same])

theorem skipFrom_append_blank (mode : Mode) (text : List Char) (c : Char) (rest : List Char)
    (skipped : skipFrom mode text = some (c :: rest)) :
    skipFrom mode (text ++ b :: more) = some (c :: (rest ++ b :: more)) := by
  obtain ⟨-, no_comment⟩ := head_of_skipFrom mode text rest c skipped
  refine skipFrom_append_more mode text c rest (b :: more) skipped fun is_slash d first => ?_
  cases rest with
  | nil =>
      obtain rfl : b = d := by simpa using first
      exact ⟨ne_slash_of_isBlank b blank, ne_star_of_isBlank b blank⟩
  | cons e rest => exact no_comment is_slash d first

end Blank

/-- Where trivia reach the end of a text, a blank behind it is met between comments or in a line
comment. -/
theorem skipFrom_append_of_eq_nil (mode : Mode) (text : List Char)
    (skipped : skipFrom mode text = some []) :
    ∃ final : Mode, final ≠ .block ∧ ∀ (b : Char) (more : List Char), isBlank b = true →
      skipFrom mode (text ++ b :: more) = skipFrom final (b :: more) := by
  fun_induction skipFrom mode text with
  | case1 => exact ⟨.blanks, by simp, fun b more _ => rfl⟩
  | case2 text ih => exact ih skipped
  | case3 text ih => exact ih skipped
  | case4 d text no_line no_block is_blank ih =>
      obtain ⟨final, open_end, same⟩ := ih skipped
      refine ⟨final, open_end, fun b more blank => ?_⟩
      rw [List.cons_append,
        skipFrom_blanks_cons d _ (no_comment_append b blank more d text no_line no_block),
        if_pos is_blank, same b more blank]
  | case5 => simp at skipped
  | case6 => exact ⟨.line, by simp, fun b more _ => rfl⟩
  | case7 text ih => exact ih skipped
  | case8 d text not_feed ih =>
      obtain ⟨final, open_end, same⟩ := ih skipped
      refine ⟨final, open_end, fun b more blank => ?_⟩
      rw [List.cons_append, skipFrom_line_cons, if_neg not_feed, same b more blank]
  | case9 => simp at skipped
  | case10 text ih => exact ih skipped
  | case11 d text no_end ih =>
      obtain ⟨final, open_end, same⟩ := ih skipped
      refine ⟨final, open_end, fun b more blank => ?_⟩
      rw [List.cons_append, skipFrom_block_cons d _ (no_end_append b blank more d text no_end),
        same b more blank]

theorem skipFrom_append_newline (more : List Char) (mode : Mode) (text : List Char)
    (skipped : skipFrom mode text = some []) :
    skipFrom mode (text ++ '\n' :: more) = skipFrom .blanks more := by
  have blank : isBlank '\n' = true := by decide
  obtain ⟨final, open_end, same⟩ := skipFrom_append_of_eq_nil mode text skipped
  rw [same '\n' more blank]
  cases final with
  | blanks => rw [skipFrom_blanks_cons '\n' more (by simp), if_pos blank]
  | line => rw [skipFrom_line_cons, if_pos rfl]
  | block => exact absurd rfl open_end

theorem skipFrom_append_singleton (b : Char) (blank : isBlank b = true) (mode : Mode)
    (text : List Char) (skipped : skipFrom mode text = some []) :
    skipFrom mode (text ++ [b]) = some [] := by
  obtain ⟨final, open_end, same⟩ := skipFrom_append_of_eq_nil mode text skipped
  rw [same b [] blank]
  cases final with
  | blanks => rw [skipFrom_blanks_cons b [] (by simp), if_pos blank]; rfl
  | line =>
      rw [skipFrom_line_cons]
      split <;> rfl
  | block => exact absurd rfl open_end

end Trivia

theorem scan_append_blank (b : Char) (blank : isBlank b = true) (more : List Char)
    (ending : Ending) (text rest : List Char) (t : Token)
    (scanned : scan .finished text = (.ok t, rest)) (token : t ≠ .eof) :
    scan ending (text ++ b :: more) = (.ok t, rest ++ b :: more) := by
  obtain ⟨word, next⟩ := exists_nextToken .finished text rest t scanned token
  obtain ⟨c, others, rfl⟩ := List.exists_cons_of_ne_nil next.nonempty
  have longer := Trivia.skipFrom_append_blank b blank more .blanks text c (others ++ rest)
    next.skipped
  have found := next.reads.append ending b more fun _ => separates_of_isBlank b blank
  simp only [scan, Trivia.skip, longer]
  rwa [List.append_assoc, ← List.cons_append]

theorem scan_append_newline (more : List Char) (ending : Ending) (text rest : List Char)
    (scanned : scan .finished text = (.ok .eof, rest)) :
    scan ending (text ++ '\n' :: more) = scan ending more := by
  obtain ⟨-, skipped, -⟩ := skip_eq_nil_of_scan_eq_eof .finished text rest scanned
  simp only [scan, Trivia.skip, Trivia.skipFrom_append_newline more .blanks text skipped]

theorem scan_append_singleton (b : Char) (blank : isBlank b = true) (ending : Ending)
    (text rest : List Char) (scanned : scan .finished text = (.ok .eof, rest)) :
    scan ending (text ++ [b]) = scan ending [] := by
  obtain ⟨-, skipped, -⟩ := skip_eq_nil_of_scan_eq_eof .finished text rest scanned
  simp only [scan, Trivia.skip, Trivia.skipFrom_append_singleton b blank .blanks text skipped]
  rfl

/-- Behind a blank the items of a text without an error are followed by those of some other text, if
where the first text ends that other one is scanned. -/
theorem scanAll_append_blank (b : Char) (blank : isBlank b = true) (more other : List Char)
    (goes_on : ∀ text rest, scan .finished text = (.ok .eof, rest) →
      scan .finished (text ++ b :: more) = scan .finished other)
    (text : List Char) (tokens : List Token) (items : scanAll .finished text = tokens.map .ok) :
    scanAll .finished (text ++ b :: more) = tokens.map .ok ++ scanAll .finished other := by
  induction tokens generalizing text with
  | nil =>
      obtain ⟨rest, scanned⟩ := scan_of_scanAll_eq_nil text items
      exact scanAll_finished_congr _ _ (goes_on text rest scanned)
  | cons t tokens ih =>
      obtain ⟨rest, scanned, token, others⟩ := scan_of_scanAll_eq_cons text _ _ items
      have token' : t ≠ .eof := by
        rintro rfl
        exact token rfl
      have longer := scan_append_blank b blank more .finished text rest t scanned token'
      rw [scanAll_of_scan_ok .finished _ _ t longer token', ih rest others]
      rfl

theorem scanAll_append_newline (text more : List Char) (tokens : List Token)
    (items : scanAll .finished text = tokens.map .ok) :
    scanAll .finished (text ++ '\n' :: more) = tokens.map .ok ++ scanAll .finished more :=
  scanAll_append_blank '\n' (by decide) more more
    (fun text rest scanned => scan_append_newline more .finished text rest scanned) text tokens
    items

theorem scanAll_append_singleton (b : Char) (blank : isBlank b = true) (text : List Char)
    (tokens : List Token) (items : scanAll .finished text = tokens.map .ok) :
    scanAll .finished (text ++ [b]) = tokens.map .ok := by
  have joint := scanAll_append_blank b blank [] []
    (fun text rest scanned => scan_append_singleton b blank .finished text rest scanned) text tokens
    items
  rwa [scanAll_nil, List.append_nil] at joint

end Abacus
