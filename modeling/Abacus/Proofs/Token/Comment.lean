import Abacus.Proofs.Token.Layout

/-!
Comments are transparent. Main statement: a scan goes on behind the first `*/` of a block comment
and behind the line feed of a line comment, and only a block comment without an end is an error.
-/
namespace Abacus

namespace Trivia

def blockEnd : List Char :=
  ['*', '/']

theorem blockEnd_infix_append_star (body : List Char) :
    blockEnd <:+: body ++ ['*'] ↔ blockEnd <:+: body := by
  constructor
  · rintro ⟨front, back, split⟩
    rcases List.eq_nil_or_concat back with rfl | ⟨back, last, rfl⟩
    · -- the slash would be the last character
      rw [List.append_nil] at split
      simpa [blockEnd] using congrArg List.getLast? split
    · rw [List.concat_eq_append, ← List.append_assoc] at split
      exact ⟨front, back, (List.append_inj' split rfl).1⟩
  · intro inside
    exact inside.trans (List.prefix_append body ['*']).isInfix

theorem skipFrom_block_of_ended (body rest : List Char) (inside : ¬ blockEnd <:+: body) :
    skipFrom .block (body ++ blockEnd ++ rest) = skipFrom .blanks rest := by
  rw [List.append_assoc]
  exact skipFrom_block_append body rest fun found =>
    inside ((blockEnd_infix_append_star body).mp found)

theorem skipFrom_block_of_open (text : List Char) (never : ¬ blockEnd <:+: text) :
    skipFrom .block text = none := by
  induction text with
  | nil => rfl
  | cons c text ih =>
      rw [List.infix_cons_iff, not_or] at never
      have inner : c = '*' → ∀ d ∈ text.head?, d ≠ '/' := by
        rintro rfl d head rfl
        obtain ⟨more, rfl⟩ := List.head?_eq_some_iff.mp head
        exact never.1 ⟨more, rfl⟩
      rw [skipFrom_block_cons c text inner, ih never.2]

theorem exists_first_blockEnd (text : List Char) (found : blockEnd <:+: text) :
    ∃ body rest, text = body ++ blockEnd ++ rest ∧ ¬ blockEnd <:+: body := by
  induction text with
  | nil => simp [blockEnd] at found
  | cons c text ih =>
      by_cases here : blockEnd <+: c :: text
      · obtain ⟨rest, starts⟩ := here
        exact ⟨[], rest, starts.symm, by simp [blockEnd]⟩
      · obtain ⟨body, rest, rfl, inside⟩ := ih ((List.infix_cons_iff.mp found).resolve_left here)
        refine ⟨c :: body, rest, rfl, fun again => ?_⟩
        rcases List.infix_cons_iff.mp again with starts | later
        · refine here (starts.trans ?_)
          rw [List.append_assoc]
          exact (List.prefix_cons_inj c).mpr (List.prefix_append body _)
        · exact inside later

end Trivia

open Trivia

section Scanning
variable (ending : Ending)

theorem scan_block_ended (body rest : List Char) (inside : ¬ blockEnd <:+: body) :
    scan ending ("/*".toList ++ body ++ blockEnd ++ rest) = scan ending rest := by
  have skipped : skip ("/*".toList ++ body ++ blockEnd ++ rest) = skip rest :=
    skipFrom_block_of_ended body rest inside
  simp only [scan, skipped]

theorem scan_block_open (text : List Char) (never : ¬ blockEnd <:+: text) :
    scan ending ("/*".toList ++ text) = (ending.lookAt [] (.error .unterminatedComment), []) := by
  have skipped : skip ("/*".toList ++ text) = none := skipFrom_block_of_open text never
  simp only [scan, skipped]

/-- A scan from the beginning of a block comment comes to nothing if the comment has no end, or if
the scan from behind its end does. -/
theorem scan_block_eq_open_iff (text : List Char) :
    scan ending ("/*".toList ++ text) = (ending.lookAt [] (.error .unterminatedComment), []) ↔
      ¬ blockEnd <:+: text ∨
        ∃ body rest, text = body ++ blockEnd ++ rest ∧ ¬ blockEnd <:+: body ∧
          scan ending rest = (ending.lookAt [] (.error .unterminatedComment), []) := by
  constructor
  · intro scanned
    by_cases ended : blockEnd <:+: text
    · obtain ⟨body, rest, rfl, inside⟩ := exists_first_blockEnd text ended
      rw [← List.append_assoc, ← List.append_assoc, scan_block_ended ending body rest inside]
        at scanned
      exact .inr ⟨body, rest, rfl, inside, scanned⟩
    · exact .inl ended
  · rintro (never | ⟨body, rest, rfl, inside, scanned⟩)
    · exact scan_block_open ending text never
    · rw [← List.append_assoc, ← List.append_assoc, scan_block_ended ending body rest inside,
        scanned]

theorem scan_line_ended (body rest : List Char) (single : '\n' ∉ body) :
    scan ending ("//".toList ++ body ++ '\n' :: rest) = scan ending rest := by
  have comment : Before rest ("//".toList ++ (body ++ ['\n'])) := .line body [] single .nil
  simpa using scan_append_of_before ending _ rest comment

end Scanning

/-- A comment in front of a text changes neither what is scanned nor what is left, however the input
ends. A block comment ends with the first `*/` in it, and a scan of one finds it unterminated
exactly if there is none, or if that is found behind it. -/
theorem scan_comments_transparent :
    (∀ (ending : Ending) (body rest : List Char), ¬ ['*', '/'] <:+: body →
      scan ending ("/*".toList ++ body ++ "*/".toList ++ rest) = scan ending rest) ∧
    (∀ (ending : Ending) (body rest : List Char), '\n' ∉ body →
      scan ending ("//".toList ++ body ++ '\n' :: rest) = scan ending rest) ∧
    ∀ text : List Char,
      scan .finished ("/*".toList ++ text) = (.error .unterminatedComment, []) ↔
        ¬ ['*', '/'] <:+: text ∨
          ∃ body rest, text = body ++ "*/".toList ++ rest ∧ ¬ ['*', '/'] <:+: body ∧
            scan .finished rest = (.error .unterminatedComment, []) :=
  ⟨scan_block_ended, scan_line_ended, scan_block_eq_open_iff .finished⟩

/-- Comments that begin with a slash, that end in stars and that stand in a row. -/
theorem scan_comments_transparent_stars :
    scan .finished "/*/ // **/ /***/ x/*".toList = scan .finished " /***/ x/*".toList ∧
      scan (.failed "reset") "// /* \n+".toList = scan (.failed "reset") "+".toList ∧
      scan .finished "/*/ **//***".toList = (.error .unterminatedComment, []) := by
  obtain ⟨block, line, unterminated⟩ := scan_comments_transparent
  refine ⟨block .finished "/ // *".toList " /***/ x/*".toList (by decide),
    line (.failed "reset") " /* ".toList "+".toList (by decide), ?_⟩
  refine (unterminated "/ **//***".toList).mpr (.inr ⟨"/ *".toList, "/***".toList, by decide,
    by decide, ?_⟩)
  exact (unterminated "**".toList).mpr (.inl (by decide))

end Abacus
