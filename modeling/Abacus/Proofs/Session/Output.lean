import Abacus.Proofs.Text.Digit
import Abacus.Session

/-!
The output of a run as text. Main statement: its lines are the texts of the values, one each.
-/
namespace Abacus

namespace Text

def lines : List Char → List (List Char)
  | [] => []
  | c :: text =>
      if c = '\n' then [c] :: lines text
      else match lines text with
        | [] => [[c]]
        | line :: rest => (c :: line) :: rest

theorem lines_append_newline (line text : List Char) (single : '\n' ∉ line) :
    lines (line ++ '\n' :: text) = (line ++ ['\n']) :: lines text := by
  induction line with
  | nil => simp [lines]
  | cons c line ih =>
      obtain ⟨other, rest⟩ : '\n' ≠ c ∧ '\n' ∉ line := by simpa using single
      simp only [List.cons_append, lines, ih rest, Ne.symm other, ↓reduceIte]

def lastLine (text : String) : String :=
  String.ofList ((lines text.toList).getLast?.getD [])

end Text

namespace Number

theorem newline_not_mem_decimal (n : Nat) : '\n' ∉ Nat.toDigits 10 n :=
  Text.newline_not_mem_toDigits 10 (by decide) (by decide) n

theorem newline_not_mem_integerText (n : Int) : '\n' ∉ integerText n := by
  cases n <;> simp [integerText, newline_not_mem_decimal]

namespace Layout

theorem newline_not_mem_zeros (count : Nat) : '\n' ∉ zeros count := by
  simp [zeros]

theorem newline_not_mem_stripZeros (digits : List Char) (none : '\n' ∉ digits) :
    '\n' ∉ stripZeros digits := by
  intro member
  have left := (List.dropWhile_sublist _).mem (List.mem_reverse.mp member)
  exact none (List.mem_reverse.mp left)

theorem newline_not_mem_padded (width n : Nat) : '\n' ∉ padded width n := by
  simp [padded, newline_not_mem_zeros, newline_not_mem_decimal]

theorem newline_not_mem_plain (digits : List Char) (point : Int) (none : '\n' ∉ digits) :
    '\n' ∉ plain digits point := by
  have front : '\n' ∉ digits.take point.toNat := fun member => none (List.mem_of_mem_take member)
  have back : '\n' ∉ digits.drop point.toNat := fun member => none (List.mem_of_mem_drop member)
  unfold plain
  split
  · simp [newline_not_mem_zeros, none]
  · split
    · simp [newline_not_mem_zeros, none]
    · simp [front, back]

theorem newline_not_mem_mantissa (digits : List Char) (none : '\n' ∉ digits) :
    '\n' ∉ mantissa digits := by
  rcases digits with - | ⟨d, - | ⟨e, ds⟩⟩ <;> simp_all [mantissa]

theorem newline_not_mem_exponent (layout : Layout) (x : Int) : '\n' ∉ layout.exponent x := by
  unfold exponent
  split <;> simp [newline_not_mem_padded]

theorem newline_not_mem_exponential (layout : Layout) (digits : List Char) (x : Int)
    (none : '\n' ∉ digits) : '\n' ∉ layout.exponential digits x := by
  simp [exponential, newline_not_mem_mantissa digits none, newline_not_mem_exponent]

theorem newline_not_mem_magnitude (layout : Layout) (units : Nat) :
    '\n' ∉ layout.magnitude units := by
  have digits : '\n' ∉ significand (.shortest units) :=
    newline_not_mem_stripZeros _ (newline_not_mem_decimal _)
  unfold magnitude decimalText
  split
  · simp
  · simp only
    split
    · exact newline_not_mem_plain _ _ digits
    · exact newline_not_mem_exponential layout _ _ digits

theorem newline_not_mem_text (layout : Layout) (x : Float) : '\n' ∉ (layout.text x).toList := by
  unfold text
  split
  · decide
  · decide
  · decide
  · rename_i negative units _
    have sign : '\n' ∉ if negative = true then ['-'] else [] := by split <;> simp
    rw [String.toList_ofList, List.mem_append, not_or]
    exact ⟨sign, newline_not_mem_magnitude layout units⟩

end Layout
end Number

theorem Value.newline_not_mem_text (value : Value) : '\n' ∉ value.text.toList := by
  cases value with
  | int n => simpa [text] using Number.newline_not_mem_integerText n.toInt
  | float x => exact Number.Layout.newline_not_mem_text resultLayout x

theorem Run.lines_out (run : Run) :
    Text.lines run.out.toList = run.values.map fun value => value.text.toList ++ ['\n'] := by
  obtain ⟨values, error, session⟩ := run
  induction values with
  | nil => rfl
  | cons value values ih =>
      have first := Text.lines_append_newline value.text.toList
        (out ⟨values, error, session⟩).toList value.newline_not_mem_text
      rw [ih] at first
      simpa [out] using first

theorem Run.lastLine_out (run : Run) :
    Text.lastLine run.out = String.join (run.values.getLast?.toList.map (·.text ++ "\n")) := by
  rw [Text.lastLine, run.lines_out, List.getLast?_map]
  cases run.values.getLast? with
  | none => rfl
  | some value => simp [String.ofList_append]

end Abacus
