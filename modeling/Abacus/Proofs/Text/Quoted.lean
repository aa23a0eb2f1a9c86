import Abacus.Proofs.Text.Digit
import Abacus.Text.Quoted

/-!
Quoted texts. Main statements: no two texts are quoted alike, and a quoted text is on one line.
-/
namespace Abacus.Text

section Hexadecimal

theorem positional_hex (width n : Nat) : positional 16 (hex width n) = n := by
  have zeros (count : Nat) :
      (List.replicate count '0').foldl (fun n c => n * 16 + (digitValue? c).getD 0) 0 = 0 := by
    induction count with
    | zero => rfl
    | succ count ih => exact ih
  rw [positional, hex, List.foldl_append, zeros]
  exact positional_toDigits 16 (by decide) (by decide) n

theorem length_hex (width n : Nat) (positive : 0 < width) (fits : n < 16 ^ width) :
    (hex width n).length = width := by
  have most := (Nat.length_toDigits_le_iff (by decide) positive).mpr fits
  simp only [hex, List.length_append, List.length_replicate]
  omega

theorem newline_not_mem_hex (width n : Nat) : '\n' ∉ hex width n := by
  intro member
  rcases List.mem_append.mp member with zero | digit
  · exact absurd (List.eq_of_mem_replicate zero) (by decide)
  · exact newline_not_mem_toDigits 16 (by decide) (by decide) n digit

end Hexadecimal

section Reading

def escaped? : Char → Option Char
  | 'a' => some '\x07'
  | 'b' => some '\x08'
  | 'f' => some '\x0c'
  | 'n' => some '\n'
  | 'r' => some '\r'
  | 't' => some '\t'
  | 'v' => some '\x0b'
  | '"' => some '"'
  | '\\' => some '\\'
  | _ => none

def codeWidth : Char → Nat
  | 'x' => 2
  | 'u' => 4
  | _ => 8

def readQuoted : List Char → Option (Char × List Char)
  | [] => none
  | '\\' :: c :: text =>
      match escaped? c with
      | some d => some (d, text)
      | none => some (Char.ofNat (positional 16 (text.take (codeWidth c))), text.drop (codeWidth c))
  | c :: text => some (c, text)

theorem readQuoted_escaped (c d : Char) (text : List Char) (found : escaped? c = some d) :
    readQuoted ('\\' :: c :: text) = some (d, text) := by
  simp only [readQuoted, found]

theorem readQuoted_plain (c : Char) (text : List Char) (plain : c ≠ '\\') :
    readQuoted (c :: text) = some (c, text) := by
  rw [readQuoted]
  simp [plain]

theorem readQuoted_code (letter c : Char) (width : Nat) (rest : List Char)
    (no_letter : escaped? letter = none) (digits : codeWidth letter = width) (positive : 0 < width)
    (fits : c.toNat < 16 ^ width) :
    readQuoted ('\\' :: letter :: (hex width c.toNat ++ rest)) = some (c, rest) := by
  have length := length_hex width c.toNat positive fits
  simp only [readQuoted, no_letter, digits, List.take_left' length, List.drop_left' length,
    positional_hex, Char.ofNat_toNat]

theorem toNat_lt (c : Char) : c.toNat < 0x110000 := by
  have valid : c.toNat < 0xd800 ∨ 0xdfff < c.toNat ∧ c.toNat < 0x110000 := c.valid
  omega

theorem readQuoted_escapeUnprintable (c : Char) (rest : List Char) :
    readQuoted (escapeUnprintable '"' c ++ rest) = some (c, rest) := by
  have control (letter : Char) (n : Nat) (found : escaped? letter = some (.ofNat n))
      (code : c.toNat = n) : readQuoted ('\\' :: letter :: rest) = some (c, rest) := by
    rw [readQuoted_escaped _ _ _ found, ← code, Char.ofNat_toNat]
  have valid := toNat_lt c
  unfold escapeUnprintable
  split
  · rename_i special
    rcases special with rfl | rfl <;> rfl
  · rename_i ordinary
    split
    · exact readQuoted_plain c rest fun same => ordinary (.inr same)
    · split
      case h_1 code => exact control 'a' _ rfl code
      case h_2 code => exact control 'b' _ rfl code
      case h_3 code => exact control 'f' _ rfl code
      case h_4 code => exact control 'n' _ rfl code
      case h_5 code => exact control 'r' _ rfl code
      case h_6 code => exact control 't' _ rfl code
      case h_7 code => exact control 'v' _ rfl code
      case h_8 =>
        split
        · exact readQuoted_code 'x' c 2 rest rfl rfl (by decide) (by omega)
        · split
          · exact readQuoted_code 'u' c 4 rest rfl rfl (by decide) (by omega)
          · exact readQuoted_code 'U' c 8 rest rfl rfl (by decide) (by omega)

theorem escapeUnprintable_append_inj (c d : Char) (rest rest' : List Char)
    (same : escapeUnprintable '"' c ++ rest = escapeUnprintable '"' d ++ rest') :
    c = d ∧ rest = rest' := by
  have read := congrArg readQuoted same
  simpa only [readQuoted_escapeUnprintable, Option.some.injEq, Prod.mk.injEq] using read

end Reading

theorem flatMap_escape_inj (text text' : List Char)
    (same : text.flatMap (escapeUnprintable '"') ++ ['"'] =
      text'.flatMap (escapeUnprintable '"') ++ ['"']) : text = text' := by
  -- nothing stands behind the closing quote, so that it is not the quote of an escape
  have quote_last (c : Char) (text : List Char) :
      ['"'] ≠ (c :: text).flatMap (escapeUnprintable '"') ++ ['"'] := by
    intro closed
    have read := congrArg readQuoted closed
    rw [List.flatMap_cons, List.append_assoc, readQuoted_escapeUnprintable] at read
    simp [readQuoted] at read
  induction text generalizing text' with
  | nil =>
      cases text' with
      | nil => rfl
      | cons d text' => exact absurd same (quote_last d text')
  | cons c text ih =>
      cases text' with
      | nil => exact absurd same.symm (quote_last c text)
      | cons d text' =>
          rw [List.flatMap_cons, List.append_assoc, List.flatMap_cons, List.append_assoc] at same
          obtain ⟨rfl, rest⟩ := escapeUnprintable_append_inj c d _ _ same
          rw [ih text' rest]

theorem quoted_injective : Function.Injective (quoted '"') := by
  intro text text' same
  exact flatMap_escape_inj text text' (List.cons.inj same).2

theorem newline_not_mem_escapeUnprintable (c : Char) : '\n' ∉ escapeUnprintable '"' c := by
  unfold escapeUnprintable
  split
  · rename_i special
    rcases special with rfl | rfl <;> decide
  · split
    · rename_i printable
      intro member
      obtain rfl : '\n' = c := by simpa using member
      exact absurd printable (by decide)
    · split
      case h_8 =>
        split
        · simp [newline_not_mem_hex]
        · split <;> simp [newline_not_mem_hex]
      all_goals decide

theorem newline_not_mem_quoted (text : List Char) : '\n' ∉ quoted '"' text := by
  simp [quoted, enclose, newline_not_mem_escapeUnprintable]

end Abacus.Text
