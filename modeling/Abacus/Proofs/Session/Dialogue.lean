import Abacus.Proofs.Session.Concatenation

/-!
Dialogues next to scripts. Main statement: lines that run one by one without an error run as one
script to the same effect.
-/
namespace Abacus

namespace Text.Lines

theorem eq_nil_of_split (bytes : List UInt8) (none : split bytes = []) : bytes = [] := by
  cases bytes with
  | nil => rfl
  | cons b bytes =>
      simp only [split] at none
      split at none
      · simp at none
      · split at none <;> simp at none

theorem eq_of_split (bytes line : List UInt8) (lines : List (List UInt8))
    (lines_eq : split bytes = line :: lines) :
    (∃ rest, bytes = line ++ 0x0a :: rest ∧ split rest = lines) ∨ bytes = line ∧ lines = [] := by
  induction bytes generalizing line with
  | nil => simp [split] at lines_eq
  | cons b bytes ih =>
      simp only [split] at lines_eq
      split at lines_eq
      · rename_i feed
        obtain ⟨rfl, rfl⟩ := List.cons.inj lines_eq
        exact .inl ⟨bytes, by rw [feed]; rfl, rfl⟩
      · split at lines_eq
        · rename_i none
          obtain ⟨rfl, rfl⟩ := List.cons.inj lines_eq
          exact .inr ⟨by rw [eq_nil_of_split bytes none], rfl⟩
        · rename_i first others first_eq
          obtain ⟨rfl, rfl⟩ := List.cons.inj lines_eq
          rcases ih first first_eq with ⟨rest, rfl, rest_eq⟩ | ⟨rfl, last⟩
          · exact .inl ⟨rest, rfl, rest_eq⟩
          · exact .inr ⟨rfl, last⟩

theorem eq_dropReturn_append (line : List UInt8) :
    line = dropReturn line ∨ line = dropReturn line ++ [0x0d] := by
  unfold dropReturn
  split
  · rename_i last
    obtain ⟨front, rfl⟩ := List.getLast?_eq_some_iff.mp last
    exact .inr (by simp)
  · exact .inl rfl

end Text.Lines

theorem Script.ofSource_append_return (bytes : List UInt8)
    (complete : (ofSource (.ofBytes bytes)).error = none) :
    ofSource (.ofBytes (bytes ++ [0x0d])) = ofSource (.ofBytes bytes) := by
  have decoded := Text.Utf8.decode_append_ascii 0x0d (by decide) bytes []
  obtain ⟨tokens, items_eq⟩ := exists_tokens_of_read _ _ _ complete
  have longer := scanAll_append_singleton '\r' (by decide) (Text.Utf8.decode bytes) tokens items_eq
  simp only [ofSource, Source.stream, Source.ofBytes] at items_eq ⊢
  rw [decoded, show Char.ofNat (0x0d : UInt8).toNat = '\r' from rfl,
    show Text.Utf8.decode [] = [] from rfl, longer, items_eq]

namespace Session

theorem run_dropReturn (session : Session) (line : List UInt8)
    (complete : (session.run (.ofBytes (Text.Lines.dropReturn line))).error = none) :
    session.run (.ofBytes line) = session.run (.ofBytes (Text.Lines.dropReturn line)) := by
  have parsed := ((session.runScript_error_eq_none _).mp complete).2
  rcases Text.Lines.eq_dropReturn_append line with same | longer
  · rw [← same]
  · calc session.run (.ofBytes line)
      _ = session.run (.ofBytes (Text.Lines.dropReturn line ++ [0x0d])) := by rw [← longer]
      _ = session.run (.ofBytes (Text.Lines.dropReturn line)) := by
          simp only [run, Script.ofSource_append_return _ parsed]

theorem err_runLine (session : Session) (line : List UInt8) :
    (session.runLine line).err = "" ↔ (session.run (.ofBytes line)).error = none := by
  simp only [runLine]
  cases (session.run (.ofBytes line)).error <;> simp

theorem turn_eq_reply (session : Session) (line : List UInt8) (prompt : String)
    (last : Option LoopError) (lines : List (List UInt8))
    (stays : isExit (Text.Lines.dropReturn line) = false)
    (complete : (runLines prompt last session (line :: lines)).error = none) :
    session.turn line = .reply (session.runLine (Text.Lines.dropReturn line)) := by
  by_cases long : Text.Lines.limit ≤ line.length
  · simp [runLines, turn, long] at complete
  · simp only [turn, long, stays, Bool.false_eq_true, ↓reduceIte]

theorem run_nil (session : Session) : session.run (.ofBytes []) = ⟨[], none, session⟩ := by
  have empty : Script.ofSource (.ofBytes []) = ⟨[], none⟩ := by
    rw [Script.ofSource, Source.stream, Source.ofBytes, Text.Utf8.decode, Text.Utf8.decodeFrom,
      scanAll_nil]
    rfl
  rw [run, empty]
  rfl

theorem run_of_runLines (lines : List (List UInt8)) (session : Session) (bytes : List UInt8)
    (lines_eq : Text.Lines.split bytes = lines)
    (stays : ∀ line ∈ lines, isExit (Text.Lines.dropReturn line) = false)
    (complete : (runLines "" none session lines).error = none)
    (silent : (runLines "" none session lines).err = "") :
    (session.run (.ofBytes bytes)).error = none ∧
      (session.run (.ofBytes bytes)).out = (runLines "" none session lines).out ∧
      (session.run (.ofBytes bytes)).session = (runLines "" none session lines).session := by
  induction lines generalizing session bytes with
  | nil =>
      obtain rfl := Text.Lines.eq_nil_of_split bytes lines_eq
      rw [run_nil]
      exact ⟨rfl, rfl, rfl⟩
  | cons line lines ih =>
      have replies :=
        session.turn_eq_reply line "" none lines (stays line List.mem_cons_self) complete
      simp only [runLines, replies] at complete silent ⊢
      obtain ⟨first_silent, rest_silent⟩ := String.append_eq_empty_iff.mp silent
      have first := (session.err_runLine _).mp first_silent
      have line_eq := session.run_dropReturn line first
      rw [← line_eq] at first
      have rest (others : List UInt8) (others_eq : Text.Lines.split others = lines) :=
        ih _ others others_eq (fun other member => stays other (.tail line member)) complete
          rest_silent
      simp only [runLine, ← line_eq] at rest ⊢
      rcases Text.Lines.eq_of_split bytes line lines lines_eq with
        ⟨others, rfl, others_eq⟩ | ⟨rfl, rfl⟩
      · obtain ⟨error, out, after⟩ := rest others others_eq
        rw [session.run_newline line others first]
        exact ⟨error, by rw [Run.out_append, out, String.empty_append], after⟩
      · exact ⟨first, by simp [runLines], rfl⟩

/-- A text that is run line by line to its end, with no line that ends the dialogue and nothing
written to the diagnostics, runs as a script without an error, writes the same and leaves the same
session. -/
theorem run_of_loop (session : Session) (bytes : List UInt8)
    (stays : ∀ line ∈ Text.Lines.split bytes, isExit (Text.Lines.dropReturn line) = false)
    (complete : (session.loop "" bytes .finished).error = none)
    (silent : (session.loop "" bytes .finished).err = "") :
    let dialogue := session.loop "" bytes .finished
    let script := session.run (.ofBytes bytes)
    script.error = none ∧ script.out = dialogue.out ∧ script.session = dialogue.session :=
  run_of_runLines _ session bytes rfl stays complete silent

/-- Lines that end in a carriage return, an empty one, a comment, and no line feed at the end. -/
theorem run_of_loop_returns :
    let bytes := "x=5;\r\n\r\n// one\r\n\x7bx=x<<2;x;\x7d//".toUTF8.toList
    (({} : Session).loop "" bytes .finished).out = "5\n20\n" ∧
      (({} : Session).run (.ofBytes bytes)).out = "5\n20\n" := by
  intro bytes
  have lines : Text.Lines.split bytes = ["x=5;\r".toUTF8.toList, "\r".toUTF8.toList,
      "// one\r".toUTF8.toList, "\x7bx=x<<2;x;\x7d//".toUTF8.toList] := by decide +kernel
  have out : (({} : Session).loop "" bytes .finished).out = "5\n20\n" := by decide +kernel
  have agrees := run_of_loop {} bytes (by rw [lines]; decide +kernel) (by decide +kernel)
    (by decide +kernel)
  exact ⟨out, agrees.2.1.trans out⟩

end Session
end Abacus
