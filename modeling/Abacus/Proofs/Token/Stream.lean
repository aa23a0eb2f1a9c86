import Abacus.Token.Stream

/-!
Token streams, item by item: a token stands before the items of the text after it, and the stream
holds the tokens that are given when they are asked for one after another.
-/
namespace Abacus

structure NextToken (text word rest : List Char) (t : Token) : Prop where
  skipped : Trivia.skip text = some (word ++ rest)
  nonempty : word ≠ []
  spelled : t.SpelledBy word
  ends : t.EndsBefore rest
  reads : Scan.Reads Scan.scanToken word rest (.ok t)

/-- A scan that succeeds finds a token, or the end of input where input ends and can be read to its
end. -/
theorem nextToken_of_scan (ending : Ending) (text rest : List Char) (t : Token)
    (scanned : scan ending text = (.ok t, rest)) :
    (t = .eof ∧ ending = .finished ∧ Trivia.skip text = some [] ∧ rest = []) ∨
      t ≠ .eof ∧ ∃ word, NextToken text word rest t := by
  unfold scan at scanned
  split at scanned
  · have := Scan.lookAt_eq_ok _ _ _ _ (congrArg Prod.fst scanned)
    simp at this
  · rename_i left skipped
    cases left with
    | nil =>
        left
        cases ending with
        | finished =>
            obtain ⟨found, rfl⟩ := Prod.mk.inj scanned
            exact ⟨(Except.ok.inj found).symm, rfl, skipped, rfl⟩
        | failed reason => simp [Scan.scanToken, Ending.lookAt] at scanned
    | cons c left =>
        right
        obtain ⟨word, split, reads, nonempty, finds⟩ :=
          (Scan.takes_scanToken c left).of_eq_ok scanned
        obtain ⟨spelled, ends⟩ := finds t rfl
        refine ⟨?_, word, split ▸ skipped, nonempty, spelled, ends, reads⟩
        rintro rfl
        exact nonempty spelled

theorem exists_nextToken (ending : Ending) (text rest : List Char) (t : Token)
    (scanned : scan ending text = (.ok t, rest)) (token : t ≠ .eof) :
    ∃ word, NextToken text word rest t := by
  rcases nextToken_of_scan ending text rest t scanned with ⟨ended, -⟩ | ⟨-, found⟩
  · exact absurd ended token
  · exact found

theorem skip_eq_nil_of_scan_eq_eof (ending : Ending) (text rest : List Char)
    (scanned : scan ending text = (.ok .eof, rest)) :
    ending = .finished ∧ Trivia.skip text = some [] ∧ rest = [] := by
  rcases nextToken_of_scan ending text rest .eof scanned with ⟨-, found⟩ | ⟨token, -⟩
  · exact found
  · exact absurd rfl token

@[simp] theorem scan_nil (ending : Ending) : scan ending [] = (ending.lookAt [] (.ok .eof), []) :=
  rfl

theorem Item.isEnd_iff (item : Item) : item.isEnd = true ↔ item = .ok .eof := by
  unfold Item.isEnd
  split <;> simp_all

@[simp] theorem scanAll_nil (ending : Ending) : scanAll ending [] = [] := by
  rw [scanAll, dif_pos rfl]

theorem scanAll_of_ne_nil (ending : Ending) (text : List Char) (nonempty : text ≠ []) :
    scanAll ending text =
      if Item.isEnd (scan ending text).1 then []
      else (scan ending text).1 :: scanAll ending (scan ending text).2 := by
  rw [scanAll, dif_neg nonempty]

theorem scanAll_of_scan_ok (ending : Ending) (text rest : List Char) (t : Token)
    (scanned : scan ending text = (.ok t, rest)) (token : t ≠ .eof) :
    scanAll ending text = .ok t :: scanAll ending rest := by
  have nonempty : text ≠ [] := by
    rintro rfl
    have := Scan.lookAt_eq_ok _ _ _ _ (congrArg Prod.fst scanned)
    exact token (Except.ok.inj this).symm
  have inner : Item.isEnd (.ok t) = false := by
    rw [← Bool.not_eq_true, Item.isEnd_iff]
    simpa using token
  rw [scanAll, dif_neg nonempty]
  simp [scanned, inner]

theorem scanAll_of_scan_eof (ending : Ending) (text rest : List Char)
    (scanned : scan ending text = (.ok .eof, rest)) : scanAll ending text = [] := by
  rw [scanAll]
  simp [scanned, Item.isEnd]

theorem scanAll_finished (text : List Char) :
    scanAll .finished text =
      if Item.isEnd (scan .finished text).1 then []
      else (scan .finished text).1 :: scanAll .finished (scan .finished text).2 := by
  cases text with
  | nil => rw [scanAll]; rfl
  | cons c text => rw [scanAll, dif_neg (List.cons_ne_nil c text)]

theorem scan_of_scanAll_eq_nil (text : List Char) (none : scanAll .finished text = []) :
    ∃ rest, scan .finished text = (.ok .eof, rest) := by
  rw [scanAll_finished] at none
  rcases scanned : scan .finished text with ⟨item, rest⟩
  simp only [scanned] at none
  split at none
  · rename_i last
    rw [(Item.isEnd_iff item).mp last]
    exact ⟨rest, rfl⟩
  · simp at none

theorem scan_of_scanAll_eq_cons (text : List Char) (item : Item) (items : List Item)
    (all : scanAll .finished text = item :: items) :
    ∃ rest, scan .finished text = (item, rest) ∧ item ≠ .ok .eof ∧
      scanAll .finished rest = items := by
  rw [scanAll_finished] at all
  rcases scanned : scan .finished text with ⟨first, rest⟩
  simp only [scanned] at all
  split at all
  · simp at all
  · rename_i inner
    obtain ⟨rfl, rfl⟩ := List.cons.inj all
    refine ⟨rest, rfl, ?_, rfl⟩
    rintro rfl
    exact inner rfl

theorem scanAll_finished_congr (text other : List Char)
    (same : scan .finished text = scan .finished other) :
    scanAll .finished text = scanAll .finished other := by
  rw [scanAll_finished text, scanAll_finished other, same]

theorem exists_scan_of_mem_scanAll (ending : Ending) (text : List Char) (item : Item)
    (member : item ∈ scanAll ending text) :
    item ≠ .ok .eof ∧ ∃ before, (scan ending before).1 = item := by
  by_cases empty : text = []
  · simp [empty] at member
  · have shorter := Scan.scan_rest_length_lt ending text empty
    rw [scanAll_of_ne_nil ending text empty] at member
    split at member
    · simp at member
    · rename_i inner
      rw [Item.isEnd_iff] at inner
      rcases List.mem_cons.mp member with rfl | member
      · exact ⟨inner, text, rfl⟩
      · exact exists_scan_of_mem_scanAll ending _ item member
termination_by text.length

namespace Source

theorem stream_of_answers (tokens : List Token) (count : Nat) (source : Source)
    (lexed : source.answers false count = tokens.map .ok ++ [.ok .eof]) :
    source.ending = .finished ∧ source.stream.items = tokens.map .ok := by
  obtain ⟨text, ending⟩ := source
  cases count with
  | zero => simp [answers] at lexed
  | succ count =>
      rcases scanned : scan ending text with ⟨item, rest⟩
      simp only [answers, next, scanned] at lexed
      split at lexed
      · obtain rfl : tokens = [] := by
          cases tokens <;> simp_all
        exact ⟨(skip_eq_nil_of_scan_eq_eof ending text rest scanned).1,
          scanAll_of_scan_eof ending text rest scanned⟩
      · rename_i t token
        cases tokens with
        | nil => simp_all
        | cons first tokens =>
            simp only [List.map_cons, List.cons_append, List.cons.injEq, Except.ok.injEq] at lexed
            obtain ⟨rfl, lexed⟩ := lexed
            obtain ⟨finished, items⟩ := stream_of_answers tokens count ⟨rest, ending⟩ lexed
            refine ⟨finished, ?_⟩
            simp only [stream] at items ⊢
            rw [scanAll_of_scan_ok ending text rest t scanned (by simpa using token), items]
            rfl
      · cases tokens <;> simp at lexed

end Source

def Ending.item (ending : Ending) : Item :=
  ending.lookAt [] (.ok .eof)

theorem Lookahead.calls_replicate_succ (count : Nat) (source : Source) :
    calls (List.replicate (count + 1) .take) { source := source } =
      some source.next.1 :: calls (List.replicate count .take) { source := source.next.2 } :=
  rfl

theorem Lookahead.calls_replicate_take (count : Nat) (source : Source) :
    calls (List.replicate count .take) { source := source } =
      ((source.stream.items ++ List.replicate count source.ending.item).take count).map some := by
  induction count generalizing source with
  | zero => rfl
  | succ count ih =>
      obtain ⟨text, ending⟩ := source
      rw [calls_replicate_succ, ih]
      simp only [Source.next, Source.stream]
      by_cases empty : text = []
      · subst empty
        simp [List.replicate_succ, Ending.item]
      · rw [scanAll_of_ne_nil ending text empty]
        split
        · rename_i last
          rw [Item.isEnd_iff] at last
          obtain ⟨rfl, -, left⟩ := skip_eq_nil_of_scan_eq_eof ending text _
            (show scan ending text = (.ok .eof, (scan ending text).2) by rw [← last])
          simp [left, last, List.replicate_succ, Ending.item, Ending.lookAt]
        · simp only [List.cons_append, List.take_succ_cons, List.take_append, List.take_replicate,
            List.map_cons]
          rw [Nat.min_eq_left (by omega), Nat.min_eq_left (by omega)]

end Abacus
