import Abacus.Proofs.Token.Stream

/-!
One token of lookahead. Main statement: however looking, taking and dropping follow one another, the
tokens that go by and the errors that are met are those that taking alone meets, in the same order.
-/
namespace Abacus.Lookahead

def leave (cs : List Call) (l : Lookahead) : Lookahead :=
  cs.foldl (fun l c => (l.call c).2) l

theorem calls_append (first second : List Call) (l : Lookahead) :
    calls (first ++ second) l = calls first l ++ calls second (l.leave first) := by
  induction first generalizing l with
  | nil => rfl
  | cons c first ih =>
      simp only [List.cons_append, calls, ih]
      rfl

/-- What a caller knows from the answers alone. -/
structure Log where
  /-- The tokens that were taken or dropped, and the errors, in the order in which they were met. -/
  passed : List Item := []
  /-- The token that was looked at and since then neither taken nor dropped. -/
  held : Option Token := none

def Log.note (log : Log) : Call × Option Item → Log
  | (.take, some item) => ⟨log.passed ++ [item], none⟩
  | (.peek, some (.ok t)) => ⟨log.passed, some t⟩
  | (.peek, some (.error e)) => ⟨log.passed ++ [.error e], none⟩
  | (.consume, _) => ⟨log.passed ++ log.held.toList.map .ok, none⟩
  | (_, none) => log

def log (cs : List Call) (l : Lookahead) : Log :=
  (cs.zip (calls cs l)).foldl Log.note {}

/-- The reader stands before `source`, or behind the first token of it that it has looked at. -/
inductive Ahead (source : Source) : Option Token → Lookahead → Prop where
  | even : Ahead source none ⟨none, source⟩
  | looked (t : Token) (rest : Source) (found : source.next = (.ok t, rest)) :
      Ahead source (some t) ⟨some t, rest⟩

/-- A call lets nothing go by, or exactly what taking a token gives. -/
theorem ahead_call (source : Source) (log : Log) (l : Lookahead) (ahead : Ahead source log.held l)
    (c : Call) :
    ((log.note (c, (l.call c).1)).passed = log.passed ∧
        Ahead source (log.note (c, (l.call c).1)).held (l.call c).2) ∨
      ((log.note (c, (l.call c).1)).passed = log.passed ++ [source.next.1] ∧
        Ahead source.next.2 (log.note (c, (l.call c).1)).held (l.call c).2) := by
  generalize held : log.held = token at ahead
  cases ahead with
  | even =>
      cases c with
      | peek =>
          rcases next : source.next with ⟨item, rest⟩
          cases item with
          | ok t =>
              left
              simp only [call, peek, next, Prod.map, Log.note, id, true_and]
              exact .looked t rest next
          | error e =>
              right
              simp only [call, peek, next, Prod.map, Log.note, id, true_and]
              exact .even
      | take => exact .inr ⟨rfl, .even⟩
      | consume => exact .inl ⟨by simp [Log.note, held], .even⟩
  | looked t rest found =>
      cases c with
      | peek => exact .inl ⟨rfl, .looked t rest found⟩
      | take =>
          right
          rw [found]
          exact ⟨rfl, .even⟩
      | consume =>
          right
          rw [found]
          exact ⟨by simp [Log.note, held], .even⟩

theorem ahead_calls (cs : List Call) (source : Source) (log : Log) (l : Lookahead)
    (ahead : Ahead source log.held l) :
    ∃ (items : List Item) (left : Source),
      ((cs.zip (calls cs l)).foldl Log.note log).passed = log.passed ++ items ∧
        calls (List.replicate items.length .take) { source := source } = items.map some ∧
        Ahead left ((cs.zip (calls cs l)).foldl Log.note log).held (l.leave cs) := by
  induction cs generalizing source log l with
  | nil => exact ⟨[], source, by simp, rfl, ahead⟩
  | cons c cs ih =>
      simp only [calls, List.zip_cons_cons, List.foldl_cons]
      rcases ahead_call source log l ahead c with ⟨same, next⟩ | ⟨more, next⟩
      · obtain ⟨items, left, passed, taken, behind⟩ := ih source _ _ next
        exact ⟨items, left, by rw [passed, same], taken, behind⟩
      · obtain ⟨items, left, passed, taken, behind⟩ := ih source.next.2 _ _ next
        refine ⟨source.next.1 :: items, left, by rw [passed, more]; simp, ?_, behind⟩
        rw [List.length_cons, calls_replicate_succ, taken]
        rfl

section Peeked
variable (l rest : Lookahead) (t : Token) (peeked : l.peek = (.ok t, rest))
include peeked

theorem take_of_peek : l.take = (.ok t, rest.consume) ∧ rest.slot = some t := by
  obtain ⟨slot, source⟩ := l
  cases slot with
  | some first =>
      simp only [peek, Prod.mk.injEq, Except.ok.injEq] at peeked
      obtain ⟨rfl, rfl⟩ := peeked
      exact ⟨rfl, rfl⟩
  | none =>
      rcases next : source.next with ⟨item, left⟩
      cases item with
      | error e => simp [peek, next] at peeked
      | ok first =>
          simp only [peek, next, Prod.mk.injEq, Except.ok.injEq] at peeked
          obtain ⟨rfl, rfl⟩ := peeked
          simp [take, next, consume]

theorem peek_of_peek : rest.peek = (.ok t, rest) := by
  simp [peek, (take_of_peek l rest t peeked).2]

theorem calls_replicate_peek (count : Nat) (more : List Call) :
    calls (List.replicate (count + 1) .peek ++ more) l =
      List.replicate (count + 1) (some (.ok t)) ++ calls more rest := by
  induction count generalizing l with
  | zero => simp [calls, call, peeked]
  | succ count ih =>
      rw [List.replicate_succ, List.cons_append, calls]
      simp only [call, peeked, Prod.map, id, ih rest (peek_of_peek l rest t peeked)]
      rfl

theorem calls_of_peek (count : Nat) (more : List Call) :
    calls (List.replicate count .peek ++ .take :: more) l =
        List.replicate (count + 1) (some (.ok t)) ++ calls more rest.consume ∧
      calls (List.replicate (count + 1) .peek ++ .consume :: more) l =
        List.replicate (count + 1) (some (.ok t)) ++ none :: calls more rest.consume := by
  have again := take_of_peek rest rest t (peek_of_peek l rest t peeked)
  refine ⟨?_, calls_replicate_peek l rest t peeked count _⟩
  cases count with
  | zero => simp [calls, call, (take_of_peek l rest t peeked).1]
  | succ count =>
      rw [calls_replicate_peek l rest t peeked, calls,
        List.replicate_succ' (n := count + 1), List.append_assoc]
      simp only [call, again.1]
      rfl

end Peeked

theorem consume_of_slot (l : Lookahead) (empty : l.slot = none) : l.consume = l := by
  obtain ⟨slot, source⟩ := l
  exact congrArg (Lookahead.mk · source) empty.symm

/-- In every sequence of calls, the tokens that are taken or dropped and the errors are the first
that taking alone gives. A token that is looked at is the one that is taken or dropped next, and
dropping it leads to the same later answers as taking it. Where no token has been looked at,
dropping changes no later answer. -/
theorem calls_lossless (source : Source) (cs : List Call) :
    let fresh : Lookahead := { source := source }
    calls (List.replicate (log cs fresh).passed.length .take) fresh =
        (log cs fresh).passed.map some ∧
      (∀ t : Token, calls (cs ++ [.peek]) fresh = calls cs fresh ++ [some (.ok t)] →
        ∀ more : List Call, ∃ later : List (Option Item), ∀ count : Nat,
          calls (cs ++ (List.replicate count .peek ++ .take :: more)) fresh =
              calls cs fresh ++ (List.replicate (count + 1) (some (.ok t)) ++ later) ∧
            calls (cs ++ (List.replicate (count + 1) .peek ++ .consume :: more)) fresh =
              calls cs fresh ++ (List.replicate (count + 1) (some (.ok t)) ++ none :: later)) ∧
      ((log cs fresh).held = none → ∀ more : List Call, ∃ later : List (Option Item),
        calls (cs ++ more) fresh = calls cs fresh ++ later ∧
          calls (cs ++ .consume :: more) fresh = calls cs fresh ++ none :: later) := by
  intro fresh
  obtain ⟨items, left, passed, taken, ahead⟩ := ahead_calls cs source {} fresh .even
  obtain rfl : (log cs fresh).passed = items := passed
  refine ⟨taken, ?_, ?_⟩
  · intro t looked more
    rcases peeked : (fresh.leave cs).peek with ⟨item, rest⟩
    obtain rfl : item = .ok t := by simpa [calls_append, calls, call, peeked] using looked
    refine ⟨calls more rest.consume, fun count => ?_⟩
    have behind := calls_of_peek _ rest t peeked count more
    rw [calls_append, calls_append cs, behind.1, behind.2]
    exact ⟨rfl, rfl⟩
  · intro nothing more
    have empty : (fresh.leave cs).slot = none := by
      change Ahead left (log cs fresh).held _ at ahead
      rw [nothing] at ahead
      generalize fresh.leave cs = l at ahead
      cases ahead
      rfl
    refine ⟨calls more (fresh.leave cs), calls_append cs more fresh, ?_⟩
    rw [calls_append, calls, call, consume_of_slot _ empty]

/-- A token that is dropped, an error and a token that is looked at twice, before a read failure. -/
theorem calls_lossless_error :
    let fresh : Lookahead := { source := ⟨['a', '#', 'b', ' '], .failed "gone"⟩ }
    let cs : List Call := [.peek, .consume, .take]
    calls (List.replicate 2 .take) fresh =
        [some (.ok (.name "a")), some (.error (.unexpectedChar '#'))] ∧
      (∃ later, calls (cs ++ [.peek, .take, .take]) fresh =
          calls cs fresh ++ [some (.ok (.name "b")), some (.ok (.name "b"))] ++ later ∧
        calls (cs ++ [.peek, .peek, .consume, .take]) fresh =
          calls cs fresh ++ [some (.ok (.name "b")), some (.ok (.name "b")), none] ++ later) ∧
      ∃ later, calls (cs ++ [.take]) fresh = calls cs fresh ++ later ∧
        calls (cs ++ [.consume, .take]) fresh = calls cs fresh ++ none :: later := by
  intro fresh cs
  obtain ⟨taken, looked, dropped⟩ := calls_lossless fresh.source cs
  have passed : log cs fresh = ⟨[.ok (.name "a"), .error (.unexpectedChar '#')], none⟩ := by rfl
  have peeked : calls (cs ++ [.peek]) fresh = calls cs fresh ++ [some (.ok (.name "b"))] := by rfl
  obtain ⟨later, same⟩ := looked (.name "b") peeked [.take]
  refine ⟨?_, ⟨later, (same 1).1, (same 1).2⟩, dropped (congrArg Log.held passed) [.take]⟩
  rw [show log cs { source := fresh.source } = _ from passed] at taken
  exact taken

end Abacus.Lookahead
