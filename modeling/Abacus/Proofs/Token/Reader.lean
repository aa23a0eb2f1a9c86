import Abacus.Token.Scan

/-!
Reading a text one character at a time, with room for one character that is put back.

Every access is noted together with what was left before it, so that what holds at every point of a
run can be said of the notes. Main statement: a reader that puts a character back only right after
it was read has a suffix of the text before it at every point.
-/
namespace Abacus

/-- What is left of a text: the character that was put back, if any, and what has not been read. -/
structure Tape where
  pending : Option Char := none
  unread : List Char

def Tape.remaining (tape : Tape) : List Char :=
  tape.pending.toList ++ tape.unread

inductive Access where
  | read (found : Option Char)
  | putback (c : Char)
  deriving DecidableEq

def Access.Moves : Access → Tape → Tape → Prop
  | .read none, before, after => before.remaining = [] ∧ after.remaining = []
  | .read (some c), before, after => before.remaining = c :: after.remaining ∧ after.pending = none
  | .putback c, before, after => after = ⟨some c, before.unread⟩

inductive Trail (text : List Char) : List (Access × Tape) → Tape → Prop
  | start : Trail text [] { unread := text }
  | step {history : List (Access × Tape)} {before after : Tape} {access : Access} :
      Trail text history before → access.Moves before after →
      Trail text ((access, before) :: history) after

structure Reader where
  tape : Tape
  ending : Ending := .finished
  history : List (Access × Tape) := []

namespace Reader

def remaining (r : Reader) : List Char :=
  r.tape.remaining

def note (r : Reader) (access : Access) (tape : Tape) : Reader :=
  { r with tape := tape, history := (access, r.tape) :: r.history }

def gave (r : Reader) (c : Char) (rest : List Char) : Reader :=
  r.note (.read (some c)) ⟨none, rest⟩

def ended (r : Reader) : Reader :=
  r.note (.read none) ⟨none, []⟩

/-- Puts a character back. One that is pending already is lost. -/
def putback (r : Reader) (c : Char) : Reader :=
  r.note (.putback c) ⟨some c, r.tape.unread⟩

section Remaining
variable (r : Reader) (c : Char) (rest : List Char)

@[simp] theorem remaining_gave : (r.gave c rest).remaining = rest :=
  rfl

@[simp] theorem remaining_putback : ((r.gave c rest).putback c).remaining = c :: rest :=
  rfl

@[simp] theorem remaining_ended : r.ended.remaining = [] :=
  rfl

theorem length_putback_le : (r.putback c).remaining.length ≤ r.remaining.length + 1 := by
  simp [putback, note, remaining, Tape.remaining]

end Remaining

/-- The reader has kept account of the characters of the source: all accesses are noted, what is
left is a suffix of the source, now and before every access, and a character was put back only while
none was pending, and only the one that the access before had read. -/
structure Accounted (source : Source) (r : Reader) : Prop where
  ending : r.ending = source.ending
  trail : Trail source.chars r.history r.tape
  suffix : r.remaining <:+ source.chars
  past : ∀ moment ∈ r.history, moment.2.remaining <:+ source.chars
  putbacks : ∀ c tape older, (.putback c, tape) :: older <:+ r.history →
    tape.pending = none ∧ ∃ before, older.head? = some (.read (some c), before)

section Accounted
variable {source : Source} {r : Reader} (accounted : r.Accounted source)
include accounted

theorem Accounted.note (access : Access) (tape : Tape) (moves : access.Moves r.tape tape)
    (suffix : tape.remaining <:+ source.chars)
    (fresh : ∀ c, access = .putback c → r.tape.pending = none ∧
      ∃ before, r.history.head? = some (.read (some c), before)) :
    (r.note access tape).Accounted source where
  ending := accounted.ending
  trail := accounted.trail.step moves
  suffix := suffix
  past moment member := by
    rcases List.mem_cons.mp member with rfl | member
    · exact accounted.suffix
    · exact accounted.past moment member
  putbacks c tape older begins := by
    rcases List.suffix_cons_iff.mp begins with same | begins
    · obtain ⟨first, rfl⟩ := List.cons.inj same
      obtain ⟨rfl, rfl⟩ := Prod.mk.inj first
      exact fresh c rfl
    · exact accounted.putbacks c tape older begins

theorem Accounted.ended (left : r.remaining = []) : r.ended.Accounted source :=
  accounted.note _ _ ⟨left, rfl⟩ List.nil_suffix (by simp)

section Cons
variable {c : Char} {rest : List Char} (left : r.remaining = c :: rest)
include left

theorem Accounted.gave : (r.gave c rest).Accounted source := by
  refine accounted.note _ _ ⟨left, rfl⟩ ?_ (by simp)
  exact (List.suffix_cons c rest).trans (left ▸ accounted.suffix)

theorem Accounted.putback : ((r.gave c rest).putback c).Accounted source := by
  have suffix := accounted.suffix
  rw [left] at suffix
  refine (accounted.gave left).note _ _ rfl suffix ?_
  rintro d ⟨⟩
  exact ⟨rfl, r.tape, rfl⟩

end Cons
end Accounted
end Reader

def Reading (α : Type) : Type :=
  Reader → Except LexError α × Reader

namespace Reading

instance : Monad Reading where
  pure value := fun r => (.ok value, r)
  bind first next := fun r =>
    match first r with
    | (.ok value, r) => next value r
    | (.error e, r) => (.error e, r)

theorem bind_apply {α β : Type} (first : Reading α) (next : α → Reading β) (r : Reader) :
    (first >>= next) r =
      match first r with
      | (.ok value, r) => next value r
      | (.error e, r) => (.error e, r) :=
  rfl

def fail {α : Type} (e : LexError) : Reading α :=
  fun r => (.error e, r)

def read : Reading (Option Char) := fun r =>
  match r.tape with
  | ⟨some c, unread⟩ => (.ok (some c), r.gave c unread)
  | ⟨none, c :: unread⟩ => (.ok (some c), r.gave c unread)
  | ⟨none, []⟩ => (r.ending.lookAt [] (.ok none), r.ended)

def putback (c : Char) : Reading Unit :=
  fun r => (.ok (), r.putback c)

theorem bind_putback {β : Type} (c : Char) (next : Unit → Reading β) (r : Reader) :
    (putback c >>= next) r = next () (r.putback c) :=
  rfl

section Read
variable {r : Reader}

theorem read_of_cons {c : Char} {rest : List Char} (left : r.remaining = c :: rest) :
    read r = (.ok (some c), r.gave c rest) := by
  obtain ⟨⟨pending, unread⟩, ending, history⟩ := r
  cases pending with
  | some first =>
      obtain ⟨rfl, rfl⟩ := List.cons.inj left
      rfl
  | none =>
      obtain rfl : unread = c :: rest := left
      rfl

theorem read_of_nil (left : r.remaining = []) :
    read r = (r.ending.lookAt [] (.ok none), r.ended) := by
  obtain ⟨⟨pending, unread⟩, ending, history⟩ := r
  cases pending with
  | some first => simp [Reader.remaining, Tape.remaining] at left
  | none =>
      obtain rfl : unread = [] := left
      rfl

theorem remaining_of_read {r' : Reader} {c : Char} (found : read r = (.ok (some c), r')) :
    r.remaining = c :: r'.remaining := by
  rcases left : r.remaining with - | ⟨d, rest⟩
  · rw [read_of_nil left] at found
    cases ending : r.ending <;> simp [ending, Ending.lookAt] at found
  · rw [read_of_cons left] at found
    obtain ⟨same, rfl⟩ := Prod.mk.inj found
    obtain rfl : d = c := by simpa using same
    rfl

theorem length_lt_of_read {r' : Reader} {c : Char} (found : read r = (.ok (some c), r')) :
    r'.remaining.length < r.remaining.length := by
  simp [remaining_of_read found]

theorem length_le_of_read {r' : Reader} {outcome : Except LexError (Option Char)}
    (ran : read r = (outcome, r')) : r'.remaining.length ≤ r.remaining.length := by
  rcases left : r.remaining with - | ⟨c, rest⟩
  · rw [read_of_nil left] at ran
    obtain ⟨-, rfl⟩ := Prod.mk.inj ran
    simp
  · rw [read_of_cons left] at ran
    obtain ⟨-, rfl⟩ := Prod.mk.inj ran
    simp

end Read

/-- The scanner has the outcome of a scan and leaves the text that the scan leaves, with all
characters accounted for. -/
def Refines {α : Type} (source : Source) (ran : Except LexError α × Reader)
    (result : Scan.Result α) : Prop :=
  ∃ r : Reader, ran = (result.1, r) ∧ r.remaining = result.2 ∧ r.Accounted source

section Bind
variable {α β : Type} {source : Source} {r : Reader}

theorem refines_pure (value : α) (accounted : r.Accounted source) :
    Refines source ((pure value : Reading α) r) (.ok value, r.remaining) :=
  ⟨r, rfl, rfl, accounted⟩

theorem refines_fail (e : LexError) (accounted : r.Accounted source) :
    Refines source ((fail e : Reading α) r) (.error e, r.remaining) :=
  ⟨r, rfl, rfl, accounted⟩

theorem Refines.bind {first : Reading α} {next : α → Reading β} {result : Scan.Result α}
    {scanner : α → List Char → Scan.Result β} (ran : Refines source (first r) result)
    (more : ∀ (value : α) (r : Reader), r.Accounted source →
      Refines source (next value r) (scanner value r.remaining)) :
    Refines source ((first >>= next) r) (Scan.andThen result scanner) := by
  obtain ⟨outcome, rest⟩ := result
  obtain ⟨r', same, rfl, accounted⟩ := ran
  rw [bind_apply, same]
  cases outcome with
  | error e => exact ⟨r', rfl, rfl, accounted⟩
  | ok value => exact more value r' accounted

variable {next : Option Char → Reading β} {result : Scan.Result β}

theorem refines_read_cons {c : Char} {rest : List Char}
    (left : r.remaining = c :: rest)
    (more : Refines source (next (some c) (r.gave c rest)) result) :
    Refines source ((read >>= next) r) result := by
  rw [bind_apply, read_of_cons left]
  exact more

theorem refines_read_nil {outcome : Except LexError β}
    (accounted : r.Accounted source) (left : r.remaining = [])
    (more : source.ending = .finished → r.ended.Accounted source →
      Refines source (next none r.ended) (outcome, [])) :
    Refines source ((read >>= next) r) (source.ending.lookAt [] outcome, []) := by
  rw [bind_apply, read_of_nil left, accounted.ending]
  cases ending : source.ending with
  | finished => exact more ending (accounted.ended left)
  | failed reason => exact ⟨r.ended, rfl, rfl, accounted.ended left⟩

end Bind
end Reading
end Abacus
