import Abacus.Token.Progress

/-!
Token streams: what a source gives when its tokens are asked for one after another, as a list and
behind one token of lookahead.
-/
namespace Abacus

abbrev Item := Except LexError Token

def Item.isEnd : Item → Bool
  | .ok .eof => true
  | _ => false

namespace Source

def next (source : Source) : Item × Source :=
  let result := scan source.ending source.chars
  (result.1, { source with chars := result.2 })

/-- The answers to at most `count` requests. The end of input is the last one; so is an error,
unless reading is to resume after it. -/
def answers (resume : Bool) : Nat → Source → List Item
  | 0, _ => []
  | count + 1, source =>
      let (item, rest) := source.next
      match item with
      | .ok .eof => [item]
      | .ok _ => item :: answers resume count rest
      | .error _ => if resume then item :: answers resume count rest else [item]

end Source

def scanAll (ending : Ending) (text : List Char) : List Item :=
  if _nonempty : text = [] then []
  else
    let result := scan ending text
    if Item.isEnd result.1 then [] else result.1 :: scanAll ending result.2
termination_by text.length
decreasing_by exact Scan.scan_rest_length_lt ending text _nonempty

/-- All items of a source. Behind the last of them the ending answers every request: with the end
of input, or with the read failure. -/
structure TokenStream where
  items : List Item
  ending : Ending

def Source.stream (source : Source) : TokenStream :=
  ⟨scanAll source.ending source.chars, source.ending⟩

structure Lookahead where
  slot : Option Token := none
  source : Source

namespace Lookahead

def peek (l : Lookahead) : Item × Lookahead :=
  match l.slot with
  | some token => (.ok token, l)
  | none =>
      match l.source.next with
      | (.ok token, rest) => (.ok token, ⟨some token, rest⟩)
      | (.error e, rest) => (.error e, ⟨none, rest⟩)

def take (l : Lookahead) : Item × Lookahead :=
  match l.slot with
  | some token => (.ok token, ⟨none, l.source⟩)
  | none =>
      let (item, rest) := l.source.next
      (item, ⟨none, rest⟩)

def consume (l : Lookahead) : Lookahead :=
  ⟨none, l.source⟩

inductive Call where
  | peek
  | take
  | consume
  deriving DecidableEq, Repr

def call (l : Lookahead) : Call → Option Item × Lookahead
  | .peek => l.peek.map some id
  | .take => l.take.map some id
  | .consume => (none, l.consume)

def calls : List Call → Lookahead → List (Option Item)
  | [], _ => []
  | c :: rest, l =>
      let (answer, next) := l.call c
      answer :: calls rest next

end Lookahead
end Abacus
