import Abacus.Proofs.Token.ReadNumber
import Abacus.Proofs.Token.StringLiteral

/-!
Tokens from a reader: strings, characters, names and symbols, the trivia before them, and all of it
together. Main statement: what is read one character at a time, with one character put back at a
time, is what `scan` gives of the text that is left.
-/
namespace Abacus
open Text

namespace Reading
variable {source : Source} {r : Reader}

section Strings

/-- The content of a string from behind `front` on, and its closing quote. A backslash that starts
no escape stands for itself, and the character behind it is put back. -/
def scanContent (front : List Char) : Reading (List Char) := fun r =>
  match _found : read r with
  | (.error e, r) => (.error e, r)
  | (.ok none, r) => (.error .unterminatedString, r)
  | (.ok (some c), r) =>
      if c = '"' then (.ok front, r)
      else if c = '\\' then
        match _next : read r with
        | (.error e, r) => (.error e, r)
        | (.ok none, r) => scanContent (front ++ ['\\']) r
        | (.ok (some e), r) =>
            match Scan.unescape? e with
            | some d => scanContent (front ++ [d]) r
            | none => scanContent (front ++ ['\\']) (r.putback e)
      else scanContent (front ++ [c]) r
termination_by r => r.remaining.length
decreasing_by
  all_goals have first := length_lt_of_read _found
  · exact Nat.lt_of_le_of_lt (length_le_of_read _next) first
  · exact Nat.lt_trans (length_lt_of_read _next) first
  · refine Nat.lt_of_le_of_lt (Reader.length_putback_le _ _) ?_
    exact Nat.lt_of_le_of_lt (length_lt_of_read _next) first
  · exact first

theorem scanContent_eq (front : List Char) :
    scanContent front = (do
      match ← read with
      | none => fail .unterminatedString
      | some c =>
          if c = '"' then pure front
          else if c = '\\' then do
            match ← read with
            | none => scanContent (front ++ ['\\'])
            | some e =>
                match Scan.unescape? e with
                | some d => scanContent (front ++ [d])
                | none => do
                    putback e
                    scanContent (front ++ ['\\'])
          else scanContent (front ++ [c])) := by
  funext r
  rw [scanContent, bind_apply]
  split <;> simp only [*]
  · rfl
  · split
    · rfl
    · split
      · rw [bind_apply]
        split <;> simp only [*]
        split <;> simp only [*]
        rfl
      · rfl

def contentFrom (ending : Ending) (front text : List Char) : Scan.Result (List Char) :=
  match Scan.stringContent? text with
  | none => (ending.lookAt [] (.error .unterminatedString), [])
  | some (content, rest) => (.ok (front ++ content), rest)

theorem contentFrom_cons (ending : Ending) (front text : List Char) (c : Char) :
    contentFrom ending (front ++ [c]) text =
      match (Scan.stringContent? text).map fun read => (c :: read.1, read.2) with
      | none => (ending.lookAt [] (.error .unterminatedString), [])
      | some (content, rest) => (.ok (front ++ content), rest) := by
  rw [contentFrom]
  cases Scan.stringContent? text <;> simp

theorem refines_scanContent (front : List Char) (accounted : r.Accounted source) :
    Refines source (scanContent front r) (contentFrom source.ending front r.remaining) := by
  generalize left : r.remaining = text
  fun_induction Scan.stringContent? text generalizing r front with
  | case1 =>
      rw [scanContent_eq]
      exact refines_read_nil accounted left fun _ ended => refines_fail _ ended
  | case2 text =>
      rw [scanContent_eq]
      refine refines_read_cons left ?_
      simpa [contentFrom, Scan.stringContent?] using refines_pure front (accounted.gave left)
  | case3 c text d escape ih =>
      rw [scanContent_eq]
      refine refines_read_cons left ?_
      have next := accounted.gave left
      have inner := ih (front ++ [d]) (next.gave rfl) rfl
      rw [contentFrom_cons, ← Scan.stringContent?_escape text c d escape] at inner
      simp only [Char.reduceEq, ↓reduceIte]
      refine refines_read_cons rfl ?_
      simp only [escape]
      exact inner
  | case4 c text no_escape ih =>
      rw [scanContent_eq]
      refine refines_read_cons left ?_
      have next := accounted.gave left
      have inner := ih (front ++ ['\\']) (next.putback rfl) rfl
      rw [contentFrom_cons, ← Scan.stringContent?_backslash text c no_escape] at inner
      simp only [Char.reduceEq, ↓reduceIte]
      refine refines_read_cons rfl ?_
      simp only [no_escape, bind_putback]
      exact inner
  | case5 c text no_quote no_backslash ih =>
      rw [scanContent_eq]
      refine refines_read_cons left ?_
      have next := accounted.gave left
      by_cases backslash : c = '\\'
      · -- a backslash at the end of the text
        obtain rfl : text = [] := by
          cases text with
          | nil => rfl
          | cons d text => exact absurd rfl (no_backslash d text backslash)
        subst backslash
        simp only [Char.reduceEq, ↓reduceIte]
        refine refines_read_nil next rfl fun finished ended => ?_
        have inner := ih (front ++ ['\\']) ended rfl
        rw [finished] at inner
        exact inner
      · have inner := ih (front ++ [c]) next rfl
        rw [contentFrom_cons, ← Scan.stringContent?_plain text c no_quote backslash] at inner
        simp only [show c ≠ '"' from no_quote, backslash, ↓reduceIte]
        exact inner

def scanString : Reading Token := do
  let content ← scanContent []
  pure (.string (String.ofList content))

theorem refines_scanString (accounted : r.Accounted source) :
    Refines source (scanString r) (Scan.scanString source.ending r.remaining) := by
  have same (text : List Char) : Scan.scanString source.ending text =
      Scan.andThen (contentFrom source.ending [] text) fun content rest =>
        (.ok (.string (String.ofList content)), rest) := by
    rw [Scan.scanString, contentFrom]
    rcases Scan.stringContent? text with - | ⟨content, rest⟩
    · exact (Scan.andThen_lookAt source.ending [] (.error .unterminatedString) _).symm
    · rfl
  rw [same]
  exact (refines_scanContent [] accounted).bind fun content r' => refines_pure _

def scanChar : Reading Token := do
  match ← read with
  | none => fail .unterminatedChar
  | some c =>
      match ← read with
      | none => fail .unterminatedChar
      | some quote => if quote = '\'' then pure (.char c) else fail .charTooLong

theorem refines_scanChar (accounted : r.Accounted source) :
    Refines source (scanChar r) (Scan.scanChar source.ending r.remaining) := by
  rcases left : r.remaining with - | ⟨c, text⟩
  · exact refines_read_nil accounted left fun _ ended => refines_fail _ ended
  · refine refines_read_cons left ?_
    have next := accounted.gave left
    rcases text with - | ⟨quote, text⟩
    · exact refines_read_nil next rfl fun _ ended => refines_fail _ ended
    · refine refines_read_cons rfl ?_
      simp only [Scan.scanChar]
      split
      · exact refines_pure _ (next.gave rfl)
      · exact refines_fail _ (next.gave rfl)

end Strings

section Words

def scanName (first : Char) : Reading Token := do
  let word ← readWhile Scan.isNameChar [first]
  pure (.ofIdentifier (String.ofList word))

theorem refines_scanName (first : Char) (start : Scan.isNameStart first = true)
    (accounted : r.Accounted source) :
    Refines source (scanName first r) (Scan.scanName source.ending (first :: r.remaining)) := by
  have same (text : List Char) : Scan.scanName source.ending (first :: text) =
      Scan.andThen (spanFrom source.ending Scan.isNameChar [first] text) fun word rest =>
        (.ok (.ofIdentifier (String.ofList word)), rest) := by
    have inner : Scan.isNameChar first = true := by simp [Scan.isNameChar, start]
    simp [Scan.scanName, Scan.scanWhile, spanFrom, inner]
  rw [same]
  exact (refines_readWhile _ _ accounted).bind fun word r' => refines_pure _

def scanSymbol (s : Symbol) : Reading Token :=
  if s.looksAhead then do
    match ← read with
    | none => pure (.symbol s)
    | some c =>
        match s.extend? c with
        | some longer => pure (.symbol longer)
        | none => do
            putback c
            if s = .dot ∧ isDigit c then scanFraction 0 ['.'] else pure (.symbol s)
  else pure (.symbol s)

theorem refines_scanSymbol (s : Symbol) (accounted : r.Accounted source) :
    Refines source (scanSymbol s r) (Scan.scanSymbol source.ending s r.remaining) := by
  cases ahead : s.looksAhead with
  | false =>
      rw [Scan.scanSymbol_of_not_looksAhead _ _ _ ahead]
      simp only [scanSymbol, ahead]
      exact refines_pure _ accounted
  | true =>
      rw [scanSymbol, if_pos ahead]
      rcases left : r.remaining with - | ⟨c, text⟩
      · rw [Scan.scanSymbol, if_pos ahead]
        exact refines_read_nil accounted left fun _ ended => refines_pure _ ended
      · refine refines_read_cons left ?_
        cases extended : s.extend? c with
        | some longer =>
            simp only [Scan.scanSymbol, extended]
            exact refines_pure _ (accounted.gave left)
        | none =>
            simp only [Scan.scanSymbol, extended, bind_putback]
            split
            · exact refines_scanFraction 0 ['.'] (accounted.putback left)
            · exact refines_pure _ (accounted.putback left)

def scanFrom (c : Char) : Reading Token :=
  match Symbol.ofChar? c with
  | some s => scanSymbol s
  | none =>
      if c = '\'' then scanChar
      else if c = '"' then scanString
      else if isDigit c then scanNumber c
      else if Scan.isNameStart c then scanName c
      else fail (.unexpectedChar c)

theorem refines_scanFrom (c : Char) (accounted : r.Accounted source) :
    Refines source (scanFrom c r) (Scan.scanFrom source.ending c r.remaining) := by
  rw [scanFrom, Scan.scanFrom]
  cases Symbol.ofChar? c with
  | some s => exact refines_scanSymbol s accounted
  | none =>
      by_cases char : c = '\''
      · simpa only [char, ↓reduceIte] using refines_scanChar accounted
      by_cases string : c = '"'
      · simpa only [string, Char.reduceEq, ↓reduceIte] using refines_scanString accounted
      simp only [char, string, ↓reduceIte]
      cases digit : isDigit c with
      | true => exact refines_scanNumber c digit accounted
      | false =>
          cases start : Scan.isNameStart c with
          | true => exact refines_scanName c start accounted
          | false => exact refines_fail _ accounted

end Words

section Comments

def skipLine : Reading Unit := fun r =>
  match _found : read r with
  | (.error e, r) => (.error e, r)
  | (.ok none, r) => (.ok (), r)
  | (.ok (some c), r) => if c = '\n' then (.ok (), r) else skipLine r
termination_by r => r.remaining.length
decreasing_by exact length_lt_of_read _found

theorem skipLine_eq :
    skipLine = (do
      match ← read with
      | none => pure ()
      | some c => if c = '\n' then pure () else skipLine) := by
  funext r
  rw [skipLine, bind_apply]
  split <;> simp only [*]
  · rfl
  · split <;> rfl

/-- The rest of a block comment, where `star` says whether a star stands right before it. -/
def skipBlock (star : Bool) : Reading Unit := fun r =>
  match _found : read r with
  | (.error e, r) => (.error e, r)
  | (.ok none, r) => (.error .unterminatedComment, r)
  | (.ok (some c), r) =>
      if star ∧ c = '/' then (.ok (), r) else skipBlock (c == '*') r
termination_by r => r.remaining.length
decreasing_by exact length_lt_of_read _found

theorem skipBlock_eq (star : Bool) :
    skipBlock star = (do
      match ← read with
      | none => fail .unterminatedComment
      | some c => if star ∧ c = '/' then pure () else skipBlock (c == '*')) := by
  funext r
  rw [skipBlock, bind_apply]
  split <;> simp only [*]
  · rfl
  · split <;> rfl

def skipComment : Reading Bool := do
  match ← read with
  | none => pure false
  | some c =>
      if c = '/' then do
        skipLine
        pure true
      else if c = '*' then do
        skipBlock false
        pure true
      else do
        putback c
        pure false

def lineFrom (ending : Ending) : List Char → Scan.Result Unit
  | [] => (ending.lookAt [] (.ok ()), [])
  | c :: text => if c = '\n' then (.ok (), text) else lineFrom ending text

def blockFrom (ending : Ending) : Bool → List Char → Scan.Result Unit
  | _, [] => (ending.lookAt [] (.error .unterminatedComment), [])
  | star, c :: text =>
      if star ∧ c = '/' then (.ok (), text) else blockFrom ending (c == '*') text

def commentFrom (ending : Ending) : List Char → Scan.Result Bool
  | [] => (ending.lookAt [] (.ok false), [])
  | c :: text =>
      if c = '/' then Scan.andThen (lineFrom ending text) fun _ rest => (.ok true, rest)
      else if c = '*' then Scan.andThen (blockFrom ending false text) fun _ rest => (.ok true, rest)
      else (.ok false, c :: text)

theorem refines_skipLine (accounted : r.Accounted source) :
    Refines source (skipLine r) (lineFrom source.ending r.remaining) := by
  generalize left : r.remaining = text
  induction text generalizing r with
  | nil =>
      rw [skipLine_eq]
      exact refines_read_nil accounted left fun _ ended => refines_pure () ended
  | cons c text ih =>
      rw [skipLine_eq]
      refine refines_read_cons left ?_
      simp only [lineFrom]
      split
      · exact refines_pure () (accounted.gave left)
      · exact ih (accounted.gave left) rfl

theorem refines_skipBlock (star : Bool) (accounted : r.Accounted source) :
    Refines source (skipBlock star r) (blockFrom source.ending star r.remaining) := by
  generalize left : r.remaining = text
  induction text generalizing r star with
  | nil =>
      rw [skipBlock_eq]
      exact refines_read_nil accounted left fun _ ended => refines_fail _ ended
  | cons c text ih =>
      rw [skipBlock_eq]
      refine refines_read_cons left ?_
      simp only [blockFrom]
      split
      · exact refines_pure () (accounted.gave left)
      · exact ih _ (accounted.gave left) rfl

theorem refines_skipComment (accounted : r.Accounted source) :
    Refines source (skipComment r) (commentFrom source.ending r.remaining) := by
  rcases left : r.remaining with - | ⟨c, text⟩
  · exact refines_read_nil accounted left fun _ ended => refines_pure _ ended
  · refine refines_read_cons left ?_
    have next := accounted.gave left
    simp only [commentFrom]
    split
    · exact (refines_skipLine next).bind fun _ _ => refines_pure true
    · split
      · exact (refines_skipBlock false next).bind fun _ _ => refines_pure true
      · simp only [bind_putback]
        exact refines_pure false (accounted.putback left)

section Length
variable (r)

theorem length_skipLine_le : (skipLine r).2.remaining.length ≤ r.remaining.length := by
  fun_induction skipLine r with
  | case1 r e r' found => exact length_le_of_read found
  | case2 r r' found => exact length_le_of_read found
  | case3 r r' found => exact length_le_of_read found
  | case4 r c r' found inner ih => exact ih.trans (length_le_of_read found)

theorem length_skipBlock_le (star : Bool) :
    (skipBlock star r).2.remaining.length ≤ r.remaining.length := by
  fun_induction skipBlock star r with
  | case1 star r e r' found => exact length_le_of_read found
  | case2 star r r' found => exact length_le_of_read found
  | case3 star r c r' found => exact length_le_of_read found
  | case4 star r c r' found inner ih => exact ih.trans (length_le_of_read found)

theorem snd_bind_pure {α β : Type} (first : Reading α) (value : β) :
    ((first >>= fun _ => pure value) r).2 = (first r).2 := by
  rw [bind_apply]
  rcases first r with ⟨e | _, r'⟩ <;> rfl

theorem length_skipComment_le : (skipComment r).2.remaining.length ≤ r.remaining.length := by
  rcases ran : read r with ⟨found, r'⟩
  have shorter := length_le_of_read ran
  rw [skipComment, bind_apply, ran]
  rcases found with e | _ | c
  · exact shorter
  · exact shorter
  · dsimp only
    split
    · rw [snd_bind_pure]
      exact (length_skipLine_le r').trans shorter
    · split
      · rw [snd_bind_pure]
        exact (length_skipBlock_le r' false).trans shorter
      · rw [bind_putback]
        exact (Reader.length_putback_le r' c).trans (length_lt_of_read ran)

end Length
end Comments

section Tokens

def scanToken : Reading Token := fun r =>
  match _found : read r with
  | (.error e, r) => (.error e, r)
  | (.ok none, r) => (.ok .eof, r)
  | (.ok (some c), r) =>
      if isBlank c then scanToken r
      else if c = '/' then
        match _comment : skipComment r with
        | (.error e, r) => (.error e, r)
        | (.ok true, r) => scanToken r
        | (.ok false, r) => (.ok (.symbol .slash), r)
      else scanFrom c r
termination_by r => r.remaining.length
decreasing_by
  · exact length_lt_of_read _found
  · refine Nat.lt_of_le_of_lt ?_ (length_lt_of_read _found)
    exact congrArg (·.2.remaining.length) _comment ▸ length_skipComment_le _

theorem scanToken_eq :
    scanToken = (do
      match ← read with
      | none => pure .eof
      | some c =>
          if isBlank c then scanToken
          else if c = '/' then do
            if ← skipComment then scanToken else pure (.symbol .slash)
          else scanFrom c) := by
  funext r
  rw [scanToken, bind_apply]
  split <;> simp only [*]
  · rfl
  · split
    · rfl
    · split
      · rw [bind_apply]
        split <;> simp only [*] <;> rfl
      · rfl

def scanBehind (ending : Ending) : Option (List Char) → Scan.Result Token
  | none => (ending.lookAt [] (.error .unterminatedComment), [])
  | some rest => Scan.scanToken ending rest

theorem scan_eq_scanBehind (ending : Ending) (text : List Char) :
    scan ending text = scanBehind ending (Trivia.skipFrom .blanks text) := by
  rw [scan, Trivia.skip]
  cases Trivia.skipFrom .blanks text <;> rfl

theorem andThen_lineFrom (ending : Ending) (text : List Char) :
    Scan.andThen (lineFrom ending text) (fun _ rest => scan ending rest) =
      scanBehind ending (Trivia.skipFrom .line text) := by
  induction text with
  | nil => cases ending <;> rfl
  | cons c text ih =>
      rw [lineFrom, Trivia.skipFrom_line_cons]
      split
      · exact scan_eq_scanBehind ending text
      · exact ih

theorem andThen_blockFrom (ending : Ending) (star : Bool) (text : List Char) :
    Scan.andThen (blockFrom ending star text) (fun _ rest => scan ending rest) =
      scanBehind ending (Trivia.skipFrom .block (if star then '*' :: text else text)) := by
  induction text generalizing star with
  | nil => cases ending <;> cases star <;> rfl
  | cons c text ih =>
      rw [blockFrom]
      by_cases closed : star ∧ c = '/'
      · obtain ⟨rfl, rfl⟩ := closed
        exact scan_eq_scanBehind ending text
      · rw [if_neg closed, ih]
        have inner : Trivia.skipFrom .block (c :: text) =
            Trivia.skipFrom .block (if c == '*' then '*' :: text else text) := by
          by_cases again : c = '*'
          · simp [again]
          · rw [Trivia.skipFrom_block_cons c text fun same => absurd same again]
            simp [again]
        cases star with
        | false => exact congrArg _ inner.symm
        | true =>
            have not_closed : c ≠ '/' := by simpa using closed
            simp only [↓reduceIte, Trivia.skipFrom_block_cons '*' (c :: text) (by simpa)]
            exact congrArg _ inner.symm

theorem andThen_true (first : Scan.Result Unit) (next : Bool → List Char → Scan.Result Token) :
    Scan.andThen (Scan.andThen first fun _ rest => (.ok true, rest)) next =
      Scan.andThen first fun _ => next true := by
  rcases first with ⟨e | _, rest⟩ <;> rfl

theorem scan_slash (ending : Ending) (text : List Char) :
    scan ending ('/' :: text) =
      Scan.andThen (commentFrom ending text) fun comment rest =>
        if comment then scan ending rest else (.ok (.symbol .slash), rest) := by
  cases text with
  | nil => cases ending <;> rfl
  | cons c text =>
      rw [commentFrom]
      by_cases line : c = '/'
      · subst line
        rw [if_pos rfl, andThen_true]
        exact (scan_eq_scanBehind _ _).trans (andThen_lineFrom ending text).symm
      by_cases block : c = '*'
      · subst block
        rw [if_neg line, if_pos rfl, andThen_true]
        exact (scan_eq_scanBehind _ _).trans (andThen_blockFrom ending false text).symm
      · rw [if_neg line, if_neg block, scan_eq_scanBehind,
          Trivia.skipFrom_blanks_cons '/' (c :: text) (by simp [line, block])]
        rfl

theorem scan_blank (ending : Ending) (c : Char) (text : List Char) (blank : isBlank c = true) :
    scan ending (c :: text) = scan ending text := by
  have no_comment : c ≠ '/' := by
    rintro rfl
    cases blank
  rw [scan_eq_scanBehind, scan_eq_scanBehind,
    Trivia.skipFrom_blanks_cons c text fun same => absurd same no_comment, if_pos blank]

theorem scan_of_not_blank (ending : Ending) (c : Char) (text : List Char)
    (not_blank : isBlank c = false) (not_slash : c ≠ '/') :
    scan ending (c :: text) = Scan.scanFrom ending c text := by
  rw [scan_eq_scanBehind, Trivia.skipFrom_blanks_cons c text fun same => absurd same not_slash,
    not_blank]
  rfl

theorem refines_scanToken (accounted : r.Accounted source) :
    Refines source (scanToken r) (scan source.ending r.remaining) := by
  -- by length, since a comment takes any number of characters away before the loop goes on
  induction size : r.remaining.length using Nat.strong_induction_on generalizing r with
  | _ size ih =>
  subst size
  rw [scanToken_eq]
  rcases left : r.remaining with - | ⟨c, text⟩
  · exact refines_read_nil accounted left fun _ ended => refines_pure _ ended
  · refine refines_read_cons left ?_
    have next := accounted.gave left
    have shorter : text.length < r.remaining.length := by simp [left]
    cases blank : isBlank c with
    | true =>
        rw [scan_blank _ _ _ blank]
        simp only [blank, ↓reduceIte]
        exact ih _ shorter next rfl
    | false =>
        by_cases slash : c = '/'
        · subst slash
          rw [scan_slash]
          simp only [blank, Bool.false_eq_true, ↓reduceIte, bind_apply]
          have shortened := length_skipComment_le (r.gave '/' text)
          obtain ⟨r', ran, rest, accounted'⟩ := refines_skipComment next
          rw [ran] at shortened ⊢
          simp only [Reader.remaining_gave] at rest shortened ⊢
          generalize commentFrom source.ending text = found at rest ⊢
          rcases found with ⟨e | comment, after⟩
          · exact ⟨r', rfl, rest, accounted'⟩
          · subst rest
            cases comment with
            | false => exact refines_pure _ accounted'
            | true => exact ih _ (Nat.lt_of_le_of_lt shortened shorter) accounted' rfl
        · rw [scan_of_not_blank _ _ _ blank slash]
          simp only [blank, slash, Bool.false_eq_true, ↓reduceIte]
          exact refines_scanFrom c next

end Tokens
end Reading
end Abacus
