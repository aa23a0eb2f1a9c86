import Mathlib.Tactic.TFAE
import Abacus.Proofs.Text.Utf8
import Abacus.Proofs.Token.Layout

/-!
String literals. Main statements: a text is what some literal stands for unless it has a backslash
at its end or before a letter that would make it an escape, and it is what its own literal in a
token listing stands for if it has neither a backslash nor a null character.
-/
namespace Abacus
open Text Scan

def Source.LexesTo (source : Source) (tokens : List Token) : Prop :=
  ∃ count, source.answers false count = tokens.map .ok ++ [.ok .eof]

theorem Source.lexesTo_iff (text : List Char) (tokens : List Token) :
    (Source.mk text .finished).LexesTo tokens ↔ scanAll .finished text = tokens.map .ok := by
  constructor
  · rintro ⟨count, lexed⟩
    exact (stream_of_answers tokens count _ lexed).2
  · intro items
    exact ⟨tokens.length + 1, answers_of_scanAll text tokens items _ (Nat.lt_succ_self _)⟩

theorem scan_quote (ending : Ending) (text : List Char) :
    scan ending ('"' :: text) = scanString ending text := by
  have skipped : Trivia.skip ('"' :: text) = some ('"' :: text) := by
    rw [Trivia.skip, Trivia.skipFrom_blanks_cons '"' text (by simp)]
    rfl
  simp only [scan, skipped]
  rfl

theorem lexesTo_of_stringContent? (text : List Char) (content : String)
    (read : stringContent? text = some (content.toList, [])) :
    (Source.mk ('"' :: text) .finished).LexesTo [.string content] := by
  have scanned : scan .finished ('"' :: text) = (.ok (.string content), []) := by
    simp [scan_quote, scanString, read]
  rw [Source.lexesTo_iff, scanAll_of_scan_ok _ _ _ _ scanned (by simp), scanAll_nil]
  rfl

theorem scan_of_lexesTo (text : List Char) (content : String)
    (lexed : (Source.mk text .finished).LexesTo [.string content]) :
    ∃ rest, scan .finished text = (.ok (.string content), rest) := by
  rw [Source.lexesTo_iff] at lexed
  obtain ⟨rest, scanned, -⟩ := scan_of_scanAll_eq_cons text _ _ lexed
  exact ⟨rest, scanned⟩

namespace Scan

section Content
variable (text : List Char)

theorem stringContent?_escape (c d : Char) (escape : unescape? c = some d) :
    stringContent? ('\\' :: c :: text) =
      (stringContent? text).map fun read => (d :: read.1, read.2) := by
  simp [stringContent?, escape]

theorem stringContent?_backslash (c : Char) (no_escape : unescape? c = none) :
    stringContent? ('\\' :: c :: text) =
      (stringContent? (c :: text)).map fun read => ('\\' :: read.1, read.2) := by
  simp [stringContent?, no_escape]

theorem stringContent?_plain (c : Char) (no_quote : c ≠ '"') (no_backslash : c ≠ '\\') :
    stringContent? (c :: text) = (stringContent? text).map fun read => (c :: read.1, read.2) := by
  rw [stringContent?] <;> simp [no_quote, no_backslash]

end Content

theorem exists_cons_of_map {read : Option (List Char × List Char)} {c : Char}
    {content rest : List Char}
    (mapped : (read.map fun read => (c :: read.1, read.2)) = some (content, rest)) :
    ∃ more, content = c :: more ∧ read = some (more, rest) := by
  obtain ⟨⟨more, left⟩, rfl, same⟩ := Option.map_eq_some_iff.mp mapped
  obtain ⟨rfl, rfl⟩ := Prod.mk.inj same
  exact ⟨more, rfl, rfl⟩

def escapeLetters : List Char :=
  ['n', 'r', 't']

theorem of_unescape?_eq_some (c d : Char) (escape : unescape? c = some d) :
    d ≠ '\\' ∧ d ≠ '\x00' ∧ d ∉ escapeLetters ∧ (d = c → c = '"') := by
  unfold unescape? at escape
  split at escape <;> cases escape <;> decide

theorem unescape?_eq_none_iff (c : Char) :
    unescape? c = none ↔ c ≠ '"' ∧ c ∉ escapeLetters := by
  constructor
  · intro no_escape
    refine ⟨fun quote => by simp [quote, unescape?] at no_escape, fun letter => ?_⟩
    simp only [escapeLetters, List.mem_cons, List.not_mem_nil, or_false] at letter
    rcases letter with rfl | rfl | rfl <;> simp [unescape?] at no_escape
  · intro ordinary
    unfold unescape?
    split <;> simp_all [escapeLetters]

/-- No backslash is the last character, or stands before a letter that makes an escape. -/
def Quotable (content : List Char) : Prop :=
  ∀ front back : List Char, content = front ++ '\\' :: back →
    ∃ c rest, back = c :: rest ∧ c ∉ escapeLetters

theorem quotable_nil : Quotable [] := by
  intro front back same
  simp at same

theorem quotable_cons_iff (c : Char) (content : List Char) :
    Quotable (c :: content) ↔
      (c = '\\' → ∃ d rest, content = d :: rest ∧ d ∉ escapeLetters) ∧ Quotable content := by
  constructor
  · intro quotable
    refine ⟨fun same => quotable [] content (by rw [same]; rfl), fun front back same => ?_⟩
    exact quotable (c :: front) back (by rw [same]; rfl)
  · rintro ⟨first, others⟩ front back same
    cases front with
    | nil =>
        obtain ⟨rfl, rfl⟩ := List.cons.inj same
        exact first rfl
    | cons d front => exact others front back (List.cons.inj same).2

/-- Behind a backslash that stands for itself the content does not go on with a letter that would
make it an escape. -/
theorem head_of_stringContent? (c : Char) (text content rest : List Char)
    (no_escape : unescape? c = none) (read : stringContent? (c :: text) = some (content, rest)) :
    ∃ d more, content = d :: more ∧ d ∉ escapeLetters := by
  obtain ⟨no_quote, no_letter⟩ := (unescape?_eq_none_iff c).mp no_escape
  by_cases backslash : c = '\\'
  · subst backslash
    cases text with
    | nil => simp [stringContent?] at read
    | cons e text =>
        cases escape : unescape? e with
        | some d =>
            rw [stringContent?_escape text e d escape] at read
            obtain ⟨more, rfl, -⟩ := exists_cons_of_map read
            exact ⟨d, more, rfl, (of_unescape?_eq_some e d escape).2.2.1⟩
        | none =>
            rw [stringContent?_backslash text e escape] at read
            obtain ⟨more, rfl, -⟩ := exists_cons_of_map read
            exact ⟨'\\', more, rfl, by decide⟩
  · rw [stringContent?_plain text c no_quote backslash] at read
    obtain ⟨more, rfl, -⟩ := exists_cons_of_map read
    exact ⟨c, more, rfl, no_letter⟩

theorem quotable_of_stringContent? (text content rest : List Char)
    (read : stringContent? text = some (content, rest)) : Quotable content := by
  fun_induction stringContent? text generalizing content with
  | case1 => simp at read
  | case2 text =>
      obtain ⟨rfl, -⟩ : [] = content ∧ text = rest := by simpa using read
      exact quotable_nil
  | case3 c text d escape ih =>
      obtain ⟨more, rfl, inner⟩ := exists_cons_of_map read
      rw [quotable_cons_iff]
      exact ⟨fun same => absurd same (of_unescape?_eq_some c d escape).1, ih more inner⟩
  | case4 c text no_escape ih =>
      obtain ⟨more, rfl, inner⟩ := exists_cons_of_map read
      rw [quotable_cons_iff]
      exact ⟨fun _ => head_of_stringContent? c text more rest no_escape inner, ih more inner⟩
  | case5 c text no_quote no_backslash ih =>
      obtain ⟨more, rfl, inner⟩ := exists_cons_of_map read
      rw [quotable_cons_iff]
      refine ⟨fun same => ?_, ih more inner⟩
      cases text with
      | nil => simp [stringContent?] at inner
      | cons d text => exact absurd rfl (no_backslash d text same)

def escapeQuote (c : Char) : List Char :=
  if c = '"' then ['\\', '"'] else [c]

theorem stringContent?_escapeQuote (content rest : List Char) (quotable : Quotable content) :
    stringContent? (content.flatMap escapeQuote ++ '"' :: rest) = some (content, rest) := by
  induction content with
  | nil => rfl
  | cons c content ih =>
      obtain ⟨first, others⟩ := (quotable_cons_iff c content).mp quotable
      have read := ih others
      rw [List.flatMap_cons, List.append_assoc]
      by_cases quote : c = '"'
      · subst quote
        rw [show escapeQuote '"' = ['\\', '"'] from rfl, List.cons_append, List.cons_append,
          List.nil_append, stringContent?_escape _ '"' '"' rfl, read]
        rfl
      · rw [escapeQuote, if_neg quote, List.singleton_append]
        by_cases backslash : c = '\\'
        · subst backslash
          obtain ⟨d, more, rfl, no_letter⟩ := first rfl
          -- the next character of the literal is `d`, or the backslash that escapes it
          obtain ⟨e, tail, next, no_escape⟩ : ∃ e tail,
              (d :: more).flatMap escapeQuote ++ '"' :: rest = e :: tail ∧ unescape? e = none := by
            by_cases escaped : d = '"'
            · exact ⟨'\\', _, by rw [List.flatMap_cons, escapeQuote, if_pos escaped]; rfl, rfl⟩
            · exact ⟨d, _, by rw [List.flatMap_cons, escapeQuote, if_neg escaped]; rfl,
                (unescape?_eq_none_iff d).mpr ⟨escaped, no_letter⟩⟩
          rw [next] at read ⊢
          rw [stringContent?_backslash tail e no_escape, read]
          rfl
        · rw [stringContent?_plain _ c quote backslash, read]
          rfl

def listedBody (content : List Char) : List Char :=
  content.flatMap (escapeCommon '"') ++ ['"']

inductive Listed (c : Char) (body : List Char) : List Char → Prop where
  | escape (e : Char) (same : unescape? e = some c) : Listed c body ('\\' :: e :: body)
  | backslash (same : c = '\\') : Listed c body ('\\' :: '\\' :: body)
  | null (same : c = '\x00') : Listed c body ('\\' :: '0' :: body)
  | plain (no_quote : c ≠ '"') (no_backslash : c ≠ '\\') (no_null : c ≠ '\x00') :
      Listed c body (c :: body)

theorem listed_listedBody (c : Char) (content : List Char) :
    Listed c (listedBody content) (listedBody (c :: content)) := by
  have split : listedBody (c :: content) = escapeCommon '"' c ++ listedBody content := by
    rw [listedBody, List.flatMap_cons, List.append_assoc]
    rfl
  rw [split, escapeCommon]
  split_ifs with line tab carriage backslash quote null
  · exact .escape 'n' (by rw [line]; rfl)
  · exact .escape 't' (by rw [tab]; rfl)
  · exact .escape 'r' (by rw [carriage]; rfl)
  · exact .backslash backslash
  · exact .escape c (by rw [quote]; rfl)
  · exact .null null
  · exact .plain quote backslash null

theorem stringContent?_listedBody (content : List Char) (no_backslash : '\\' ∉ content)
    (no_null : '\x00' ∉ content) : stringContent? (listedBody content) = some (content, []) := by
  induction content with
  | nil => rfl
  | cons c content ih =>
      obtain ⟨first_backslash, others_backslash⟩ : '\\' ≠ c ∧ '\\' ∉ content := by
        simpa using no_backslash
      obtain ⟨first_null, others_null⟩ : '\x00' ≠ c ∧ '\x00' ∉ content := by
        simpa using no_null
      have read := ih others_backslash others_null
      have written := listed_listedBody c content
      generalize listedBody (c :: content) = text at written
      cases written with
      | escape e same =>
          rw [stringContent?_escape _ e c same, read]
          rfl
      | backslash same => exact absurd same.symm first_backslash
      | null same => exact absurd same.symm first_null
      | plain no_quote no_backslash =>
          rw [stringContent?_plain _ c no_quote no_backslash, read]
          rfl

theorem head_of_backslash (e : Char) (text content rest : List Char)
    (read : stringContent? ('\\' :: e :: text) = some (content, rest)) :
    content.head? = some ((unescape? e).getD '\\') := by
  cases escape : unescape? e with
  | some d =>
      rw [stringContent?_escape text e d escape] at read
      obtain ⟨more, rfl, -⟩ := exists_cons_of_map read
      rfl
  | none =>
      rw [stringContent?_backslash text e escape] at read
      obtain ⟨more, rfl, -⟩ := exists_cons_of_map read
      rfl

theorem head_of_surplus (text content rest : List Char) (c : Char) (body : List Char)
    (written : Listed c body text) (no_backslash : c ≠ '\\')
    (read : stringContent? ('\\' :: text) = some (content, rest)) : content.head? ≠ some c := by
  intro first
  have itself (e : Char) (more : List Char) (same : text = e :: more) :
      (unescape? e).getD '\\' = c := by
    rw [same] at read
    exact Option.some.inj ((head_of_backslash e more content rest read).symm.trans first)
  cases written with
  | escape e => exact no_backslash (itself '\\' _ rfl).symm
  | backslash same => exact no_backslash same
  | null => exact no_backslash (itself '\\' _ rfl).symm
  | plain no_quote =>
      have same := itself c body rfl
      cases escape : unescape? c with
      | none =>
          rw [escape] at same
          exact no_backslash same.symm
      | some d =>
          rw [escape] at same
          exact no_quote ((of_unescape?_eq_some c d escape).2.2.2 same)

/-- Behind surplus backslashes the literal of a text is not read as the text: a backslash of the
text adds to the surplus, and any other character of it differs from what is read in its place. -/
theorem stringContent?_surplus (count : Nat) (content rest : List Char) :
    stringContent? ('\\' :: (List.replicate count '\\' ++ listedBody content)) ≠
      some (content, rest) := by
  intro read
  induction content generalizing count with
  | nil =>
      cases count with
      | zero => simpa using head_of_backslash '"' [] [] rest read
      | succ count => simpa using head_of_backslash '\\' _ [] rest read
  | cons c content ih =>
      have written := listed_listedBody c content
      by_cases backslash : c = '\\'
      · subst backslash
        have more : List.replicate count '\\' ++ listedBody ('\\' :: content) =
            '\\' :: (List.replicate (count + 1) '\\' ++ listedBody content) := by
          rw [← List.cons_append, ← List.replicate_succ, List.replicate_succ', List.replicate_succ']
          simp [listedBody, escapeCommon]
        rw [more, stringContent?_backslash _ '\\' rfl] at read
        obtain ⟨inner, same, read⟩ := exists_cons_of_map read
        obtain rfl := (List.cons.inj same).2
        exact ih (count + 1) read
      · cases count with
        | zero => exact head_of_surplus _ _ rest c _ written backslash read rfl
        | succ count =>
            have first := head_of_backslash '\\' _ _ rest read
            exact backslash (Option.some.inj first)

theorem of_stringContent?_listedBody (content rest : List Char)
    (read : stringContent? (listedBody content) = some (content, rest)) :
    '\\' ∉ content ∧ '\x00' ∉ content := by
  induction content with
  | nil => simp
  | cons c content ih =>
      have written := listed_listedBody c content
      generalize listedBody (c :: content) = text at written read
      obtain ⟨⟨no_backslash, no_null⟩, inner⟩ : (c ≠ '\\' ∧ c ≠ '\x00') ∧
          stringContent? (listedBody content) = some (content, rest) := by
        cases written with
        | escape e same =>
            obtain ⟨no_backslash, no_null, -⟩ := of_unescape?_eq_some e c same
            rw [stringContent?_escape _ e c same] at read
            obtain ⟨more, same_rest, inner⟩ := exists_cons_of_map read
            obtain rfl := (List.cons.inj same_rest).2
            exact ⟨⟨no_backslash, no_null⟩, inner⟩
        | backslash same =>
            rw [stringContent?_backslash _ '\\' rfl] at read
            obtain ⟨more, same_rest, inner⟩ := exists_cons_of_map read
            obtain rfl := (List.cons.inj same_rest).2
            exact absurd inner (stringContent?_surplus 0 content rest)
        | null same =>
            have first := head_of_backslash '0' _ _ rest read
            rw [same] at first
            exact absurd (Option.some.inj first) (by decide)
        | plain no_quote no_backslash no_null =>
            rw [stringContent?_plain _ c no_quote no_backslash] at read
            obtain ⟨more, same_rest, inner⟩ := exists_cons_of_map read
            obtain rfl := (List.cons.inj same_rest).2
            exact ⟨⟨no_backslash, no_null⟩, inner⟩
      obtain ⟨others_backslash, others_null⟩ := ih inner
      simp [others_backslash, others_null, no_backslash.symm, no_null.symm]

end Scan

theorem exists_stringContent?_of_scan (text rest : List Char) (content : String)
    (scanned : scan .finished text = (.ok (.string content), rest)) :
    ∃ body, stringContent? body = some (content.toList, []) := by
  obtain ⟨word, next⟩ := exists_nextToken .finished text rest _ scanned (by simp)
  obtain ⟨body, -, decoded⟩ := next.spelled
  exact ⟨body ++ ['"'], stringContent?_of_decoded? body _ [] decoded⟩

/-- A text is the content of a string that some source consists of, whether this is given as bytes
or as characters, exactly if it is quotable. -/
theorem Source.lexesTo_string_tfae (content : String) :
    [∃ text : String, (Source.ofBytes (Utf8.encode text)).LexesTo [.string content],
      ∃ bytes : List UInt8, (Source.ofBytes bytes).LexesTo [.string content],
      Quotable content.toList].TFAE := by
  tfae_have 1 → 2 := by
    rintro ⟨text, lexed⟩
    exact ⟨Utf8.encode text, lexed⟩
  tfae_have 2 → 3 := by
    rintro ⟨bytes, lexed⟩
    obtain ⟨rest, scanned⟩ := scan_of_lexesTo _ content lexed
    obtain ⟨body, read⟩ := exists_stringContent?_of_scan _ rest content scanned
    exact quotable_of_stringContent? body _ [] read
  tfae_have 3 → 1 := by
    intro quotable
    refine ⟨String.ofList ('"' :: (content.toList.flatMap escapeQuote ++ ['"'])), ?_⟩
    rw [Source.ofBytes, Utf8.decode_encode, String.toList_ofList]
    exact lexesTo_of_stringContent? _ content (stringContent?_escapeQuote _ [] quotable)
  tfae_finish

/-- The literal by which a token listing shows a string is a source of this string, and of nothing
else, exactly if the string has neither a backslash nor a null character. -/
theorem Token.lexesTo_listing_iff (content : String) :
    (Source.ofBytes (Utf8.encode (Token.string content).listing)).LexesTo [.string content] ↔
      '\\' ∉ content.toList ∧ '\x00' ∉ content.toList := by
  have shown : (Token.string content).listing =
      String.ofList ('"' :: listedBody content.toList) := rfl
  rw [shown, Source.ofBytes, Utf8.decode_encode, String.toList_ofList]
  constructor
  · intro lexed
    obtain ⟨rest, scanned⟩ := scan_of_lexesTo _ content lexed
    rw [scan_quote, scanString] at scanned
    split at scanned
    · simp at scanned
    · rename_i found left read
      obtain rfl : found = content.toList := by
        have same : String.ofList found = content := by simpa using congrArg Prod.fst scanned
        rw [← same, String.toList_ofList]
      exact of_stringContent?_listedBody _ left read
  · rintro ⟨no_backslash, no_null⟩
    exact lexesTo_of_stringContent? _ content
      (stringContent?_listedBody _ no_backslash no_null)

end Abacus
