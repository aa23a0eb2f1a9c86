import Abacus.Token.Scan

/-!
How tokens are written.
-/
namespace Abacus
open Text Scan

def isName : List Char → Bool
  | [] => false
  | c :: rest => isNameStart c && rest.all isNameChar

theorem isNameChar_of_mem_isName (word : List Char) (name : isName word = true) (c : Char)
    (member : c ∈ word) : isNameChar c = true := by
  cases word with
  | nil => simp at member
  | cons first word =>
      obtain ⟨start, others⟩ : isNameStart first = true ∧ ∀ d ∈ word, isNameChar d = true := by
        simpa [isName] using name
      rcases List.mem_cons.mp member with rfl | member
      · simp [isNameChar, start]
      · exact others c member

/-- What the body of a string spells, read from the left: an escape stands for one character, a
backslash that starts none for itself. Nothing is spelled by a body with a quote outside an escape,
where the string would end, nor by one whose last character is a backslash, which would go on. -/
def Scan.decoded? : List Char → Option (List Char)
  | [] => some []
  | '"' :: _ => none
  | ['\\'] => none
  | '\\' :: c :: body =>
      match unescape? c with
      | some d => (decoded? body).map (d :: ·)
      | none => (decoded? (c :: body)).map ('\\' :: ·)
  | c :: body => (decoded? body).map (c :: ·)

namespace Token

def SpelledBy : Token → List Char → Prop
  | .eof, spelling => spelling = []
  | .char value, spelling => spelling = ['\'', value, '\'']
  | .string content, spelling =>
      ∃ body, spelling = '"' :: (body ++ ['"']) ∧ decoded? body = some content.toList
  | .int _ text, spelling => spelling = text.toList
  | .float _ text, spelling => spelling = text.toList
  | .name text, spelling =>
      spelling = text.toList ∧ isName spelling = true ∧ Word.ofSpelling? text = none
  | .symbol s, spelling => spelling = s.spelling.toList
  | .word w, spelling => spelling = w.spelling.toList ∧ isName spelling = true

/-- A token that could not go on with the first character of what is left behind it. -/
def EndsBefore : Token → List Char → Prop
  | .name _, rest | .word _, rest => ∀ c ∈ rest.head?, isNameChar c = false
  | .symbol s, rest => ∀ c ∈ rest.head?, s.extend? c = none ∧ (s = .dot → isDigit c = false)
  | _, _ => True

end Token

theorem spelling_of_ofChar? (c : Char) (s : Symbol) (found : Symbol.ofChar? c = some s) :
    s.spelling.toList = [c] := by
  unfold Symbol.ofChar? at found
  split at found <;> cases found <;> rfl

theorem spelling_of_extend? (s longer : Symbol) (c : Char) (extended : s.extend? c = some longer) :
    longer.spelling.toList = s.spelling.toList ++ [c] := by
  unfold Symbol.extend? at extended
  split at extended <;> cases extended <;> rfl

theorem endsBefore_of_extend? (s longer : Symbol) (c : Char) (extended : s.extend? c = some longer)
    (rest : List Char) : (Token.symbol longer).EndsBefore rest := by
  unfold Symbol.extend? at extended
  split at extended <;> cases extended <;> intro d _ <;> exact ⟨rfl, by simp⟩

theorem spelling_of_ofSpelling? (text : String) (w : Word)
    (found : Word.ofSpelling? text = some w) : w.spelling = text := by
  simpa using List.find?_some found

theorem spelledBy_ofIdentifier (text : List Char) (name : isName text = true) :
    (Token.ofIdentifier (String.ofList text)).SpelledBy text := by
  unfold Token.ofIdentifier
  split
  · rename_i w found
    simp [Token.SpelledBy, spelling_of_ofSpelling? _ w found, name]
  · rename_i free
    simp [Token.SpelledBy, free, name]

theorem endsBefore_ofIdentifier (text : String) (rest : List Char)
    (stop : ∀ c ∈ rest.head?, isNameChar c = false) :
    (Token.ofIdentifier text).EndsBefore rest := by
  unfold Token.ofIdentifier
  split <;> exact stop

theorem spelledBy_of_integerToken (n : Nat) (exponent : Option Int) (text : String) (t : Token)
    (found : integerToken n exponent text = .ok t) (rest : List Char) :
    t.SpelledBy text.toList ∧ t.EndsBefore rest := by
  simp only [integerToken] at found
  split at found
  · cases found
    exact ⟨rfl, trivial⟩
  · split at found
    · simp at found
    · cases found
      exact ⟨rfl, trivial⟩

theorem spelledBy_floatToken (whole : Nat) (digits : List Char) (exponent : Option Int)
    (text : String) (rest : List Char) :
    (floatToken whole digits exponent text).SpelledBy text.toList ∧
      (floatToken whole digits exponent text).EndsBefore rest := by
  cases exponent <;> exact ⟨rfl, trivial⟩

namespace Scan

theorem decoded?_of_stringContent? (text content rest : List Char)
    (read : stringContent? text = some (content, rest)) :
    ∃ body, text = body ++ '"' :: rest ∧ decoded? body = some content := by
  fun_induction stringContent? text generalizing content with
  | case1 => simp at read
  | case2 text =>
      obtain ⟨rfl, rfl⟩ : [] = content ∧ text = rest := by simpa using read
      exact ⟨[], rfl, rfl⟩
  | case3 c text d escape ih =>
      obtain ⟨⟨content', rest'⟩, inner, same⟩ := Option.map_eq_some_iff.mp read
      obtain ⟨rfl, rfl⟩ : d :: content' = content ∧ rest' = rest := by simpa using same
      obtain ⟨body, rfl, decoded⟩ := ih content' inner
      exact ⟨'\\' :: c :: body, rfl, by simp [decoded?, escape, decoded]⟩
  | case4 c text no_escape ih =>
      obtain ⟨⟨content', rest'⟩, inner, same⟩ := Option.map_eq_some_iff.mp read
      obtain ⟨rfl, rfl⟩ : '\\' :: content' = content ∧ rest' = rest := by simpa using same
      obtain ⟨body, split, decoded⟩ := ih content' inner
      cases body with
      | nil =>
          obtain ⟨rfl, -⟩ := List.cons.inj split
          simp [unescape?] at no_escape
      | cons d body =>
          obtain ⟨rfl, rfl⟩ := List.cons.inj split
          exact ⟨'\\' :: c :: body, rfl, by simp [decoded?, no_escape, decoded]⟩
  | case5 c text no_quote no_backslash ih =>
      obtain ⟨⟨content', rest'⟩, inner, same⟩ := Option.map_eq_some_iff.mp read
      obtain ⟨rfl, rfl⟩ : c :: content' = content ∧ rest' = rest := by simpa using same
      obtain ⟨body, rfl, decoded⟩ := ih content' inner
      have not_backslash : c ≠ '\\' := by
        rintro rfl
        cases body with
        | nil => exact no_backslash '"' rest' rfl rfl
        | cons d body => exact no_backslash d (body ++ '"' :: rest') rfl rfl
      refine ⟨c :: body, rfl, ?_⟩
      rw [decoded?, decoded]
      · rfl
      · exact no_quote
      · exact fun same => absurd same not_backslash
      · exact fun d body same => absurd same not_backslash

theorem stringContent?_of_decoded? (body content rest : List Char)
    (decoded : decoded? body = some content) :
    stringContent? (body ++ '"' :: rest) = some (content, rest) := by
  fun_induction decoded? body generalizing content with
  | case1 =>
      obtain rfl : [] = content := by simpa using decoded
      rfl
  | case2 => simp at decoded
  | case3 => simp at decoded
  | case4 c body d escape ih =>
      obtain ⟨content, inner, rfl⟩ := Option.map_eq_some_iff.mp decoded
      simp [stringContent?, escape, ih content inner]
  | case5 c body no_escape ih =>
      obtain ⟨content, inner, rfl⟩ := Option.map_eq_some_iff.mp decoded
      have read := ih content inner
      rw [List.cons_append] at read
      simp [stringContent?, no_escape, read]
  | case6 c body no_quote no_last no_escape ih =>
      obtain ⟨content, inner, rfl⟩ := Option.map_eq_some_iff.mp decoded
      have not_backslash : c ≠ '\\' := by
        rintro rfl
        cases body with
        | nil => exact no_last rfl rfl
        | cons d body => exact no_escape d body rfl rfl
      rw [List.cons_append, stringContent?, ih content inner]
      · rfl
      · exact no_quote
      · exact fun _ _ same => absurd same not_backslash

end Scan
end Abacus
