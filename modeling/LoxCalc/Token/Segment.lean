import LoxCalc.Token.Basic
import LoxCalc.Decimal.Basic

/-!
# LoxCalc.Token.Segment — a text cut into consecutive segments

Every text is cut, from left to right and leaving nothing out, into segments: blanks, comments, the texts of
tokens, a string that is never closed, and stray characters.  `Segment.first` is the first segment of a text, the
longest of its sort; `Segment.ofText` cuts the whole text, and joining the segments gives the text back
(`flatMap_text_ofText`).
-/

namespace LoxCalc

/-- What a segment of a text is. -/
inductive SegmentSort where
  | blank
  | comment
  | token (kind : TokenKind) (literal : Option Literal)
  | openString
  | stray (c : Char)
deriving DecidableEq, Repr

/-- A piece of a text and what it is. -/
structure Segment where
  sort : SegmentSort
  text : List Char
deriving DecidableEq, Repr

namespace Segment

/-! ### Characters -/

def isLetter (c : Char) : Bool := ('a' ≤ c && c ≤ 'z') || ('A' ≤ c && c ≤ 'Z') || c == '_'

def isDigit (c : Char) : Bool := '0' ≤ c && c ≤ '9'

def isWordCharacter (c : Char) : Bool := isLetter c || isDigit c

/-- The kinds whose text is one character that begins no longer text. -/
def punctuation? : Char → Option TokenKind
  | '(' => some .leftParen
  | ')' => some .rightParen
  | '{' => some .leftBrace
  | '}' => some .rightBrace
  | ',' => some .comma
  | '.' => some .dot
  | '-' => some .minus
  | '+' => some .plus
  | ';' => some .semicolon
  | '*' => some .star
  | _ => none

/-- The kinds of a character that may be followed by `=`: alone, and with it. -/
def comparison? : Char → Option (TokenKind × TokenKind)
  | '!' => some (.bang, .bangEqual)
  | '=' => some (.equal, .equalEqual)
  | '<' => some (.less, .lessEqual)
  | '>' => some (.greater, .greaterEqual)
  | _ => none

/-! ### The first segment -/

/-- The digits after a point that opens the text. -/
def fractionDigits : List Char → List Char
  | '.' :: rest => rest.takeWhile isDigit
  | _ => []

/-- A run of digits, with a point and further digits where a digit follows the point. -/
def numeral (cs : List Char) : Segment :=
  let whole := cs.takeWhile isDigit
  let fraction := fractionDigits (cs.dropWhile isDigit)
  ⟨.token .number (some (.number (.ofNumeral whole fraction))),
    if fraction.isEmpty then whole else whole ++ '.' :: fraction⟩

/-- The longest word, reserved or not. -/
def word (cs : List Char) : Segment :=
  let text := cs.takeWhile isWordCharacter
  ⟨.token ((TokenKind.keyword? (String.ofList text)).getD .identifier) none, text⟩

/-- A string, given what follows its opening quote: up to the next quote, or open to the end of the text. -/
def quoted (cs : List Char) : Segment :=
  let body := cs.takeWhile (· != '"')
  match cs.dropWhile (· != '"') with
  | [] => ⟨.openString, '"' :: body⟩
  | _ :: _ => ⟨.token .string (some (.str (String.ofList body))), '"' :: body ++ ['"']⟩

/-- The first segment of the text `c :: cs`. -/
def first (c : Char) (cs : List Char) : Segment :=
  if c == ' ' || c == '\t' || c == '\r' || c == '\n' then ⟨.blank, [c]⟩
  else if c == '"' then quoted cs
  else if c == '/' then
    match cs with
    | '/' :: _ => ⟨.comment, c :: cs.takeWhile (· != '\n')⟩
    | _ => ⟨.token .slash none, [c]⟩
  else if isDigit c then numeral (c :: cs)
  else if isLetter c then word (c :: cs)
  else match punctuation? c, comparison? c with
    | some kind, _ => ⟨.token kind none, [c]⟩
    | none, some (alone, withEqual) =>
      match cs with
      | '=' :: _ => ⟨.token withEqual none, [c, '=']⟩
      | _ => ⟨.token alone none, [c]⟩
    | none, none => ⟨.stray c, [c]⟩

/-! ### The whole text -/

/-- All segments of a text in order. -/
def ofText : List Char → List Segment
  | [] => []
  | c :: cs => first c cs :: ofText (cs.drop ((first c cs).text.length - 1))
termination_by cs => cs.length

/-! ### Nothing is lost -/

private theorem numeral_text_prefix (cs : List Char) : (numeral cs).text <+: cs := by
  have h := List.takeWhile_append_dropWhile (p := isDigit) (l := cs)
  simp only [numeral]
  split
  · exact List.takeWhile_prefix _
  · rename_i hne
    revert hne h
    generalize cs.dropWhile isDigit = after
    intro h hne
    unfold fractionDigits at hne ⊢
    split
    · rename_i rest
      have h2 := List.takeWhile_append_dropWhile (p := isDigit) (l := rest)
      refine ⟨rest.dropWhile isDigit, ?_⟩
      simp only [List.append_assoc, List.cons_append, h2, h]
    · simp_all

private theorem quoted_text_prefix (cs : List Char) : (quoted cs).text <+: '"' :: cs := by
  have h := List.takeWhile_append_dropWhile (p := fun c => c != '"') (l := cs)
  unfold quoted
  split
  · rename_i hrest
    rw [hrest, List.append_nil] at h
    simp [h]
  · rename_i d rest hrest
    have hd : (d != '"') = false := by
      have := List.head?_dropWhile_not (fun c => c != '"') cs
      rw [hrest] at this
      simpa using this
    refine ⟨rest, ?_⟩
    simp only [bne_eq_false_iff_eq] at hd
    subst hd
    rw [hrest] at h
    simp [h]

/-- The first segment is the beginning of the text. -/
theorem first_text_prefix (c : Char) (cs : List Char) : (first c cs).text <+: c :: cs := by
  unfold first
  split
  · simp
  split
  · rename_i h
    simp only [beq_iff_eq] at h
    subst h
    exact quoted_text_prefix cs
  split
  · split
    · simpa using List.takeWhile_prefix (fun x => x != '\n')
    · simp
  split
  · exact numeral_text_prefix _
  split
  · exact List.takeWhile_prefix _
  split
  · simp
  · split <;> simp
  · simp

/-- The first segment is not empty. -/
theorem first_text_ne_nil (c : Char) (cs : List Char) : (first c cs).text ≠ [] := by
  unfold first
  split
  · simp
  split
  · unfold quoted
    split <;> simp
  split
  · split <;> simp
  split
  · rename_i h
    simp only [numeral]
    split <;> simp [h]
  split
  · rename_i h
    simp [word, isWordCharacter, h]
  split
  · simp
  · split <;> simp
  · simp

/-- The segments of a text are its pieces: joined in order they are the text. -/
theorem flatMap_text_ofText (cs : List Char) : (ofText cs).flatMap Segment.text = cs := by
  fun_induction ofText cs with
  | case1 => rfl
  | case2 c cs ih =>
    obtain ⟨rest, h⟩ := first_text_prefix c cs
    have hne := first_text_ne_nil c cs
    rw [List.flatMap_cons, ih]
    revert h hne
    generalize (first c cs).text = text
    intro h hne
    cases text with
    | nil => exact absurd rfl hne
    | cons d text =>
      simp only [List.cons_append, List.cons.injEq] at h
      obtain ⟨rfl, rfl⟩ := h
      simp

end Segment

end LoxCalc
