import LoxCalc.Token.Segment
import LoxCalc.Diagnostic

/-!
# LoxCalc.Token.Scan — the tokens and lexical errors of a text

A segment is reported on the line on which it ends: one more than the line feeds up to there.  Blanks and comments
report nothing, the text of a token gives the token, an open string or a stray character gives an error.  The list
of tokens always ends with one `eof` on the last line.
-/

namespace LoxCalc

/-- What scanning a text finds. -/
structure Scan where
  tokens : List Token
  errors : List LexicalError
deriving DecidableEq, Repr

namespace Scan

/-- The line after a text that begins on the given line. -/
def lineAfter (line : Nat) (text : List Char) : Nat := line + text.count '\n'

/-- A scan with what one segment, ending on the given line, reports put in front of it. -/
def report (line : Nat) (s : Segment) (rest : Scan) : Scan :=
  match s.sort with
  | .blank => rest
  | .comment => rest
  | .token kind literal => { rest with tokens := ⟨kind, String.ofList s.text, literal, line⟩ :: rest.tokens }
  | .openString => { rest with errors := ⟨line, LexicalCause.unterminatedString.message⟩ :: rest.errors }
  | .stray c => { rest with errors := ⟨line, (LexicalCause.unexpectedCharacter c).message⟩ :: rest.errors }

/-- The scan of segments that begin on the given line. -/
def ofSegments (line : Nat) : List Segment → Scan
  | [] => ⟨[Token.eof line], []⟩
  | s :: rest => report (lineAfter line s.text) s (ofSegments (lineAfter line s.text) rest)

/-- The tokens in front of the end. -/
def body (found : Scan) : List Token := found.tokens.dropLast

/-! ### Small facts -/

theorem lineAfter_append (line : Nat) (s t : List Char) :
    lineAfter line (s ++ t) = lineAfter (lineAfter line s) t := by
  simp only [lineAfter, List.count_append, Nat.add_assoc]

theorem exists_tokens_eq (line : Nat) (segs : List Segment) : ∃ front, (ofSegments line segs).tokens =
    front ++ [.eof (lineAfter line (segs.flatMap Segment.text))] := by
  induction segs generalizing line with
  | nil => exact ⟨[], rfl⟩
  | cons s segs ih =>
    obtain ⟨sort, text⟩ := s
    obtain ⟨front, hfront⟩ := ih (lineAfter line text)
    rw [← lineAfter_append] at hfront
    cases sort with
    | token kind literal => exact ⟨_ :: front, congrArg (List.cons _) hfront⟩
    | _ => exact ⟨front, hfront⟩

/-- The end stands behind the other tokens, on the last line. -/
theorem tokens_eq_body_append (line : Nat) (segs : List Segment) : (ofSegments line segs).tokens =
    (ofSegments line segs).body ++ [.eof (lineAfter line (segs.flatMap Segment.text))] := by
  obtain ⟨front, h⟩ := exists_tokens_eq line segs
  rw [body, h, List.dropLast_concat]

end Scan

/-- The tokens and lexical errors of a text. -/
def scan (source : String) : Scan := .ofSegments 1 (Segment.ofText source.toList)

end LoxCalc
