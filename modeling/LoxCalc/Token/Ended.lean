import LoxCalc.Token.Basic

/-!
# LoxCalc.Token.Ended — token lists up to their end

What is read of a list of tokens is what stands before the first `eof`, and that `eof` for its line.  A list without
one is ended on the line of its last token, the empty list on line one.
-/

namespace LoxCalc

/-- The tokens before an end, and the token that marks the end. -/
structure EndedTokens where
  body : List Token
  ending : Token
deriving DecidableEq, Repr

namespace EndedTokens

/-- The part of a list that is read. -/
def ofList (tokens : List Token) : EndedTokens where
  body := tokens.takeWhile (·.kind != .eof)
  ending := (tokens.find? (·.kind == .eof)).getD (.eof ((tokens.getLast?.map Token.line).getD 1))

/-! ### Small facts -/

theorem kind_ne_eof_of_mem_body {tokens : List Token} {t : Token} (h : t ∈ (ofList tokens).body) :
    t.kind ≠ .eof := by
  simpa using List.all_eq_true.1 List.all_takeWhile t h

theorem kind_ending (tokens : List Token) : (ofList tokens).ending.kind = .eof := by
  simp only [ofList]
  cases h : tokens.find? (·.kind == .eof) with
  | none => rfl
  | some t => simpa using List.find?_some h

end EndedTokens

end LoxCalc
