import LoxCalc.Json.Reader
import LoxCalc.Proofs.Json.Quoted

/-!
# LoxCalc.Proofs.Json.Grammar — the texts of JSON values

`IsText cs j`: the characters `cs` are a JSON text of the value `j`, with any blanks around its symbols.  Members of
objects may come in any order, and names may be repeated; numbers are of any size, and strings need not denote a text.
-/

namespace LoxCalc.Json

/-! ## Numbers -/

/-- Digits, at least one. -/
def AreDigits (ds : List Char) : Prop := ds ≠ [] ∧ ∀ c ∈ ds, isDigit c = true

/-- Digits without a zero in front of others. -/
inductive IsWhole : List Char → Prop
  | zero : IsWhole ['0']
  | digits {c : Char} {ds : List Char} (hc : c ≠ '0') (h : AreDigits (c :: ds)) : IsWhole (c :: ds)

inductive IsFraction : List Char → Prop
  | none : IsFraction []
  | point {ds : List Char} (h : AreDigits ds) : IsFraction ('.' :: ds)

inductive IsExponent : List Char → Prop
  | none : IsExponent []
  | exponent {e : Char} {sign ds : List Char} (he : e ∈ ['e', 'E']) (hsign : sign ∈ [[], ['+'], ['-']])
      (h : AreDigits ds) : IsExponent (e :: (sign ++ ds))

inductive IsNumber : List Char → Prop
  | mk {minus whole fraction exponent : List Char} (hminus : minus ∈ [[], ['-']]) (hwhole : IsWhole whole)
      (hfraction : IsFraction fraction) (hexponent : IsExponent exponent) :
      IsNumber (minus ++ (whole ++ (fraction ++ exponent)))

/-! ## Values -/

/-- Any number of blanks. -/
def AreBlanks (cs : List Char) : Prop := ∀ c ∈ cs, isBlank c = true

mutual

/-- The texts of a value, from its first symbol to its last. -/
inductive IsValue : List Char → Read → Prop
  | null : IsValue ['n', 'u', 'l', 'l'] null
  | true : IsValue ['t', 'r', 'u', 'e'] (bool true)
  | false : IsValue ['f', 'a', 'l', 's', 'e'] (bool false)
  | number {cs : List Char} (h : IsNumber cs) : IsValue cs (number cs)
  | string {cs : List Char} {s : Option String} (h : IsQuoted cs s) : IsValue cs (string s)
  | emptyArray {cs : List Char} (h : AreBlanks cs) : IsValue ('[' :: (cs ++ [']'])) (array [])
  | array {cs : List Char} {j : Read} {js : List Read} (h : AreItems cs j js) :
      IsValue ('[' :: (cs ++ [']'])) (array (j :: js))
  | emptyObject {cs : List Char} (h : AreBlanks cs) : IsValue ('{' :: (cs ++ ['}'])) (object [])
  | object {cs : List Char} {m : Option String × Read} {ms : List (Option String × Read)} (h : AreMembers cs m ms) :
      IsValue ('{' :: (cs ++ ['}'])) (object (m :: ms))

/-- The texts of a value with blanks around it. -/
inductive IsText : List Char → Read → Prop
  | mk {front cs back : List Char} {j : Read} (hfront : AreBlanks front) (h : IsValue cs j) (hback : AreBlanks back) :
      IsText (front ++ (cs ++ back)) j

/-- The texts of a first item and more items, with commas between them. -/
inductive AreItems : List Char → Read → List Read → Prop
  | one {cs : List Char} {j : Read} (h : IsText cs j) : AreItems cs j []
  | more {cs ds : List Char} {j j' : Read} {js : List Read} (h : IsText cs j) (hs : AreItems ds j' js) :
      AreItems (cs ++ ',' :: ds) j (j' :: js)

/-- The texts of a member: its name in quotes, a colon, and its value. -/
inductive IsMember : List Char → Option String × Read → Prop
  | mk {front name back cs : List Char} {key : Option String} {j : Read} (hfront : AreBlanks front)
      (hname : IsQuoted name key) (hback : AreBlanks back) (h : IsText cs j) :
      IsMember (front ++ (name ++ (back ++ ':' :: cs))) (key, j)

/-- The texts of a first member and more members, with commas between them. -/
inductive AreMembers : List Char → Option String × Read → List (Option String × Read) → Prop
  | one {cs : List Char} {m : Option String × Read} (h : IsMember cs m) : AreMembers cs m []
  | more {cs ds : List Char} {m m' : Option String × Read} {ms : List (Option String × Read)} (h : IsMember cs m)
      (hs : AreMembers ds m' ms) : AreMembers (cs ++ ',' :: ds) m (m' :: ms)

end

end LoxCalc.Json
