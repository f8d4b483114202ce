import LoxCalc.Json.Basic

/-!
# LoxCalc.Json.Reader — reading JSON text

A text is read from left to right, symbol by symbol, with a list of the arrays and objects that are still open, so
that values may be nested in one another to any depth.  A number is checked for its spelling alone, and a string for
the form of its escapes; whether they denote a text is recorded in its place.
-/

namespace LoxCalc.Json

/-- A value as it was read. -/
abbrev Read := Json (Option String)

/-- A symbol of a JSON text. -/
inductive Symbol where
  | openArray
  | closeArray
  | openObject
  | closeObject
  | comma
  | colon
  | scalar (value : Read)

/-- An array or object that is still open, with what it holds so far, last first. -/
inductive Open where
  | array (items : List Read)
  | object (members : List (Option String × Read))
  | member (members : List (Option String × Read)) (key : Option String)

/-- What may come next. -/
inductive Expected where
  | value
  | valueOrClose
  | key
  | keyOrClose
  | colon
  | commaOrClose
  | nothing (value : Read)

/-- A text read up to somewhere. -/
structure Progress where
  opened : List Open
  expected : Expected

namespace Progress

def start : Progress := ⟨[], .value⟩

/-- A value is complete: it goes to the innermost open array or member. -/
def complete (value : Read) : List Open → Option Progress
  | [] => some ⟨[], .nothing value⟩
  | .array items :: outer => some ⟨.array (value :: items) :: outer, .commaOrClose⟩
  | .member members key :: outer => some ⟨.object ((key, value) :: members) :: outer, .commaOrClose⟩
  | .object _ :: _ => none

/-- A value begins. -/
def begin (opened : List Open) : Symbol → Option Progress
  | .scalar value => complete value opened
  | .openArray => some ⟨.array [] :: opened, .valueOrClose⟩
  | .openObject => some ⟨.object [] :: opened, .keyOrClose⟩
  | _ => none

/-- The innermost open array or object is closed. -/
def close : List Open → Symbol → Option Progress
  | .array items :: outer, .closeArray => complete (.array items.reverse) outer
  | .object members :: outer, .closeObject => complete (.object members.reverse) outer
  | _, _ => none

/-- The name of a member. -/
def name : List Open → Symbol → Option Progress
  | .object members :: outer, .scalar (.string key) => some ⟨.member members key :: outer, .colon⟩
  | _, _ => none

/-- A comma, after which the innermost array or object must go on. -/
def next : List Open → Option Progress
  | .array items :: outer => some ⟨.array items :: outer, .value⟩
  | .object members :: outer => some ⟨.object members :: outer, .key⟩
  | _ => none

/-- One more symbol. -/
def step (p : Progress) (s : Symbol) : Option Progress :=
  match p.expected with
  | .value => begin p.opened s
  | .valueOrClose => match s with
    | .closeArray => close p.opened s
    | _ => begin p.opened s
  | .key => name p.opened s
  | .keyOrClose => match s with
    | .closeObject => close p.opened s
    | _ => name p.opened s
  | .colon => match s with
    | .colon => some { p with expected := .value }
    | _ => none
  | .commaOrClose => match s with
    | .comma => next p.opened
    | _ => close p.opened s
  | .nothing _ => none

/-- The value, if the text is complete. -/
def finish (p : Progress) : Option Read :=
  match p.expected with
  | .nothing value => some value
  | _ => none

end Progress

/-! ### Symbols -/

def isDigit (c : Char) : Bool := '0' ≤ c && c ≤ '9'

/-- The digits in front of a text, at least one, and the text after them. -/
def digits? (cs : List Char) : Option (List Char × List Char) :=
  if (cs.takeWhile isDigit).isEmpty then none else some (cs.takeWhile isDigit, cs.dropWhile isDigit)

/-- The digits before the point: a lone zero, or digits that begin with another. -/
def whole? : List Char → Option (List Char × List Char)
  | '0' :: rest => some (['0'], rest)
  | cs => digits? cs

/-- A point and digits, or nothing. -/
def fraction? : List Char → Option (List Char × List Char)
  | '.' :: rest => (digits? rest).map fun (ds, rest) => ('.' :: ds, rest)
  | cs => some ([], cs)

/-- The sign of an exponent, if there is one. -/
def sign : List Char → List Char × List Char
  | '+' :: rest => (['+'], rest)
  | '-' :: rest => (['-'], rest)
  | cs => ([], cs)

/-- An exponent, or nothing. -/
def exponent? : List Char → Option (List Char × List Char)
  | [] => some ([], [])
  | c :: rest =>
    if c == 'e' || c == 'E' then
      (digits? (sign rest).2).map fun (ds, after) => (c :: (sign rest).1 ++ ds, after)
    else some ([], c :: rest)

/-- The number in front of a text, without a sign. -/
def magnitude? (cs : List Char) : Option (List Char × List Char) := do
  let (whole, cs) ← whole? cs
  let (fraction, cs) ← fraction? cs
  let (exponent, cs) ← exponent? cs
  some (whole ++ fraction ++ exponent, cs)

/-- The number in front of the text `c :: cs`. -/
def number? (c : Char) (cs : List Char) : Option (List Char × List Char) :=
  if c == '-' then (magnitude? cs).map fun (spelling, rest) => ('-' :: spelling, rest)
  else magnitude? (c :: cs)

/-- What follows the letters of a word in front of a text. -/
def afterWord? (word : String) (cs : List Char) : Option (List Char) :=
  if word.toList.isPrefixOf cs then some (cs.drop word.length) else none

/-- The first symbol of the text `c :: cs`, and the text after it. -/
def symbol? (c : Char) (cs : List Char) : Option (Symbol × List Char) :=
  match c with
  | '[' => some (.openArray, cs)
  | ']' => some (.closeArray, cs)
  | '{' => some (.openObject, cs)
  | '}' => some (.closeObject, cs)
  | ',' => some (.comma, cs)
  | ':' => some (.colon, cs)
  | '"' => (unquote? cs).map fun (s, rest) => (.scalar (.string s), rest)
  | 'n' => (afterWord? "ull" cs).map fun rest => (.scalar .null, rest)
  | 't' => (afterWord? "rue" cs).map fun rest => (.scalar (.bool true), rest)
  | 'f' => (afterWord? "alse" cs).map fun rest => (.scalar (.bool false), rest)
  | _ => (number? c cs).map fun (spelling, rest) => (.scalar (.number spelling), rest)

/-! ### Every symbol takes something off the text -/

theorem length_digits? {cs : List Char} {r : List Char × List Char} (h : digits? cs = some r) :
    r.2.length < cs.length := by
  unfold digits? at h
  split at h
  · simp at h
  · rename_i hne
    obtain rfl := Option.some.inj h
    have hlen := congrArg List.length (List.takeWhile_append_dropWhile (p := isDigit) (l := cs))
    rw [List.length_append] at hlen
    rw [List.isEmpty_iff, ← List.length_eq_zero_iff] at hne
    dsimp only
    omega

theorem length_whole? {cs : List Char} {r : List Char × List Char} (h : whole? cs = some r) :
    r.2.length < cs.length := by
  unfold whole? at h
  split at h
  · obtain rfl := Option.some.inj h
    simp
  · exact length_digits? h

theorem length_fraction? {cs : List Char} {r : List Char × List Char} (h : fraction? cs = some r) :
    r.2.length ≤ cs.length := by
  unfold fraction? at h
  split at h
  · obtain ⟨q, hq, rfl⟩ := Option.map_eq_some_iff.1 h
    have := length_digits? hq
    simp only [List.length_cons]
    omega
  · obtain rfl := Option.some.inj h
    simp

theorem length_sign (cs : List Char) : (sign cs).2.length ≤ cs.length := by
  unfold sign
  split <;> simp

theorem length_exponent? {cs : List Char} {r : List Char × List Char} (h : exponent? cs = some r) :
    r.2.length ≤ cs.length := by
  unfold exponent? at h
  split at h
  · obtain rfl := Option.some.inj h
    simp
  · rename_i c rest
    split at h
    · obtain ⟨q, hq, rfl⟩ := Option.map_eq_some_iff.1 h
      have := length_digits? hq
      have := length_sign rest
      simp only [List.length_cons]
      omega
    · obtain rfl := Option.some.inj h
      simp

theorem length_magnitude? {cs : List Char} {r : List Char × List Char} (h : magnitude? cs = some r) :
    r.2.length < cs.length := by
  unfold magnitude? at h
  simp only [Option.bind_eq_bind, Option.bind_eq_some_iff] at h
  obtain ⟨w, hw, f, hf, e, he, h⟩ := h
  obtain rfl := Option.some.inj h
  have := length_whole? hw
  have := length_fraction? hf
  have := length_exponent? he
  dsimp only
  omega

theorem length_number? {c : Char} {cs : List Char} {r : List Char × List Char} (h : number? c cs = some r) :
    r.2.length ≤ cs.length := by
  unfold number? at h
  split at h
  · obtain ⟨q, hq, rfl⟩ := Option.map_eq_some_iff.1 h
    have := length_magnitude? hq
    dsimp only
    omega
  · have := length_magnitude? h
    simp only [List.length_cons] at this
    omega

theorem length_afterWord? {word : String} {cs rest : List Char} (h : afterWord? word cs = some rest) :
    rest.length ≤ cs.length := by
  unfold afterWord? at h
  split at h
  · obtain rfl := Option.some.inj h
    simp
  · simp at h

/-- The text after the first symbol is shorter. -/
theorem length_symbol? {c : Char} {cs : List Char} {r : Symbol × List Char} (h : symbol? c cs = some r) :
    r.2.length ≤ cs.length := by
  unfold symbol? at h
  split at h
  any_goals (obtain rfl := Option.some.inj h; exact Nat.le_refl _)
  · obtain ⟨q, hq, rfl⟩ := Option.map_eq_some_iff.1 h
    obtain ⟨u, hu, rfl⟩ := Option.map_eq_some_iff.1 hq
    exact Nat.le_of_lt (length_unitsFrom hu)
  any_goals
    obtain ⟨q, hq, rfl⟩ := Option.map_eq_some_iff.1 h
    exact length_afterWord? hq
  · obtain ⟨q, hq, rfl⟩ := Option.map_eq_some_iff.1 h
    exact length_number? hq

/-! ### The whole text -/

/-- Reading on. -/
def readFrom (p : Progress) : List Char → Option Read
  | [] => p.finish
  | c :: cs =>
    if isBlank c then readFrom p cs
    else
      match h : symbol? c cs with
      | none => none
      | some (s, rest) =>
        have : rest.length ≤ cs.length := length_symbol? h
        match p.step s with
        | none => none
        | some p => readFrom p rest
termination_by cs => cs.length

/-- The value that a text spells. -/
def read? (text : String) : Option Read := readFrom .start text.toList

end LoxCalc.Json
