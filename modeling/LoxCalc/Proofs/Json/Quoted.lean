import LoxCalc.Json.Basic

/-!
# LoxCalc.Proofs.Json.Quoted — strings in quotes, and how they are read and written

* `Unit16.IsSpelling`, `AreSpelled`: a unit between quotes is a raw character, a backslash with a letter, or a UTF-16
  unit by its four digits.  `Denote`: the text that units stand for, where escaped surrogates come in pairs.
  `IsQuoted`: a string in quotes with the text it denotes, if there is one.
* Every string in quotes is read, and its text found (`exists_unquote?`).
* A text is written as a string in quotes that denotes it (`isQuoted_quote`).
-/

namespace LoxCalc.Json

/-! ## Strings in quotes -/

/-- A digit of base sixteen, in either case, and its value. -/
def IsHexDigit (d : Char) (n : Nat) : Prop := n < 16 ∧ (d = Nat.digitChar n ∨ d = (Nat.digitChar n).toUpper)

/-- The letters that stand for a character behind a backslash. -/
def letterEscapes : List (Char × Char) :=
  [('"', '"'), ('\\', '\\'), ('/', '/'), ('b', '\x08'), ('f', '\x0c'), ('n', '\n'), ('r', '\r'), ('t', '\t')]

/-- The spellings of one unit. -/
inductive Unit16.IsSpelling : Unit16 → List Char → Prop
  | raw {c : Char} (hq : c ≠ '"') (hb : c ≠ '\\') (hc : 0x20 ≤ c.toNat) : IsSpelling (.char c) [c]
  | letter {e c : Char} (h : (e, c) ∈ letterEscapes) : IsSpelling (.char c) ['\\', e]
  | digits {a b c d : Char} {i j k l : Nat} (ha : IsHexDigit a i) (hb : IsHexDigit b j) (hc : IsHexDigit c k)
      (hd : IsHexDigit d l) : IsSpelling (.unit (i * 0x1000 + j * 0x100 + k * 0x10 + l)) ['\\', 'u', a, b, c, d]

/-- Units spelled one after the other. -/
inductive AreSpelled : List Unit16 → List Char → Prop
  | nil : AreSpelled [] []
  | cons {u : Unit16} {us : List Unit16} {piece cs : List Char} (hu : u.IsSpelling piece) (hus : AreSpelled us cs) :
      AreSpelled (u :: us) (piece ++ cs)

/-- The first of the two units of a character that is not a unit itself. -/
def highSurrogate (c : Char) : Nat := 0xD800 + (c.toNat - 0x10000) / 0x400

/-- The second of them. -/
def lowSurrogate (c : Char) : Nat := 0xDC00 + (c.toNat - 0x10000) % 0x400

/-- The text that units stand for: characters for themselves, escaped units as UTF-16. -/
inductive Denote : List Unit16 → List Char → Prop
  | nil : Denote [] []
  | char (c : Char) {us : List Unit16} {cs : List Char} (h : Denote us cs) : Denote (.char c :: us) (c :: cs)
  | unit {c : Char} (hc : c.toNat < 0x10000) {us : List Unit16} {cs : List Char} (h : Denote us cs) :
      Denote (.unit c.toNat :: us) (c :: cs)
  | pair {c : Char} (hc : 0x10000 ≤ c.toNat) {us : List Unit16} {cs : List Char} (h : Denote us cs) :
      Denote (.unit (highSurrogate c) :: .unit (lowSurrogate c) :: us) (c :: cs)

/-- A string in quotes, and the text it denotes if it denotes one. -/
inductive IsQuoted : List Char → Option String → Prop
  | mk {us : List Unit16} {cs : List Char} {s : Option String} (hus : AreSpelled us cs)
      (hs : ∀ t : String, s = some t ↔ Denote us t.toList) : IsQuoted ('"' :: (cs ++ ['"'])) s

/-! ## Reading units -/

theorem hexValue?_of_isHexDigit {d : Char} {n : Nat} (h : IsHexDigit d n) : hexValue? d = some n := by
  have hall : ∀ n, n < 16 →
      hexValue? (Nat.digitChar n) = some n ∧ hexValue? (Nat.digitChar n).toUpper = some n := by decide +kernel
  obtain ⟨hn, rfl | rfl⟩ := h
  · exact (hall n hn).1
  · exact (hall n hn).2

section UnitsFrom

variable {c : Char} (done : List Unit16) (cs : List Char)

theorem unitsFrom_raw (hq : c ≠ '"') (hb : c ≠ '\\') (hc : 0x20 ≤ c.toNat) :
    unitsFrom done (c :: cs) = unitsFrom (.char c :: done) cs := by
  rw [unitsFrom.eq_def]
  split
  · rename_i heq; cases heq
  · rename_i heq; cases heq; exact absurd rfl hq
  · rename_i heq; cases heq; exact absurd rfl hb
  · rename_i heq; cases heq; exact absurd rfl hb
  · rename_i heq
    cases heq
    rw [if_neg (by simp [hb, hc])]

theorem unitsFrom_letter {e : Char} (he : unescape? e = some c) :
    unitsFrom done ('\\' :: e :: cs) = unitsFrom (.char c :: done) cs := by
  rw [unitsFrom.eq_def]
  split
  · rename_i heq; cases heq
  · rename_i heq; cases heq
  · rename_i heq; cases heq; cases he
  · rename_i heq; cases heq; rw [he]
  · rename_i hno heq; cases heq; exact absurd rfl (hno _ _ rfl)

/-- **A spelled unit** is read as this unit. -/
theorem unitsFrom_of_isSpelling {u : Unit16} {piece : List Char} (h : u.IsSpelling piece) :
    unitsFrom done (piece ++ cs) = unitsFrom (u :: done) cs := by
  cases h with
  | raw hq hb hc => exact unitsFrom_raw done cs hq hb hc
  | letter h =>
    have hall : ∀ p ∈ letterEscapes, unescape? p.1 = some p.2 := by decide
    exact unitsFrom_letter done cs (hall _ h)
  | @digits a b c d i j k l ha hb hc hd =>
    have hunit : unit? a b c d = some (i * 0x1000 + j * 0x100 + k * 0x10 + l) := by
      rw [unit?, hexValue?_of_isHexDigit ha, hexValue?_of_isHexDigit hb, hexValue?_of_isHexDigit hc,
        hexValue?_of_isHexDigit hd]
      show some (((i * 16 + j) * 16 + k) * 16 + l) = _
      rw [Option.some.injEq]
      omega
    show unitsFrom done ('\\' :: 'u' :: a :: b :: c :: d :: cs) = _
    rw [unitsFrom, hunit]

end UnitsFrom

theorem unitsFrom_of_areSpelled {us : List Unit16} {cs : List Char} (h : AreSpelled us cs) (done : List Unit16)
    (rest : List Char) : unitsFrom done (cs ++ '"' :: rest) = some (done.reverse ++ us, rest) := by
  induction h generalizing done with
  | nil => rw [List.nil_append, unitsFrom, List.append_nil]
  | cons hu _ ih =>
    rw [List.append_assoc, unitsFrom_of_isSpelling _ _ hu, ih, List.reverse_cons, List.append_assoc,
      List.singleton_append]

/-- Four digits are less than `2 ^ 16`. -/
theorem unit_lt_of_mem {us : List Unit16} {cs : List Char} (h : AreSpelled us cs) {n : Nat} (hn : .unit n ∈ us) :
    n < 0x10000 := by
  induction h with
  | nil => cases hn
  | cons hu _ ih =>
    rcases List.mem_cons.1 hn with rfl | hn
    · cases hu with
      | digits ha hb hc hd =>
        have := ha.1
        have := hb.1
        have := hc.1
        have := hd.1
        omega
    · exact ih hn

/-! ## The text of units -/

/-- No code point is a surrogate, nor too large. -/
theorem isValidChar_toNat (c : Char) : c.toNat < 0xD800 ∨ 0xDFFF < c.toNat ∧ c.toNat < 0x110000 := c.valid

theorem toNat_ofNat {n : Nat} (h : n < 0xD800 ∨ 0xDFFF < n ∧ n < 0x110000) : (Char.ofNat n).toNat = n := by
  rw [Char.ofNat, dif_pos h]
  rfl

section TextFrom

variable {done : List Char} {us : List Unit16} {u high low : Nat}

/-- No surrogate looks for a second half. -/
theorem textFrom_unit (h : ¬ (0xD800 ≤ u ∧ u < 0xE000)) :
    textFrom done (.unit u :: us) = textFrom (Char.ofNat u :: done) us := by
  rcases us with _ | ⟨_ | low, us⟩
  all_goals
    rw [textFrom.eq_def]
    dsimp only
  · rw [if_neg h]
  · rw [if_neg h]
  · rw [if_neg (by omega), if_neg (by omega)]

theorem textFrom_pair (hhigh : 0xD800 ≤ high ∧ high < 0xDC00) (hlow : 0xDC00 ≤ low ∧ low < 0xE000) :
    textFrom done (.unit high :: .unit low :: us) = textFrom (pairChar high low :: done) us := by
  rw [textFrom, if_pos hhigh, if_pos hlow]

/-- The units that units stand for in a text, one or two for a character. -/
theorem textFrom_of_denote {cs : List Char} (h : Denote us cs) (done : List Char) :
    textFrom done us = some (String.ofList (done.reverse ++ cs)) := by
  induction h generalizing done with
  | nil => rw [textFrom, List.append_nil]
  | char c _ ih => rw [textFrom, ih, List.reverse_cons, List.append_assoc, List.singleton_append]
  | @unit c hc us cs _ ih =>
    have hvalid := isValidChar_toNat c
    rw [textFrom_unit (by omega), Char.ofNat_toNat, ih, List.reverse_cons, List.append_assoc, List.singleton_append]
  | @pair c hc us cs _ ih =>
    have hvalid := isValidChar_toNat c
    have hchar : pairChar (highSurrogate c) (lowSurrogate c) = c := by
      have hsum : 0x10000 + (highSurrogate c - 0xD800) * 0x400 + (lowSurrogate c - 0xDC00) = c.toNat := by
        rw [highSurrogate, lowSurrogate]
        omega
      rw [pairChar, hsum, Char.ofNat_toNat]
    have hhigh : 0xD800 ≤ highSurrogate c ∧ highSurrogate c < 0xDC00 := by
      rw [highSurrogate]
      omega
    have hlow : 0xDC00 ≤ lowSurrogate c ∧ lowSurrogate c < 0xE000 := by
      rw [lowSurrogate]
      omega
    rw [textFrom_pair hhigh hlow, hchar, ih, List.reverse_cons, List.append_assoc, List.singleton_append]

/-- A pair of surrogates is one of a character. -/
theorem exists_pairChar (hhigh : 0xD800 ≤ high ∧ high < 0xDC00) (hlow : 0xDC00 ≤ low ∧ low < 0xE000) :
    0x10000 ≤ (pairChar high low).toNat ∧ highSurrogate (pairChar high low) = high ∧
      lowSurrogate (pairChar high low) = low := by
  have hchar : (pairChar high low).toNat = 0x10000 + (high - 0xD800) * 0x400 + (low - 0xDC00) :=
    toNat_ofNat (by omega)
  rw [highSurrogate, lowSurrogate, hchar]
  omega

theorem denote_unit {cs : List Char} (hu : u < 0x10000) (hsurrogate : ¬ (0xD800 ≤ u ∧ u < 0xE000))
    (h : Denote us cs) : Denote (.unit u :: us) (Char.ofNat u :: cs) := by
  have hchar : (Char.ofNat u).toNat = u := toNat_ofNat (by omega)
  have hunit : Denote (.unit (Char.ofNat u).toNat :: us) (Char.ofNat u :: cs) := .unit (by rwa [hchar]) h
  rwa [hchar] at hunit

/-- Units with a text denote it. -/
theorem denote_of_textFrom {text : String} (hus : ∀ n, .unit n ∈ us → n < 0x10000)
    (h : textFrom done us = some text) : ∃ cs, Denote us cs ∧ text = String.ofList (done.reverse ++ cs) := by
  have hmore (c : Char) (done cs : List Char) :
      String.ofList ((c :: done).reverse ++ cs) = String.ofList (done.reverse ++ c :: cs) := by
    rw [List.reverse_cons, List.append_assoc, List.singleton_append]
  fun_induction textFrom done us with
  | case1 done => exact ⟨[], .nil, by rw [List.append_nil, Option.some.inj h]⟩
  | case2 done c rest ih =>
    obtain ⟨cs, hcs, rfl⟩ := ih (fun n hn => hus n (List.mem_cons_of_mem _ hn)) h
    exact ⟨c :: cs, .char c hcs, hmore c done cs⟩
  | case3 done high low rest hhigh hlow ih =>
    obtain ⟨cs, hcs, rfl⟩ := ih (fun n hn => hus n (by simp [hn])) h
    obtain ⟨hc, hh, hl⟩ := exists_pairChar hhigh hlow
    have hpair := Denote.pair hc hcs
    rw [hh, hl] at hpair
    exact ⟨_, hpair, hmore _ done cs⟩
  | case4 => cases h
  | case5 => cases h
  | case6 done high low rest hhigh hlow ih =>
    obtain ⟨cs, hcs, rfl⟩ := ih (fun n hn => hus n (List.mem_cons_of_mem _ hn)) h
    exact ⟨_, denote_unit (hus high List.mem_cons_self) (by omega) hcs, hmore _ done cs⟩
  | case7 => cases h
  | case8 done u rest hnone hu ih =>
    obtain ⟨cs, hcs, rfl⟩ := ih (fun n hn => hus n (List.mem_cons_of_mem _ hn)) h
    exact ⟨_, denote_unit (hus u List.mem_cons_self) hu hcs, hmore _ done cs⟩

/-- **The text of units** is found if there is one. -/
theorem textFrom_eq_some_iff {body : List Char} (hus : AreSpelled us body) {text : String} :
    textFrom [] us = some text ↔ Denote us text.toList := by
  constructor
  · intro h
    obtain ⟨cs, hcs, rfl⟩ := denote_of_textFrom (fun n => unit_lt_of_mem hus) h
    rwa [List.reverse_nil, List.nil_append, String.toList_ofList]
  · intro h
    rw [textFrom_of_denote h, List.reverse_nil, List.nil_append, String.ofList_toList]

end TextFrom

/-! ## Reading and writing strings -/

theorem isQuoted_of_areSpelled {us : List Unit16} {cs : List Char} (h : AreSpelled us cs) :
    IsQuoted ('"' :: (cs ++ ['"'])) (textFrom [] us) := .mk h fun _ => textFrom_eq_some_iff h

/-- **Every string in quotes is read**, and its text found, whatever follows. -/
theorem exists_unquote? {cs : List Char} {s : Option String} (h : IsQuoted cs s) :
    ∃ body, cs = '"' :: body ∧ ∀ rest, unquote? (body ++ rest) = some (s, rest) := by
  obtain @⟨us, body, s, hus, hs⟩ := h
  have htext : textFrom [] us = s := by
    have hiff (t : String) : textFrom [] us = some t ↔ s = some t := (textFrom_eq_some_iff hus).trans (hs t).symm
    cases s with
    | none => exact Option.eq_none_iff_forall_ne_some.2 fun t ht => by cases (hiff t).1 ht
    | some t => exact (hiff t).2 rfl
  refine ⟨body ++ ['"'], rfl, fun rest => ?_⟩
  rw [unquote?, List.append_assoc, List.singleton_append, unitsFrom_of_areSpelled hus, List.reverse_nil,
    List.nil_append, ← htext]
  rfl

/-- A written character is spelled as itself or by its code point. -/
theorem exists_isSpelling_escape (c : Char) : ∃ u : Unit16, u.IsSpelling (escape c) ∧
    ∀ us cs, Denote us cs → Denote (u :: us) (c :: cs) := by
  unfold escape
  split
  case h_8 hq hb _ _ _ _ _ =>
    split
    · rename_i hc
      have hdigit (n : Nat) : IsHexDigit (lowerHexDigit n) (n % 16) := ⟨Nat.mod_lt _ (by decide), .inl rfl⟩
      have hzero : IsHexDigit '0' 0 := ⟨by decide, .inl rfl⟩
      have hunit := Unit16.IsSpelling.digits hzero hzero (hdigit (c.toNat / 16)) (hdigit c.toNat)
      rw [show 0 * 0x1000 + 0 * 0x100 + c.toNat / 16 % 16 * 0x10 + c.toNat % 16 = c.toNat by omega] at hunit
      exact ⟨.unit c.toNat, hunit, fun us cs h => .unit (by omega) h⟩
    · rename_i hc
      exact ⟨.char c, .raw hq hb (Nat.le_of_not_lt hc), fun us cs h => .char c h⟩
  all_goals exact ⟨.char _, .letter (by decide), fun us cs h => .char _ h⟩

/-- **A text is written as a string in quotes** that denotes it. -/
theorem isQuoted_quote (s : String) : IsQuoted (quote s).toList (some s) := by
  have hexists : ∀ cs : List Char, ∃ us, AreSpelled us (cs.flatMap escape) ∧ Denote us cs := by
    intro cs
    induction cs with
    | nil => exact ⟨[], .nil, .nil⟩
    | cons c cs ih =>
      obtain ⟨us, hus, hdenote⟩ := ih
      obtain ⟨u, hu, hc⟩ := exists_isSpelling_escape c
      exact ⟨u :: us, .cons hu hus, hc us cs hdenote⟩
  obtain ⟨us, hus, hdenote⟩ := hexists s.toList
  have hquoted := isQuoted_of_areSpelled hus
  rw [(textFrom_eq_some_iff hus).2 hdenote] at hquoted
  rw [quote, String.toList_ofList]
  exact hquoted

end LoxCalc.Json
