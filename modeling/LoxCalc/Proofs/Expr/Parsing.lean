import LoxCalc.Proofs.Expr.Grammar

/-!
# LoxCalc.Proofs.Expr.Parsing — the parser accepts exactly the phrases of the grammar that fit

`Reads m fits read`: on every list of tokens `read` finds the one phrase of rank `m` that the list begins with, and
gives its tree if the tree fits and refuses it otherwise.  There is one closure lemma for each combinator of readers;
`reads_operand` ties them together by induction on the room of nesting.  For whole lists (`parse_of_phrase`,
`exists_phrase_of_parse`): a tree is parsed iff it is the canonical tree of what the list begins with and keeps the
limits.
-/

namespace LoxCalc

open LoxCalc.Expr LoxCalc.Reader

/-- The tokens begin with no binary operator of level `m` or tighter. -/
def Stops (m : Nat) : List Token → Prop
  | [] => True
  | t :: _ => ∀ k, t.kind.binaryRank? = some k → k < m

/-- The answer of a reader that ran out of room. -/
def Refused (answer : Except SyntaxFault (Expr × List Token)) : Prop := ∃ ts, answer = .error ⟨.tooMuchNesting, ts⟩

/-- `read` reads the phrases of rank `m` whose trees fit, and refuses those whose trees do not. -/
structure Reads (m : Nat) (fits : (h : Nat) → Expr → Prop) (read : Reader) : Prop where
  sound {room h : Nat} {ts rest : List Token} {e : Expr} (hh : room + h = maxHeight)
    (hr : read room ts = .ok (e, rest)) : ∃ p, ts = p ++ rest ∧ Phrase m e p ∧ fits h e ∧ Stops m rest
  complete {room h : Nat} {p rest : List Token} {e : Expr} (hh : room + h = maxHeight) (hp : Phrase m e p)
    (hs : Stops m rest) (hf : fits h e) : read room (p ++ rest) = .ok (e, rest)
  refuses {room h : Nat} {p rest : List Token} {e : Expr} (hh : room + h = maxHeight) (hp : Phrase m e p)
    (hs : Stops m rest) (hf : ¬ fits h e) : Refused (read room (p ++ rest))

variable {m d : Nat}

theorem Stops.of_rank_none {t : Token} (h : t.kind.binaryRank? = none) (ts : List Token) : Stops m (t :: ts) := by
  intro k hk
  simp [h] at hk

theorem Stops.mono {m' : Nat} (hm : m ≤ m') {ts : List Token} (h : Stops m ts) : Stops m' ts := by
  cases ts with
  | nil => trivial
  | cons t ts =>
    intro k hk
    exact Nat.lt_of_lt_of_le (h k hk) hm

theorem stops_four (ts : List Token) : Stops 4 ts := by
  cases ts with
  | nil => trivial
  | cons t ts =>
    intro k hk
    exact TokenKind.binaryRank?_lt hk

theorem Expr.Phrase.mono {m' : Nat} (hm : m' ≤ m) {e : Expr} {p : List Token} (h : Phrase m e p) : Phrase m' e p :=
  ⟨Nat.le_trans hm h.rank_le, h.canonical, h.spells⟩

/-! ## Limits of nesting -/

theorem reads_refuse {fits : Nat → Expr → Prop} (hf : ∀ h e, ¬ fits h e) : Reads m fits refuse where
  sound _ hr := by simp [refuse] at hr
  complete _ _ _ hfit := absurd hfit (hf _ _)
  refuses _ _ _ _ := ⟨_, rfl⟩

theorem reads_below {fits : Nat → Expr → Prop} {read : Reader} (hr : Reads m fits read) :
    Reads m (fun h e => h < maxHeight ∧ fits (h + 1) e) (below read) where
  sound {room h ts rest e} hh hok := by
    cases room with
    | zero => simp [below, refuse] at hok
    | succ room =>
      obtain ⟨p, hp, hph, hfit, hst⟩ := hr.sound (h := h + 1) (by omega) hok
      exact ⟨p, hp, hph, ⟨by omega, hfit⟩, hst⟩
  complete {room h p rest e} hh hp hs hf := by
    cases room with
    | zero => omega
    | succ room => exact hr.complete (h := h + 1) (by omega) hp hs hf.2
  refuses {room h p rest e} hh hp hs hf := by
    cases room with
    | zero => exact ⟨_, rfl⟩
    | succ room => exact hr.refuses (h := h + 1) (by omega) hp hs (fun hfit => hf ⟨by omega, hfit⟩)

/-! ## One level of binary operators -/

section Level

variable {isOperator : TokenKind → Bool} {operand : Reader}

theorem stops_of_binaryRank {t : Token} (ht : t.kind.binaryRank? = some m) (ts : List Token) :
    Stops (m + 1) (t :: ts) := by
  intro k hk
  obtain rfl : m = k := by simpa [ht] using hk
  exact Nat.lt_succ_self m

theorem Expr.Tail.stops_append {ops : List (Token × Expr)} {q rest : List Token} (h : Tail m ops q)
    (hs : Stops (m + 1) rest) : Stops (m + 1) (q ++ rest) := by
  cases h with
  | nil => exact hs
  | cons hop _ _ => exact stops_of_binaryRank hop _

theorem Expr.Tail.stops {ops : List (Token × Expr)} {q rest : List Token} (h : Tail m ops q) (hs : Stops m rest) :
    Stops (m + 1) (q ++ rest) :=
  h.stops_append (hs.mono (Nat.le_succ m))

theorem foldRest_nil (room : Nat) (left : Expr) : foldRest isOperator operand room left [] = .ok (left, []) := by
  cases room <;> rfl

theorem foldRest_of_stop {t : Token} (ht : isOperator t.kind = false) (room : Nat) (left : Expr) (ts : List Token) :
    foldRest isOperator operand room left (t :: ts) = .ok (left, t :: ts) := by
  cases room <;> simp [foldRest, ht]

theorem foldRest_of_full {t : Token} (ht : isOperator t.kind = true) (left : Expr) (ts : List Token) :
    foldRest isOperator operand 0 left (t :: ts) = .error ⟨.tooMuchNesting, ts⟩ := by
  simp [foldRest, ht, refuse]

theorem foldRest_of_operator {t : Token} (ht : isOperator t.kind = true) (room : Nat) (left : Expr)
    (ts : List Token) : foldRest isOperator operand (room + 1) left (t :: ts) =
      (operand room ts).bind fun r => foldRest isOperator operand room (.binary left t r.1) r.2 := by
  simp only [foldRest, ht, if_true]
  rfl

variable (hop : ∀ k, isOperator k = true ↔ k.binaryRank? = some m) (hr : Reads (m + 1) (FitsAt d) operand)
include hop

theorem isOperator_eq_false_of_stops {t : Token} {ts : List Token} (hs : Stops m (t :: ts)) :
    isOperator t.kind = false := by
  by_contra hc
  have := hs m ((hop _).1 (by simpa using hc))
  omega

theorem foldRest_of_stops {rest : List Token} (hs : Stops m rest) (room : Nat) (left : Expr) :
    foldRest isOperator operand room left rest = .ok (left, rest) := by
  cases rest with
  | nil => exact foldRest_nil room left
  | cons t ts => exact foldRest_of_stop (isOperator_eq_false_of_stops hop hs) room left ts

/-- After an operand there is an operator of the level, or nothing of the level at all. -/
theorem stops_or_operator {ts : List Token} (hs : Stops (m + 1) ts) :
    Stops m ts ∨ ∃ t ts', ts = t :: ts' ∧ t.kind.binaryRank? = some m ∧ isOperator t.kind = true := by
  cases ts with
  | nil => exact .inl trivial
  | cons t ts =>
    by_cases ht : t.kind.binaryRank? = some m
    · exact .inr ⟨t, ts, rfl, ht, (hop _).2 ht⟩
    · refine .inl ?_
      intro k hk
      have hlt := hs k hk
      have hne : k ≠ m := fun h => ht (h ▸ hk)
      omega

include hr

theorem foldRest_sound : ∀ {room h : Nat} {left e : Expr} {ts rest : List Token}, room + h = maxHeight →
    Stops (m + 1) ts → foldRest isOperator operand room left ts = .ok (e, rest) →
    ∃ ops q, e = left.fold ops ∧ ts = q ++ rest ∧ Tail m ops q ∧ TailFits d h ops ∧ Stops m rest := by
  intro room
  induction room with
  | zero =>
    intro h left e ts rest _ hs hok
    rcases stops_or_operator hop hs with hst | ⟨t, ts, rfl, -, ht⟩
    · rw [foldRest_of_stops hop hst] at hok
      obtain ⟨rfl, rfl⟩ : left = e ∧ ts = rest := by simpa using hok
      exact ⟨[], [], rfl, rfl, .nil, trivial, hst⟩
    · simp [foldRest_of_full ht] at hok
  | succ room ih =>
    intro h left e ts rest hh hs hok
    rcases stops_or_operator hop hs with hst | ⟨t, ts, rfl, hk, ht⟩
    · rw [foldRest_of_stops hop hst] at hok
      obtain ⟨rfl, rfl⟩ : left = e ∧ ts = rest := by simpa using hok
      exact ⟨[], [], rfl, rfl, .nil, trivial, hst⟩
    · rw [foldRest_of_operator ht] at hok
      cases hx : operand room ts with
      | error f => simp [hx, Except.bind] at hok
      | ok answer =>
        obtain ⟨right, after⟩ := answer
        rw [hx] at hok
        obtain ⟨p, rfl, hp, hf, hst⟩ := hr.sound (h := h + 1) (by omega) hx
        obtain ⟨ops, q, rfl, rfl, hq, hfit, hst'⟩ := ih (h := h + 1) (by omega) hst hok
        exact ⟨(t, right) :: ops, t :: (p ++ q), rfl, by simp, .cons hk hp hq, ⟨by omega, hf, hfit⟩, hst'⟩

/-- A chain that fits is read, and reading goes on behind it. -/
theorem foldRest_append {ops : List (Token × Expr)} {q rest : List Token} (hq : Tail m ops q)
    (hs : Stops (m + 1) rest) : ∀ {room h : Nat} (left : Expr), room + h = maxHeight → TailFits d h ops →
    ∃ room', room' + (h + ops.length) = maxHeight ∧
      foldRest isOperator operand room left (q ++ rest) = foldRest isOperator operand room' (left.fold ops) rest := by
  induction hq with
  | nil =>
    intro room h left hh _
    exact ⟨room, hh, rfl⟩
  | @cons op r p ops q hk hp hq ih =>
    intro room h left hh hfit
    obtain ⟨hlt, hf, hfit⟩ := hfit
    obtain ⟨room, rfl⟩ : ∃ n, room = n + 1 := ⟨room - 1, by omega⟩
    have hh' : room + (h + 1) = maxHeight := by omega
    obtain ⟨room', hroom', heq⟩ := ih (.binary left op r) hh' hfit
    refine ⟨room', by simp only [List.length_cons]; omega, ?_⟩
    rw [List.cons_append, foldRest_of_operator ((hop _).2 hk), List.append_assoc,
      hr.complete hh' hp (hq.stops_append hs) hf]
    exact heq

theorem foldRest_complete {ops : List (Token × Expr)} {q rest : List Token} (hq : Tail m ops q)
    (hs : Stops m rest) {room h : Nat} {left : Expr} (hh : room + h = maxHeight) (hfit : TailFits d h ops) :
    foldRest isOperator operand room left (q ++ rest) = .ok (left.fold ops, rest) := by
  obtain ⟨room', -, heq⟩ := foldRest_append hop hr hq (hs.mono (Nat.le_succ m)) left hh hfit
  rw [heq, foldRest_of_stops hop hs]

theorem foldRest_refuses {ops : List (Token × Expr)} {q rest : List Token} (hq : Tail m ops q)
    (hs : Stops m rest) : ∀ {room h : Nat} {left : Expr}, room + h = maxHeight → ¬ TailFits d h ops →
    Refused (foldRest isOperator operand room left (q ++ rest)) := by
  induction hq with
  | nil =>
    intro room h left _ hfit
    exact absurd trivial hfit
  | @cons op r p ops q hk hp hq ih =>
    intro room h left hh hfit
    have ht := (hop _).2 hk
    cases room with
    | zero => exact ⟨_, foldRest_of_full ht _ _⟩
    | succ room =>
      have hh' : room + (h + 1) = maxHeight := by omega
      rw [List.cons_append, foldRest_of_operator ht, List.append_assoc]
      by_cases hf : r.FitsAt d (h + 1)
      · rw [hr.complete hh' hp (hq.stops hs) hf]
        exact ih hh' (fun hfit' => hfit ⟨by omega, hf, hfit'⟩)
      · obtain ⟨ts, hts⟩ := hr.refuses hh' hp (hq.stops hs) hf
        exact ⟨ts, by rw [hts]; rfl⟩

/-- **One level**: over a reader of what binds tighter, the fold reads the phrases of the level. -/
theorem reads_level (hm : m < 4) : Reads m (FitsAt d) (level isOperator operand) where
  sound {room h ts rest e} hh hok := by
    simp only [level] at hok
    cases hx : operand room ts with
    | error f => simp [hx, bind, Except.bind] at hok
    | ok answer =>
      obtain ⟨a, after⟩ := answer
      rw [hx] at hok
      obtain ⟨p, rfl, hp, hf, hst⟩ := hr.sound hh hx
      obtain ⟨ops, q, rfl, rfl, hq, hfit, hst'⟩ := foldRest_sound hop hr hh hst hok
      exact ⟨p ++ q, by simp, hq.phrase_fold (hp.mono (Nat.le_succ m)),
        (fitsAt_fold hp.rank_le hq.rank_eq d h).2 ⟨hf, hfit⟩, hst'⟩
  complete {room h p rest e} hh hp hs hf := by
    obtain ⟨a, ops, p, q, rfl, rfl, ha, hq⟩ := hp.exists_fold hm
    obtain ⟨hfa, hfit⟩ := (fitsAt_fold ha.rank_le hq.rank_eq d h).1 hf
    rw [level, List.append_assoc, hr.complete hh ha (hq.stops hs) hfa]
    exact foldRest_complete hop hr hq hs hh hfit
  refuses {room h p rest e} hh hp hs hf := by
    obtain ⟨a, ops, p, q, rfl, rfl, ha, hq⟩ := hp.exists_fold hm
    rw [level, List.append_assoc]
    by_cases hfa : a.FitsAt d h
    · rw [hr.complete hh ha (hq.stops hs) hfa]
      exact foldRest_refuses hop hr hq hs hh
        (fun hfit => hf ((fitsAt_fold ha.rank_le hq.rank_eq d h).2 ⟨hfa, hfit⟩))
    · obtain ⟨ts, hts⟩ := hr.refuses hh ha (hq.stops hs) hfa
      exact ⟨ts, by rw [hts]; rfl⟩

end Level

theorem reads_levels {operand : Reader} (hr : Reads 4 (FitsAt d) operand) :
    Reads 0 (FitsAt d) (levels operand) := by
  have h3 := reads_level (fun _ => TokenKind.isFactor_iff) hr (by omega)
  have h2 := reads_level (fun _ => TokenKind.isTerm_iff) h3 (by omega)
  have h1 := reads_level (fun _ => TokenKind.isComparison_iff) h2 (by omega)
  exact reads_level (fun _ => TokenKind.isEquality_iff) h1 (by omega)

/-! ## Operands -/

section Operand

variable {prefixed parenthesised : Reader}

theorem operandOf_of_prefixOperator {t : Token} (ht : t.kind.isPrefixOperator = true) (room : Nat) (ts : List Token) :
    operandOf prefixed parenthesised room (t :: ts) =
      (prefixed room ts).bind fun r => .ok (.unary t r.1, r.2) := by
  simp only [operandOf]
  cases hk : t.kind <;> simp [hk, TokenKind.isPrefixOperator] at ht <;> rfl

theorem operandOf_of_leftParen {t : Token} (ht : t.kind = .leftParen) (room : Nat) (ts : List Token) :
    operandOf prefixed parenthesised room (t :: ts) = (parenthesised room ts).bind fun r => close r.1 r.2 := by
  simp only [operandOf, ht]
  rfl

theorem operandOf_of_value {t : Token} {v : Value} (hv : t.value? = some v) (room : Nat) (ts : List Token) :
    operandOf prefixed parenthesised room (t :: ts) = .ok (.literal v, ts) := by
  simp only [operandOf]
  cases hk : t.kind <;> simp_all [Token.value?]
  · obtain ⟨l, hl, rfl⟩ := hv
    simp [hl]
  · obtain ⟨l, hl, rfl⟩ := hv
    simp [hl]

theorem operandOf_of_other {t : Token} (hp : t.kind.isPrefixOperator = false) (hl : t.kind ≠ .leftParen)
    (hv : t.value? = none) (room : Nat) (ts : List Token) :
    operandOf prefixed parenthesised room (t :: ts) = .error ⟨.expectedExpression, t :: ts⟩ := by
  simp only [operandOf]
  cases hk : t.kind <;> simp_all [Token.value?, TokenKind.isPrefixOperator]

theorem close_of_rightParen {inner : Expr} {t : Token} (ht : t.kind = .rightParen) (ts : List Token) :
    close inner (t :: ts) = .ok (.grouping inner, ts) := by
  simp [close, ht]

theorem close_eq_ok {inner e : Expr} {ts rest : List Token} (h : close inner ts = .ok (e, rest)) :
    ∃ t, t.kind = .rightParen ∧ ts = t :: rest ∧ e = .grouping inner := by
  cases ts with
  | nil => simp [close] at h
  | cons t ts =>
    by_cases ht : t.kind = .rightParen
    · rw [close_of_rightParen ht] at h
      obtain ⟨rfl, rfl⟩ : grouping inner = e ∧ ts = rest := by simpa using h
      exact ⟨t, ht, rfl, rfl⟩
    · simp [close, ht] at h

theorem not_phrase_four_binary {l r : Expr} {op : Token} {p : List Token} : ¬ Phrase 4 (binary l op r) p := by
  rintro ⟨hrank, ⟨m, hm, -⟩, -⟩
  have := TokenKind.binaryRank?_lt hm
  simp only [rank, hm, Option.getD_some] at hrank
  omega

/-- What a tree inside one more prefix operator or pair of parentheses has to fit. -/
def FitsInside (d h : Nat) (e : Expr) : Prop := d < maxNesting ∧ h < maxHeight ∧ e.FitsAt (d + 1) (h + 1)

/-- **Operands**: over readers for the operand of a prefix operator and for what stands in parentheses. -/
theorem reads_operandOf (hp : Reads 4 (FitsInside d) prefixed) (hq : Reads 0 (FitsInside d) parenthesised) :
    Reads 4 (FitsAt d) (operandOf prefixed parenthesised) where
  sound {room h ts rest e} hh hok := by
    cases ts with
    | nil => simp [operandOf] at hok
    | cons t ts =>
      by_cases ht : t.kind.isPrefixOperator = true
      · -- a prefix operator
        rw [operandOf_of_prefixOperator ht] at hok
        cases hx : prefixed room ts with
        | error f => simp [hx, Except.bind] at hok
        | ok answer =>
          obtain ⟨right, after⟩ := answer
          obtain ⟨rfl, rfl⟩ : unary t right = e ∧ after = rest := by simpa [hx, Except.bind] using hok
          obtain ⟨p, rfl, hph, hf, -⟩ := hp.sound hh hx
          exact ⟨t :: p, rfl, hph.unary ht (Nat.le_refl 4), hf, stops_four _⟩
      by_cases hl : t.kind = .leftParen
      · -- parentheses
        rw [operandOf_of_leftParen hl] at hok
        cases hx : parenthesised room ts with
        | error f => simp [hx, Except.bind] at hok
        | ok answer =>
          obtain ⟨inner, after⟩ := answer
          obtain ⟨right, hright, rfl, rfl⟩ := close_eq_ok (by simpa [hx, Except.bind] using hok)
          obtain ⟨p, rfl, hph, hf, -⟩ := hq.sound hh hx
          exact ⟨t :: (p ++ [right]), by simp, hph.grouping hl hright (Nat.le_refl 4), hf, stops_four _⟩
      cases hv : t.value? with
      | none =>
        rw [operandOf_of_other (by simpa using ht) hl hv] at hok
        simp at hok
      | some v =>
        rw [operandOf_of_value hv] at hok
        obtain ⟨rfl, rfl⟩ : Expr.literal v = e ∧ ts = rest := by simpa using hok
        exact ⟨[t], rfl, ⟨by simp [rank], trivial, .literal hv⟩, trivial, stops_four _⟩
  complete {room h p rest e} hh hph hs hf := by
    have hc := hph.canonical
    cases hph.spells with
    | literal hv => exact operandOf_of_value hv _ _
    | @unary op e p hsp =>
      obtain ⟨hop, hr, hce⟩ := hc
      rw [List.cons_append, operandOf_of_prefixOperator hop, hp.complete hh ⟨hr, hce, hsp⟩ hs hf]
      rfl
    | @grouping e p left right hl hr hsp =>
      have hin : Phrase 0 e p := ⟨Nat.zero_le _, hc, hsp⟩
      have hst : Stops 0 (right :: rest) := Stops.of_rank_none (by rw [hr]; rfl) rest
      rw [List.cons_append, List.append_assoc, operandOf_of_leftParen hl, List.singleton_append,
        hq.complete hh hin hst hf]
      exact close_of_rightParen hr rest
    | binary _ _ => exact absurd hph not_phrase_four_binary
  refuses {room h p rest e} hh hph hs hf := by
    have hc := hph.canonical
    cases hph.spells with
    | literal hv => exact absurd trivial hf
    | @unary op e p hsp =>
      obtain ⟨hop, hr, hce⟩ := hc
      obtain ⟨ts, hts⟩ := hp.refuses hh ⟨hr, hce, hsp⟩ hs hf
      exact ⟨ts, by rw [List.cons_append, operandOf_of_prefixOperator hop, hts]; rfl⟩
    | @grouping e p left right hl hr hsp =>
      have hin : Phrase 0 e p := ⟨Nat.zero_le _, hc, hsp⟩
      have hst : Stops 0 (right :: rest) := Stops.of_rank_none (by rw [hr]; rfl) rest
      obtain ⟨ts, hts⟩ := hq.refuses hh hin hst hf
      refine ⟨ts, ?_⟩
      rw [List.cons_append, List.append_assoc, operandOf_of_leftParen hl, List.singleton_append, hts]
      rfl
    | binary _ _ => exact absurd hph not_phrase_four_binary

end Operand

theorem reads_inside {m d : Nat} {read : Reader} (hd : d < maxNesting) (hr : Reads m (FitsAt (d + 1)) read) :
    Reads m (FitsInside d) (below read) := by
  have hin : (fun h e => h < maxHeight ∧ Expr.FitsAt (d + 1) (h + 1) e) = FitsInside d := by
    funext h e
    simp [FitsInside, hd]
  exact hin ▸ reads_below hr

/-- **The reader of operands** in a room of `n`, below `d` prefix operators and parentheses. -/
theorem reads_operand (n : Nat) : ∀ {d : Nat}, n + d = maxNesting → Reads 4 (FitsAt d) (operand n) := by
  induction n with
  | zero =>
    intro d hd
    have hno : ∀ h e, ¬ FitsInside d h e := fun h e hf => by
      have := hf.1
      omega
    exact reads_operandOf (reads_refuse hno) (reads_refuse hno)
  | succ n ih =>
    intro d hd
    have hlt : d < maxNesting := by omega
    have hr : Reads 4 (FitsAt (d + 1)) (operand n) := ih (by omega)
    exact reads_operandOf (reads_inside hlt hr) (reads_inside hlt (reads_levels hr))

theorem reads_expression : Reads 0 (FitsAt 0) (expression maxNesting) := reads_levels (reads_operand _ rfl)

/-! ## Whole lists -/

theorem stops_zero_iff {ts : List Token} : Stops 0 ts ↔ ∀ t ∈ ts.head?, t.kind.isBinaryOperator = false := by
  cases ts with
  | nil => simp [Stops]
  | cons t ts =>
    simp only [Stops, List.head?_cons, Option.mem_def, Option.some.injEq, forall_eq',
      TokenKind.isBinaryOperator, Option.isSome_eq_false_iff, Option.isNone_iff_eq_none]
    cases t.kind.binaryRank? <;> simp

/-- The phrase that a list of tokens begins with, and the outcome of parsing it. -/
theorem parse_of_phrase {tokens p rest : List Token} {e : Expr}
    (hb : tokens.takeWhile (·.kind != .eof) = p ++ rest) (hp : Phrase 0 e p) (hs : Stops 0 rest) :
    (e.FitsAt 0 0 → parse tokens = .ok e) ∧
      (¬ e.FitsAt 0 0 → ∃ t, parse tokens = .error (.atToken t SyntaxCause.tooMuchNesting.message)) := by
  have hbody : (EndedTokens.ofList tokens).body = p ++ rest := hb
  constructor
  · intro hf
    simp only [parse, EndedTokens.parse, hbody, reads_expression.complete (Nat.add_zero maxHeight) hp hs hf]
  · intro hf
    obtain ⟨ts, hts⟩ := reads_expression.refuses (Nat.add_zero maxHeight) hp hs hf
    simp only [parse, EndedTokens.parse, hbody, hts]
    exact ⟨_, rfl⟩

theorem exists_phrase_of_parse {tokens : List Token} {e : Expr} (h : parse tokens = .ok e) :
    ∃ p rest, tokens.takeWhile (·.kind != .eof) = p ++ rest ∧ Phrase 0 e p ∧ e.FitsAt 0 0 ∧ Stops 0 rest := by
  simp only [parse, EndedTokens.parse] at h
  cases hx : expression maxNesting maxHeight (EndedTokens.ofList tokens).body with
  | error f => simp [hx] at h
  | ok answer =>
    obtain ⟨e', rest⟩ := answer
    obtain rfl : e' = e := by simpa [hx] using h
    obtain ⟨p, hp, hph, hf, hs⟩ := reads_expression.sound (Nat.add_zero maxHeight) hx
    exact ⟨p, rest, hp, hph, hf, hs⟩

/-- **Exactness of the parser**: a list of tokens is parsed as `e` iff the tokens before the first end begin with the
tokens of `e`, no binary operator follows, and `e` is a canonical tree within the limits. -/
theorem parse_eq_ok_iff (tokens : List Token) (e : Expr) :
    parse tokens = .ok e ↔
      ∃ p rest, tokens.takeWhile (·.kind != .eof) = p ++ rest ∧
        (∀ t ∈ rest.head?, t.kind.isBinaryOperator = false) ∧ e.Canonical ∧ e.Spells p ∧ e.FitsAt 0 0 := by
  constructor
  · intro h
    obtain ⟨p, rest, hb, hp, hf, hs⟩ := exists_phrase_of_parse h
    exact ⟨p, rest, hb, stops_zero_iff.1 hs, hp.canonical, hp.spells, hf⟩
  · rintro ⟨p, rest, hb, hs, hc, hsp, hf⟩
    exact (parse_of_phrase hb ⟨Nat.zero_le _, hc, hsp⟩ (stops_zero_iff.2 hs)).1 hf

end LoxCalc
