import LoxCalc.Proofs.Expr.Parsing

/-!
# LoxCalc.Proofs.Expr.BreaksOff — where and why reading a phrase breaks off

`BreaksOff m d h cause p rest`: a phrase of rank `m`, below `d` prefix operators and parentheses and at height `h`, is
read up to the tokens `p` and cannot be read on at `rest`.  It is an obstacle (`Obstacle`) at an operand that is due
there, or inside a prefix operator, inside parentheses, or in the right operand of a binary operator.

`FailsAs breaks read` says that a reader fails exactly there and for that cause.  As for `Reads`, there is one closure
lemma for each combinator of readers, and `failsAs_operand` ties them together.
-/

namespace LoxCalc

open LoxCalc.Expr LoxCalc.Reader

/-! ## Obstacles -/

/-- How many operators of level `m` a tree begins with. -/
def Expr.levelLength (m : Nat) (e : Expr) : Nat := if e.rank = m then e.chainLength else 0

/-- There is room for one more prefix operator or pair of parentheses. -/
def HasRoom (d h : Nat) : Prop := d < maxNesting ∧ h < maxHeight

/-- No operand begins here. -/
def NoOperand (ts : List Token) : Prop :=
  ∀ t ∈ ts.head?, t.kind.isPrefixOperator = false ∧ t.kind ≠ .leftParen ∧ t.value? = none

/-- Where a phrase of rank `m` is due, its first tokens `p` are read and it goes on with `rest`, which is refused. -/
inductive Obstacle (m d h : Nat) : SyntaxCause → (p rest : List Token) → Prop
  | noOperand {rest : List Token} (hr : NoOperand rest) : Obstacle m d h .expectedExpression [] rest
  | notClosed {left : Token} {e : Expr} {q rest : List Token} (hl : left.kind = .leftParen) (hq : Phrase 0 e q)
      (hf : FitsInside d h e) (hs : Stops 0 rest) (hr : ∀ t ∈ rest.head?, t.kind ≠ .rightParen) :
      Obstacle m d h .expectedClosing (left :: q) rest
  | tooDeep {t : Token} {rest : List Token} (ht : t.kind.isPrefixOperator = true ∨ t.kind = .leftParen)
      (hroom : ¬ HasRoom d h) : Obstacle m d h .tooMuchNesting [t] rest
  | tooHigh {k : Nat} {l : Expr} {op : Token} {p rest : List Token} (hk : m ≤ k) (hl : Phrase k l p)
      (hop : op.kind.binaryRank? = some k) (hf : l.FitsAt d h) (hroom : ¬ h + l.levelLength k < maxHeight) :
      Obstacle m d h .tooMuchNesting (p ++ [op]) rest

/-- Reading a phrase of rank `m` meets an obstacle after the tokens `p`. -/
inductive BreaksOff : (m d h : Nat) → SyntaxCause → (p rest : List Token) → Prop
  | here {m d h : Nat} {cause : SyntaxCause} {p rest : List Token} (ho : Obstacle m d h cause p rest) :
      BreaksOff m d h cause p rest
  | prefixed {m d h : Nat} {cause : SyntaxCause} {op : Token} {p rest : List Token}
      (hop : op.kind.isPrefixOperator = true) (hroom : HasRoom d h)
      (hb : BreaksOff 4 (d + 1) (h + 1) cause p rest) : BreaksOff m d h cause (op :: p) rest
  | parenthesised {m d h : Nat} {cause : SyntaxCause} {left : Token} {p rest : List Token}
      (hl : left.kind = .leftParen) (hroom : HasRoom d h)
      (hb : BreaksOff 0 (d + 1) (h + 1) cause p rest) : BreaksOff m d h cause (left :: p) rest
  | right {m d h k : Nat} {cause : SyntaxCause} {l : Expr} {op : Token} {p q rest : List Token} (hk : m ≤ k)
      (hl : Phrase k l p) (hop : op.kind.binaryRank? = some k) (hf : l.FitsAt d h)
      (hroom : h + l.levelLength k < maxHeight)
      (hb : BreaksOff (k + 1) d (h + l.levelLength k + 1) cause q rest) :
      BreaksOff m d h cause (p ++ op :: q) rest

section Ranks

variable {m d h : Nat} {cause : SyntaxCause} {p rest : List Token}

theorem BreaksOff.mono {m' : Nat} (hm : m' ≤ m) (hb : BreaksOff m d h cause p rest) :
    BreaksOff m' d h cause p rest := by
  cases hb with
  | here ho =>
    refine .here ?_
    cases ho with
    | noOperand hr => exact .noOperand hr
    | notClosed hl hq hf hs hr => exact .notClosed hl hq hf hs hr
    | tooDeep ht hroom => exact .tooDeep ht hroom
    | tooHigh hk hl hop hf hroom => exact .tooHigh (Nat.le_trans hm hk) hl hop hf hroom
  | prefixed hop hroom hb => exact .prefixed hop hroom hb
  | parenthesised hl hroom hb => exact .parenthesised hl hroom hb
  | right hk hl hop hf hroom hb => exact .right (Nat.le_trans hm hk) hl hop hf hroom hb

/-- What goes wrong at an operator of level `m` after a tree of the level: there is no room for it, or its right operand
breaks off. -/
def BreaksOffAfter (m d h : Nat) (cause : SyntaxCause) (s rest : List Token) : Prop :=
  (¬ h < maxHeight ∧ cause = .tooMuchNesting ∧ s = []) ∨ (h < maxHeight ∧ BreaksOff (m + 1) d (h + 1) cause s rest)

/-- **Breaking off on one level**: in the operand it begins with, or at an operator of the level. -/
theorem breaksOff_level_iff : BreaksOff m d h cause p rest ↔ BreaksOff (m + 1) d h cause p rest ∨
    ∃ l q op s, p = q ++ op :: s ∧ Phrase m l q ∧ op.kind.binaryRank? = some m ∧ l.FitsAt d h ∧
      BreaksOffAfter m d (h + l.levelLength m) cause s rest := by
  constructor
  · intro hb
    cases hb with
    | here ho =>
      cases ho with
      | noOperand hr => exact .inl (.here (.noOperand hr))
      | notClosed hl hq hf hs hr => exact .inl (.here (.notClosed hl hq hf hs hr))
      | tooDeep ht hroom => exact .inl (.here (.tooDeep ht hroom))
      | tooHigh hk hl hop hf hroom =>
        rcases Nat.lt_or_eq_of_le hk with hk | rfl
        · exact .inl (.here (.tooHigh hk hl hop hf hroom))
        · exact .inr ⟨_, _, _, [], rfl, hl, hop, hf, .inl ⟨hroom, rfl, rfl⟩⟩
    | prefixed hop hroom hb => exact .inl (.prefixed hop hroom hb)
    | parenthesised hl hroom hb => exact .inl (.parenthesised hl hroom hb)
    | right hk hl hop hf hroom hb =>
      rcases Nat.lt_or_eq_of_le hk with hk | rfl
      · exact .inl (.right hk hl hop hf hroom hb)
      · exact .inr ⟨_, _, _, _, rfl, hl, hop, hf, .inr ⟨hroom, hb⟩⟩
  · rintro (hb | ⟨l, q, op, s, rfl, hl, hop, hf, ⟨hroom, rfl, rfl⟩ | ⟨hroom, hb⟩⟩)
    · exact hb.mono (Nat.le_succ m)
    · exact .here (.tooHigh (Nat.le_refl m) hl hop hf hroom)
    · exact .right (Nat.le_refl m) hl hop hf hroom hb

end Ranks

/-! ## Readers that fail there -/

/-- One after the other: the first fails, or the second does on its answer. -/
theorem bind_eq_error_iff {ε α β : Type} {x : Except ε α} {f : α → Except ε β} {e : ε} :
    x.bind f = .error e ↔ x = .error e ∨ ∃ a, x = .ok a ∧ f a = .error e := by
  cases x <;> simp [Except.bind]

theorem bind_eq_ok_iff {ε α β : Type} {x : Except ε α} {f : α → Except ε β} {b : β} :
    x.bind f = .ok b ↔ ∃ a, x = .ok a ∧ f a = .ok b := by
  cases x <;> simp [Except.bind]

/-- `read` fails exactly where and why `breaks` says. -/
structure FailsAs (breaks : (h : Nat) → SyntaxCause → (p rest : List Token) → Prop) (read : Reader) : Prop where
  error_iff {room h : Nat} {ts rest : List Token} {cause : SyntaxCause} (hh : room + h = maxHeight) :
    read room ts = .error ⟨cause, rest⟩ ↔ ∃ p, ts = p ++ rest ∧ breaks h cause p rest

/-- Breaking off inside one more prefix operator or pair of parentheses, or for want of room for it. -/
def BreaksOffInside (m d h : Nat) (cause : SyntaxCause) (p rest : List Token) : Prop :=
  (¬ HasRoom d h ∧ cause = .tooMuchNesting ∧ p = []) ∨ (HasRoom d h ∧ BreaksOff m (d + 1) (h + 1) cause p rest)

section Inside

variable {m d : Nat} {read : Reader}

theorem refuse_eq_error_iff (room : Nat) {ts rest : List Token} {cause : SyntaxCause} :
    refuse room ts = .error ⟨cause, rest⟩ ↔ cause = .tooMuchNesting ∧ ts = rest := by
  simp only [refuse, Except.error.injEq, SyntaxFault.mk.injEq, eq_comm (a := SyntaxCause.tooMuchNesting)]

/-- Without room everything is refused at once. -/
theorem refuse_eq_error_iff_of_full {h : Nat} (hroom : ¬ HasRoom d h) (room : Nat) {ts rest : List Token}
    {cause : SyntaxCause} :
    refuse room ts = .error ⟨cause, rest⟩ ↔ ∃ p, ts = p ++ rest ∧ BreaksOffInside m d h cause p rest := by
  rw [refuse_eq_error_iff]
  constructor
  · rintro ⟨rfl, rfl⟩
    exact ⟨[], rfl, .inl ⟨hroom, rfl, rfl⟩⟩
  · rintro ⟨p, rfl, ⟨-, rfl, rfl⟩ | ⟨h, -⟩⟩
    · exact ⟨rfl, rfl⟩
    · exact absurd h hroom

theorem failsAs_refuse (hd : ¬ d < maxNesting) : FailsAs (BreaksOffInside m d) refuse where
  error_iff _ := refuse_eq_error_iff_of_full (fun hroom => hd hroom.1) _

theorem failsAs_below (hd : d < maxNesting) (hf : FailsAs (BreaksOff m (d + 1)) read) :
    FailsAs (BreaksOffInside m d) (below read) where
  error_iff {room h ts rest cause} hh := by
    cases room with
    | zero =>
      have hfull : ¬ HasRoom d h := fun hroom => absurd hroom.2 (by omega)
      exact refuse_eq_error_iff_of_full hfull 0
    | succ room =>
      have hroom : HasRoom d h := ⟨hd, by omega⟩
      rw [below, hf.error_iff (h := h + 1) (by omega)]
      simp only [BreaksOffInside, hroom, not_true, false_and, true_and, false_or]

variable {h : Nat} {cause : SyntaxCause} {t : Token} {p rest : List Token}

theorem BreaksOffInside.prefixed (hb : BreaksOffInside 4 d h cause p rest) (ht : t.kind.isPrefixOperator = true) :
    BreaksOff m d h cause (t :: p) rest := by
  rcases hb with ⟨hroom, rfl, rfl⟩ | ⟨hroom, hb⟩
  · exact .here (.tooDeep (.inl ht) hroom)
  · exact .prefixed ht hroom hb

theorem BreaksOffInside.parenthesised (hb : BreaksOffInside 0 d h cause p rest) (ht : t.kind = .leftParen) :
    BreaksOff m d h cause (t :: p) rest := by
  rcases hb with ⟨hroom, rfl, rfl⟩ | ⟨hroom, hb⟩
  · exact .here (.tooDeep (.inr ht) hroom)
  · exact .parenthesised ht hroom hb

end Inside

/-! ## One level of binary operators -/

section Level

variable {m d : Nat} {isOperator : TokenKind → Bool} {operand : Reader}

theorem Expr.levelLength_fold {a : Expr} {ops : List (Token × Expr)} (ha : m < a.rank)
    (ho : ∀ o ∈ ops, o.1.kind.binaryRank? = some m) : (a.fold ops).levelLength m = ops.length := by
  by_cases hne : ops = []
  · subst hne
    exact if_neg (Nat.ne_of_gt ha)
  · rw [levelLength, if_pos (rank_fold ho hne), chainLength_fold ha ho hne]

theorem foldRest_eq_error_iff {t : Token} (ht : isOperator t.kind = true) {room : Nat} {left : Expr}
    {ts : List Token} {f : SyntaxFault} : foldRest isOperator operand (room + 1) left (t :: ts) = .error f ↔
      operand room ts = .error f ∨ ∃ r rest, operand room ts = .ok (r, rest) ∧
        foldRest isOperator operand room (.binary left t r) rest = .error f := by
  rw [foldRest_of_operator ht, bind_eq_error_iff, Prod.exists]

theorem level_eq_error_iff {room : Nat} {ts : List Token} {f : SyntaxFault} :
    level isOperator operand room ts = .error f ↔ operand room ts = .error f ∨
      ∃ a rest, operand room ts = .ok (a, rest) ∧ foldRest isOperator operand room a rest = .error f := by
  have hbind : level isOperator operand room ts =
      (operand room ts).bind fun r => foldRest isOperator operand room r.1 r.2 := rfl
  rw [hbind, bind_eq_error_iff, Prod.exists]

variable (hop : ∀ k, isOperator k = true ↔ k.binaryRank? = some m) (hr : Reads (m + 1) (FitsAt d) operand)
include hop hr

/-- A chain breaks off at one of its operators, behind those that fit. -/
theorem exists_tail_of_foldRest_error (hf : FailsAs (BreaksOff (m + 1) d) operand) :
    ∀ {room h : Nat} {left : Expr} {ts rest : List Token} {cause : SyntaxCause}, room + h = maxHeight →
    Stops (m + 1) ts → foldRest isOperator operand room left ts = .error ⟨cause, rest⟩ →
    ∃ ops q t s, ts = q ++ t :: (s ++ rest) ∧ Tail m ops q ∧ TailFits d h ops ∧ t.kind.binaryRank? = some m ∧
      BreaksOffAfter m d (h + ops.length) cause s rest := by
  intro room
  induction room with
  | zero =>
    intro h left ts rest cause hh hs herror
    rcases stops_or_operator hop hs with hst | ⟨t, ts, rfl, hk, ht⟩
    · simp [foldRest_of_stops hop hst] at herror
    · obtain ⟨rfl, rfl⟩ : SyntaxCause.tooMuchNesting = cause ∧ ts = rest := by
        simpa [foldRest_of_full ht] using herror
      have hfull : ¬ h < maxHeight := by omega
      exact ⟨[], [], t, [], rfl, .nil, trivial, hk, .inl ⟨hfull, rfl, rfl⟩⟩
  | succ room ih =>
    intro h left ts rest cause hh hs herror
    rcases stops_or_operator hop hs with hst | ⟨t, ts, rfl, hk, ht⟩
    · simp [foldRest_of_stops hop hst] at herror
    · rcases (foldRest_eq_error_iff ht).1 herror with hright | ⟨r, after, hok, hrest⟩
      · -- the right operand of the first operator
        obtain ⟨s, rfl, hb⟩ := (hf.error_iff (h := h + 1) (by omega)).1 hright
        have hlt : h < maxHeight := by omega
        exact ⟨[], [], t, s, rfl, .nil, trivial, hk, .inr ⟨hlt, hb⟩⟩
      · -- behind it
        obtain ⟨p, rfl, hp, hfit, hst⟩ := hr.sound (h := h + 1) (by omega) hok
        obtain ⟨ops, q, u, s, rfl, hq, hfits, hu, hb⟩ := ih (h := h + 1) (by omega) hst hrest
        have hlen : h + ((t, r) :: ops).length = h + 1 + ops.length := by
          rw [List.length_cons]
          omega
        refine ⟨(t, r) :: ops, t :: (p ++ q), u, s, by simp, .cons hk hp hq, ⟨by omega, hfit, hfits⟩, hu, ?_⟩
        rw [hlen]
        exact hb

/-- **One level**: over an operand, reading breaks off in the first operand or at an operator of the level. -/
theorem failsAs_level (hm : m < 4) (hf : FailsAs (BreaksOff (m + 1) d) operand) :
    FailsAs (BreaksOff m d) (level isOperator operand) where
  error_iff {room h ts rest cause} hh := by
    rw [level_eq_error_iff]
    constructor
    · rintro (herror | ⟨a, after, hok, herror⟩)
      · obtain ⟨p, hp, hb⟩ := (hf.error_iff hh).1 herror
        exact ⟨p, hp, hb.mono (Nat.le_succ m)⟩
      · obtain ⟨p, rfl, hp, hfit, hst⟩ := hr.sound hh hok
        obtain ⟨ops, q, t, s, rfl, hq, hfits, ht, hb⟩ := exists_tail_of_foldRest_error hop hr hf hh hst herror
        have hl : Phrase m (a.fold ops) (p ++ q) := hq.phrase_fold (hp.mono (Nat.le_succ m))
        have hfl : (a.fold ops).FitsAt d h := (fitsAt_fold hp.rank_le hq.rank_eq d h).2 ⟨hfit, hfits⟩
        rw [← levelLength_fold hp.rank_le hq.rank_eq] at hb
        exact ⟨p ++ q ++ t :: s, by simp, breaksOff_level_iff.2 (.inr ⟨_, _, t, s, rfl, hl, ht, hfl, hb⟩)⟩
    · rintro ⟨p, rfl, hb⟩
      rcases breaksOff_level_iff.1 hb with hfirst | ⟨l, q, t, s, rfl, hl, ht, hfit, hafter⟩
      · exact .inl ((hf.error_iff hh).2 ⟨p, rfl, hfirst⟩)
      · obtain ⟨a, ops, p, q, rfl, rfl, ha, hq⟩ := hl.exists_fold hm
        obtain ⟨hfa, hfits⟩ := (fitsAt_fold ha.rank_le hq.rank_eq d h).1 hfit
        rw [levelLength_fold ha.rank_le hq.rank_eq] at hafter
        have hstops : Stops (m + 1) (t :: (s ++ rest)) := stops_of_binaryRank ht _
        have hisop := (hop _).2 ht
        refine .inr ⟨a, q ++ t :: (s ++ rest), ?_, ?_⟩
        · rw [← hr.complete hh ha (hq.stops_append hstops) hfa]
          simp
        · obtain ⟨room', hroom', heq⟩ := foldRest_append hop hr hq hstops a hh hfits
          rw [heq]
          rcases hafter with ⟨hfull, rfl, rfl⟩ | ⟨hlt, hright⟩
          · obtain rfl : room' = 0 := by omega
            exact foldRest_of_full hisop _ _
          · obtain ⟨room', rfl⟩ : ∃ n, room' = n + 1 := ⟨room' - 1, by omega⟩
            exact (foldRest_eq_error_iff hisop).2 (.inl ((hf.error_iff (by omega)).2 ⟨s, rfl, hright⟩))

end Level

theorem failsAs_levels {d : Nat} {operand : Reader} (hr : Reads 4 (FitsAt d) operand)
    (hf : FailsAs (BreaksOff 4 d) operand) : FailsAs (BreaksOff 0 d) (levels operand) := by
  have hr3 := reads_level (fun _ => TokenKind.isFactor_iff) hr (by omega)
  have hr2 := reads_level (fun _ => TokenKind.isTerm_iff) hr3 (by omega)
  have hr1 := reads_level (fun _ => TokenKind.isComparison_iff) hr2 (by omega)
  have hf3 := failsAs_level (fun _ => TokenKind.isFactor_iff) hr (by omega) hf
  have hf2 := failsAs_level (fun _ => TokenKind.isTerm_iff) hr3 (by omega) hf3
  have hf1 := failsAs_level (fun _ => TokenKind.isComparison_iff) hr2 (by omega) hf2
  exact failsAs_level (fun _ => TokenKind.isEquality_iff) hr1 (by omega) hf1

/-! ## Operands -/

section Operand

variable {d : Nat} {prefixed parenthesised : Reader}

theorem close_eq_error_iff {inner : Expr} {ts rest : List Token} {cause : SyntaxCause} :
    close inner ts = .error ⟨cause, rest⟩ ↔
      cause = .expectedClosing ∧ ts = rest ∧ ∀ t ∈ ts.head?, t.kind ≠ .rightParen := by
  cases ts with
  | nil => simp [close, eq_comm (a := SyntaxCause.expectedClosing)]
  | cons t ts =>
    by_cases ht : t.kind = .rightParen
    · simp [close, ht]
    · simp [close, ht, eq_comm (a := SyntaxCause.expectedClosing)]

theorem operandOf_eq_error_of_prefixOperator {t : Token} (ht : t.kind.isPrefixOperator = true) {room : Nat}
    {ts : List Token} {f : SyntaxFault} :
    operandOf prefixed parenthesised room (t :: ts) = .error f ↔ prefixed room ts = .error f := by
  rw [operandOf_of_prefixOperator ht, bind_eq_error_iff]
  simp

theorem operandOf_eq_error_of_leftParen {t : Token} (ht : t.kind = .leftParen) {room : Nat} {ts : List Token}
    {f : SyntaxFault} : operandOf prefixed parenthesised room (t :: ts) = .error f ↔
      parenthesised room ts = .error f ∨
        ∃ e rest, parenthesised room ts = .ok (e, rest) ∧ close e rest = .error f := by
  rw [operandOf_of_leftParen ht, bind_eq_error_iff, Prod.exists]

theorem operandOf_of_noOperand {rest : List Token} (hr : NoOperand rest) (room : Nat) :
    operandOf prefixed parenthesised room rest = .error ⟨.expectedExpression, rest⟩ := by
  cases rest with
  | nil => rfl
  | cons t ts =>
    obtain ⟨hp, hl, hv⟩ := hr t rfl
    exact operandOf_of_other hp hl hv room ts

/-- What can stand in front of an operand. -/
theorem operand_cases (ts : List Token) : NoOperand ts ∨ ∃ t ts', ts = t :: ts' ∧
    (t.kind.isPrefixOperator = true ∨ t.kind = .leftParen ∨ ∃ v, t.value? = some v) := by
  cases ts with
  | nil => exact .inl nofun
  | cons t ts =>
    by_cases hp : t.kind.isPrefixOperator = true
    · exact .inr ⟨t, ts, rfl, .inl hp⟩
    by_cases hl : t.kind = .leftParen
    · exact .inr ⟨t, ts, rfl, .inr (.inl hl)⟩
    cases hv : t.value? with
    | some v => exact .inr ⟨t, ts, rfl, .inr (.inr ⟨v, hv⟩)⟩
    | none =>
      refine .inl ?_
      rintro s ⟨⟩
      exact ⟨by simpa using hp, hl, hv⟩

/-- **Operands**: over readers for the operand of a prefix operator and for what stands in parentheses. -/
theorem failsAs_operandOf (hp : FailsAs (BreaksOffInside 4 d) prefixed)
    (hq : FailsAs (BreaksOffInside 0 d) parenthesised) (hr : Reads 0 (FitsInside d) parenthesised) :
    FailsAs (BreaksOff 4 d) (operandOf prefixed parenthesised) where
  error_iff {room h ts rest cause} hh := by
    constructor
    · intro herror
      rcases operand_cases ts with hno | ⟨t, ts, rfl, ht | ht | ⟨v, hv⟩⟩
      · obtain ⟨rfl, rfl⟩ : SyntaxCause.expectedExpression = cause ∧ ts = rest := by
          simpa [operandOf_of_noOperand hno] using herror
        exact ⟨[], rfl, .here (.noOperand hno)⟩
      · obtain ⟨p, rfl, hb⟩ := (hp.error_iff hh).1 ((operandOf_eq_error_of_prefixOperator ht).1 herror)
        exact ⟨t :: p, rfl, hb.prefixed ht⟩
      · rcases (operandOf_eq_error_of_leftParen ht).1 herror with hinner | ⟨e, after, hok, hclose⟩
        · obtain ⟨p, rfl, hb⟩ := (hq.error_iff hh).1 hinner
          exact ⟨t :: p, rfl, hb.parenthesised ht⟩
        · obtain ⟨p, rfl, hph, hf, hs⟩ := hr.sound hh hok
          obtain ⟨rfl, rfl, hclosing⟩ := close_eq_error_iff.1 hclose
          exact ⟨t :: p, rfl, .here (.notClosed ht hph hf hs hclosing)⟩
      · simp [operandOf_of_value hv] at herror
    · rintro ⟨p, rfl, hb⟩
      -- no binary operator is read as part of an operand
      have hlevel {k : Nat} {op : Token} (hk : 4 ≤ k) (hop : op.kind.binaryRank? = some k) : False :=
        absurd (TokenKind.binaryRank?_lt hop) (Nat.not_lt.2 hk)
      cases hb with
      | here ho =>
        cases ho with
        | noOperand hno => exact operandOf_of_noOperand hno room
        | @notClosed left e q _ hl hph hf hs hclosing =>
          have hok := hr.complete hh hph hs hf
          exact (operandOf_eq_error_of_leftParen hl).2
            (.inr ⟨e, rest, hok, close_eq_error_iff.2 ⟨rfl, rfl, hclosing⟩⟩)
        | tooDeep ht hroom =>
          rcases ht with ht | ht
          · exact (operandOf_eq_error_of_prefixOperator ht).2
              ((hp.error_iff hh).2 ⟨[], rfl, .inl ⟨hroom, rfl, rfl⟩⟩)
          · exact (operandOf_eq_error_of_leftParen ht).2
              (.inl ((hq.error_iff hh).2 ⟨[], rfl, .inl ⟨hroom, rfl, rfl⟩⟩))
        | tooHigh hk _ hop _ _ => exact (hlevel hk hop).elim
      | prefixed hop hroom hb =>
        exact (operandOf_eq_error_of_prefixOperator hop).2 ((hp.error_iff hh).2 ⟨_, rfl, .inr ⟨hroom, hb⟩⟩)
      | parenthesised hl hroom hb =>
        exact (operandOf_eq_error_of_leftParen hl).2 (.inl ((hq.error_iff hh).2 ⟨_, rfl, .inr ⟨hroom, hb⟩⟩))
      | right hk _ hop _ _ _ => exact (hlevel hk hop).elim

end Operand

/-- **The reader of operands** in a room of `n`, below `d` prefix operators and parentheses. -/
theorem failsAs_operand (n : Nat) : ∀ {d : Nat}, n + d = maxNesting → FailsAs (BreaksOff 4 d) (operand n) := by
  induction n with
  | zero =>
    intro d hd
    have hfull : ¬ d < maxNesting := by omega
    exact failsAs_operandOf (failsAs_refuse hfull) (failsAs_refuse hfull) (reads_refuse fun _ _ hf => hfull hf.1)
  | succ n ih =>
    intro d hd
    have hlt : d < maxNesting := by omega
    have hr : Reads 4 (FitsAt (d + 1)) (operand n) := reads_operand n (by omega)
    have hf : FailsAs (BreaksOff 4 (d + 1)) (operand n) := ih (by omega)
    exact failsAs_operandOf (failsAs_below hlt hf) (failsAs_below hlt (failsAs_levels hr hf))
      (reads_inside hlt (reads_levels hr))

theorem failsAs_expression : FailsAs (BreaksOff 0 0) (expression maxNesting) :=
  failsAs_levels (reads_operand _ rfl) (failsAs_operand _ rfl)

end LoxCalc
