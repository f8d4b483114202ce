import LoxCalc.Proofs.Expr.Cursor
import LoxCalc.Proofs.Expr.Parsing

/-!
# LoxCalc.Proofs.Expr.InRange — reading in place stays in range

From every sound state the actions of `LoxCalc.Proofs.Expr.Cursor` have an outcome, and it is the answer of the readers
on the tokens from the cursor to the first end: `Tracks ts d x read`, with one closure lemma for each way to combine
actions, tied together by induction on the calls left (`tracks_operand`).  The same holds of the search for a
statement boundary (`exists_runs_synchronize`).

So no token is looked up behind the first end, and what stands there has no influence (`parseAfter_inRange`).
-/

namespace LoxCalc

/-! ## Operands without a prefix operator -/

/-- An operand with no prefix operator in front, given how to read what is in parentheses. -/
def Reader.primaryOf (parenthesised : Reader) : Reader
  | _, [] => .error ⟨.expectedExpression, []⟩
  | height, t :: ts =>
    if t.kind.isPrefixOperator then .error ⟨.expectedExpression, t :: ts⟩
    else operandOf refuse parenthesised height (t :: ts)

section PrimaryOf

open Reader

variable {parenthesised : Reader} {t : Token}

theorem primaryOf_of_not_prefixOperator (prefixed : Reader) (ht : t.kind.isPrefixOperator = false) (room : Nat)
    (ts : List Token) :
    primaryOf parenthesised room (t :: ts) = operandOf prefixed parenthesised room (t :: ts) := by
  simp only [primaryOf, ht, operandOf]
  cases hk : t.kind <;> simp [hk, TokenKind.isPrefixOperator] at ht <;> rfl

theorem primaryOf_of_leftParen (ht : t.kind = .leftParen) (room : Nat) (ts : List Token) :
    primaryOf parenthesised room (t :: ts) = (parenthesised room ts).bind fun r => close r.1 r.2 := by
  have hp : t.kind.isPrefixOperator = false := by
    rw [ht]
    rfl
  rw [primaryOf_of_not_prefixOperator refuse hp, operandOf_of_leftParen ht]

theorem primaryOf_of_value {v : Value} (hv : t.value? = some v) (room : Nat) (ts : List Token) :
    primaryOf parenthesised room (t :: ts) = .ok (.literal v, ts) := by
  have hp : t.kind.isPrefixOperator = false := by
    cases hk : t.kind <;> simp_all [Token.value?, TokenKind.isPrefixOperator]
  rw [primaryOf_of_not_prefixOperator refuse hp, operandOf_of_value hv]

theorem primaryOf_of_other (hl : t.kind ≠ .leftParen) (hv : t.value? = none) (room : Nat) (ts : List Token) :
    primaryOf parenthesised room (t :: ts) = .error ⟨.expectedExpression, t :: ts⟩ := by
  cases hp : t.kind.isPrefixOperator with
  | true => simp only [primaryOf, hp, if_true]
  | false => rw [primaryOf_of_not_prefixOperator refuse hp, operandOf_of_other hp hl hv]

theorem operandOf_of_primaryOf (prefixed : Reader) {room : Nat} {ts : List Token} {r : Expr × List Token}
    (h : primaryOf parenthesised room ts = .ok r) : operandOf prefixed parenthesised room ts = .ok r := by
  cases ts with
  | nil => cases h
  | cons t ts =>
    cases hp : t.kind.isPrefixOperator with
    | true => simp [primaryOf, hp] at h
    | false => rwa [← primaryOf_of_not_prefixOperator prefixed hp]

end PrimaryOf

namespace Cursor

/-! ## Answers of readers -/

/-- What is left of the answer of a reader when the list stays where it is. -/
def resultOf (ending : Token) : Except SyntaxFault (Expr × List Token) → Except SyntaxError Expr
  | .ok r => .ok r.1
  | .error f => .error (f.toError ending)

/-- The action has the result of the answer, and the tokens left stand at the cursor. -/
structure Answers (ts : EndedTokens) (x : Action Expr) (c : Cursor)
    (answer : Except SyntaxFault (Expr × List Token)) (c' : Cursor) : Prop where
  runs : Runs ts x c (resultOf ts.ending answer) c'
  drop_eq : ∀ r, answer = .ok r → ts.body.drop c'.current = r.2

/-- The action has the result of the answer and changes nothing but the place of the cursor. -/
def Follows (ts : EndedTokens) (x : Action Expr) (c : Cursor) (answer : Except SyntaxFault (Expr × List Token)) :
    Prop :=
  ∃ p, Answers ts x c answer { c with current := p }

/-- The action follows the reader from every sound state of a given depth. -/
def Tracks (ts : EndedTokens) (d : Nat) (x : Action Expr) (read : Reader) : Prop :=
  ∀ ⦃c : Cursor⦄ ⦃room : Nat⦄, c.Sound ts → c.depth = d → d ≤ c.height → room + c.height = maxHeight →
    Follows ts x c (read room (ts.body.drop c.current))

section Answers

variable {ts : EndedTokens} {c c' c'' : Cursor} {answer : Except SyntaxFault (Expr × List Token)} {rest : List Token}

theorem answers_error {x : Action Expr} {fault : SyntaxFault}
    (hx : Runs ts x c (.error (fault.toError ts.ending)) c') : Answers ts x c (.error fault) c' :=
  ⟨hx, fun _ h => nomatch h⟩

theorem answers_pure (hc : c.Sound ts) (h : ts.body.drop c.current = rest) (e : Expr) :
    Answers ts (pure e) c (.ok (e, rest)) c :=
  ⟨runs_pure hc e, fun r hr => by cases hr; exact h⟩

theorem Runs.answers {α : Type} {x : Action α} {a : α} {f : α → Action Expr} (hx : Runs ts x c (.ok a) c')
    (hf : Answers ts (f a) c' answer c'') : Answers ts (x >>= f) c answer c'' :=
  ⟨hx.bind hf.runs, hf.drop_eq⟩

/-- One action after the other, as one reader after the other. -/
theorem Follows.bind {x : Action Expr} {f : Expr → Action Expr}
    {g : Expr × List Token → Except SyntaxFault (Expr × List Token)} (hx : Follows ts x c answer)
    (hf : ∀ r p, ({ c with current := p } : Cursor).Sound ts → ts.body.drop p = r.2 →
      Follows ts (f r.1) { c with current := p } (g r)) : Follows ts (x >>= f) c (answer.bind g) := by
  obtain ⟨p, hp⟩ := hx
  cases answer with
  | error fault => exact ⟨p, answers_error hp.runs.bind_error⟩
  | ok r =>
    obtain ⟨q, hq⟩ := hf r p hp.runs.sound (hp.drop_eq r rfl)
    exact ⟨q, hp.runs.answers hq⟩

/-- The same for actions that leave the height where they are. -/
theorem Answers.bind {x : Action Expr} {f : Expr → Action Expr}
    {g : Expr × List Token → Except SyntaxFault (Expr × List Token)} (hx : Answers ts x c answer c')
    (hf : ∀ r, ts.body.drop c'.current = r.2 →
      ∃ p h, Answers ts (f r.1) c' (g r) { c' with current := p, height := h }) :
    ∃ p h, Answers ts (x >>= f) c (answer.bind g) { c' with current := p, height := h } := by
  cases answer with
  | error fault => exact ⟨c'.current, c'.height, answers_error hx.runs.bind_error⟩
  | ok r =>
    obtain ⟨p, h, hp⟩ := hf r (hx.drop_eq r rfl)
    exact ⟨p, h, hx.runs.answers hp⟩

theorem Runs.follows {α : Type} {x : Action α} {a : α} {f : α → Action Expr} {p : Nat}
    (hx : Runs ts x c (.ok a) { c with current := p }) (hf : Follows ts (f a) { c with current := p } answer) :
    Follows ts (x >>= f) c answer := by
  obtain ⟨q, hq⟩ := hf
  exact ⟨q, hx.answers hq⟩

/-! ## One level of binary operators -/

theorem runs_grow (hc : c.Sound ts) (hlt : c.height < maxHeight) :
    Runs ts grow c (.ok ()) { c with height := c.height + 1 } := by
  refine (runs_state hc).bind ?_
  rw [if_neg (Nat.not_le_of_lt hlt)]
  exact runs_move { hc with depth_le_height := Nat.le_succ_of_le hc.depth_le_height, height_le := hlt } (Nat.le_refl _)

theorem runs_grow_full (hc : c.Sound ts) (hfull : maxHeight ≤ c.height) (h : ts.body.drop c.current = rest) :
    Runs ts grow c (.error (SyntaxFault.toError ⟨.tooMuchNesting, rest⟩ ts.ending)) c := by
  refine (runs_state hc).bind ?_
  rw [if_pos hfull]
  exact runs_fail hc h _

section Level

variable {d : Nat} {x : Action Expr} {read : Reader}

theorem answers_foldRest_of_stop (hc : c.Sound ts) (h : ts.body.drop c.current = rest) {isOperator : TokenKind → Bool}
    (hstop : Runs ts (takes isOperator) c (.ok false) c) (turns : Nat) (left : Expr) :
    Answers ts (foldRest isOperator x (turns + 1) left) c (.ok (left, rest)) c :=
  hstop.answers (answers_pure hc h left)

variable (hx : Tracks ts d x read) (isOperator : TokenKind → Bool)
include hx

/-- The height goes up by one with each turn, so there are no more turns than there is room of height. -/
theorem exists_answers_foldRest : ∀ {room : Nat} (turns : Nat) (left : Expr) {c : Cursor} {rest : List Token},
    room ≤ turns → c.Sound ts → c.depth = d → d ≤ c.height → room + c.height = maxHeight →
    ts.body.drop c.current = rest → ∃ p h, Answers ts (foldRest isOperator x (turns + 1) left) c
      (Reader.foldRest isOperator read room left rest) { c with current := p, height := h } := by
  intro room turns left c rest hturns hc hd hle hroom hdrop
  cases rest with
  | nil =>
    refine ⟨c.current, c.height, ?_⟩
    rw [foldRest_nil]
    exact answers_foldRest_of_stop hc hdrop (runs_takes_of_nil hc hdrop isOperator) turns left
  | cons t rest =>
    cases hk : isOperator t.kind with
    | false =>
      refine ⟨c.current, c.height, ?_⟩
      rw [foldRest_of_stop hk]
      exact answers_foldRest_of_stop hc hdrop (runs_takes_of_not_kind hc hdrop hk) turns left
    | true =>
      have hc₁ := hc.succ hdrop
      have hrest := EndedTokens.drop_succ_of_drop_eq_cons hdrop
      have htakes := runs_takes_of_kind hc hdrop hk
      have hprevious := runs_previous_of_cons hc hdrop
      cases room with
      | zero =>
        have hfull := runs_grow_full hc₁ (Nat.le_of_eq (by simpa using hroom.symm)) hrest
        rw [foldRest_of_full hk]
        exact ⟨c.current + 1, c.height, answers_error (htakes.bind (hprevious.bind hfull.bind_error))⟩
      | succ room =>
        have hgrow := runs_grow hc₁ (show c.height < maxHeight by omega)
        have hroom₁ : room + (c.height + 1) = maxHeight := by omega
        obtain ⟨p, hp⟩ := hx hgrow.sound hd (Nat.le_succ_of_le hle) hroom₁
        obtain ⟨turns, rfl⟩ : ∃ n, turns = n + 1 := ⟨turns - 1, by omega⟩
        obtain ⟨q, h, hq⟩ := hp.bind (f := fun right => foldRest isOperator x (turns + 1) (.binary left t right))
          (g := fun r => Reader.foldRest isOperator read room (.binary left t r.1) r.2) fun r hdrop =>
            exists_answers_foldRest turns (.binary left t r.1) (Nat.le_of_succ_le_succ hturns) hp.runs.sound hd
              (Nat.le_succ_of_le hle) hroom₁ hdrop
        rw [foldRest_of_operator hk, ← hrest]
        exact ⟨q, h, htakes.answers (hprevious.answers (hgrow.answers hq))⟩
termination_by room => room

theorem tracks_level : Tracks ts d (level isOperator x) (Reader.level isOperator read) := by
  intro c room hc hd hle hroom
  obtain ⟨p, hp⟩ := hx hc hd hle hroom
  obtain ⟨q, h, hq⟩ := hp.bind (f := foldRest isOperator x (maxHeight + 1))
    (g := fun r => Reader.foldRest isOperator read room r.1 r.2) fun r hdrop =>
      exists_answers_foldRest hx isOperator maxHeight r.1 (by omega) hp.runs.sound hd hle hroom hdrop
  -- whatever the answer, the height is put back
  have hback : Runs ts (move fun c' => { c' with height := c.height }) { c with current := q, height := h } (.ok ())
      { c with current := q } :=
    runs_move { hq.runs.sound with depth_le_height := hc.depth_le_height, height_le := hc.height_le } (Nat.le_refl _)
  exact ⟨q, (runs_state hc).bind (hq.runs.attempt.bind (hback.bind (runs_give hback.sound _))), hq.drop_eq⟩

end Level

theorem tracks_levels {d : Nat} {x : Action Expr} {read : Reader} (hx : Tracks ts d x read) :
    Tracks ts d (levels x) (Reader.levels read) :=
  tracks_level (tracks_level (tracks_level (tracks_level hx _) _) _) _

/-! ## Operands -/

section Nested

variable {d : Nat} {x : Action Expr} {read : Reader}

theorem tracks_nested_full (hd : maxNesting ≤ d) : Tracks ts d (nested x) Reader.refuse := by
  intro c room hc hdepth _ _
  refine ⟨c.current, answers_error ((runs_state hc).bind ?_)⟩
  rw [if_pos (hdepth ▸ hd)]
  exact runs_fail hc rfl .tooMuchNesting

/-- Both counters are put back. -/
theorem runs_nested (hc : c.Sound ts) (hd : c.depth < maxNesting) (hle : c.depth ≤ c.height)
    {r : Except SyntaxError Expr} {p h : Nat} (hh : c.depth ≤ h)
    (hx : Runs ts (do grow; x) { c with depth := c.depth + 1 } r
      { c with current := p, depth := c.depth + 1, height := h }) :
    Runs ts (nested x) c r { c with current := p } := by
  have hdeeper : Runs ts (move fun c => { c with depth := c.depth + 1 }) c (.ok ()) { c with depth := c.depth + 1 } :=
    runs_move { hc with depth_le := hd, depth_le_height := Nat.succ_le_succ hle } (Nat.le_refl _)
  have hdepth : Runs ts (move fun c' => { c' with depth := c.depth })
      { c with current := p, depth := c.depth + 1, height := h } (.ok ()) { c with current := p, height := h } :=
    runs_move { hx.sound with depth_le := hc.depth_le, depth_le_height := Nat.le_succ_of_le hh } (Nat.le_refl _)
  have hheight : Runs ts (move fun c' => { c' with height := c.height })
      { c with current := p, height := h } (.ok ()) { c with current := p } :=
    runs_move { hdepth.sound with depth_le_height := hc.depth_le_height, height_le := hc.height_le } (Nat.le_refl _)
  refine (runs_state hc).bind ?_
  rw [if_neg (Nat.not_le_of_lt hd)]
  exact hdeeper.bind (hx.attempt.bind (hdepth.bind (hheight.bind (runs_give hheight.sound _))))

theorem tracks_nested (hd : d < maxNesting) (hx : Tracks ts (d + 1) x read) :
    Tracks ts d (nested x) (Reader.below read) := by
  intro c room hc hdepth hle hroom
  subst hdepth
  have hdeeper : ({ c with depth := c.depth + 1 } : Cursor).Sound ts :=
    { hc with depth_le := hd, depth_le_height := Nat.succ_le_succ hle }
  cases room with
  | zero =>
    have hfull := runs_grow_full hdeeper (Nat.le_of_eq (by simpa using hroom.symm)) rfl
    exact ⟨c.current, answers_error (runs_nested hc hd hle hle hfull.bind_error)⟩
  | succ room =>
    have hgrow := runs_grow hdeeper (show c.height < maxHeight by omega)
    obtain ⟨p, hp⟩ := hx hgrow.sound rfl (Nat.succ_le_succ hle) (show room + (c.height + 1) = maxHeight by omega)
    exact ⟨p, runs_nested hc hd hle (Nat.le_succ_of_le hle) (hgrow.bind hp.runs), hp.drop_eq⟩

end Nested

section Operand

variable {d : Nat} {prefixed parenthesised : Action Expr} {readPrefixed readParenthesised : Reader}

theorem follows_close (hc : c.Sound ts) (h : ts.body.drop c.current = rest) (inner : Expr) :
    Follows ts (do let _ ← expect .rightParen .expectedClosing; return .grouping inner) c
      (Reader.close inner rest) := by
  have hfail (hsees : Runs ts (sees (· == .rightParen)) c (.ok false) c) :
      Follows ts (do let _ ← expect .rightParen .expectedClosing; return .grouping inner) c
        (.error ⟨.expectedClosing, rest⟩) :=
    ⟨c.current, answers_error (hsees.bind (runs_fail hc h .expectedClosing)).bind_error⟩
  cases rest with
  | nil => exact hfail (runs_sees_of_nil hc h _)
  | cons t rest =>
    have hsees := runs_sees_of_cons hc h (· == .rightParen)
    by_cases ht : t.kind = .rightParen
    · rw [ht] at hsees
      have hexpect : Runs ts (expect .rightParen .expectedClosing) c (.ok t) { c with current := c.current + 1 } :=
        hsees.bind (runs_next_of_cons hc h)
      rw [close_of_rightParen ht]
      exact ⟨c.current + 1, hexpect.answers (answers_pure hexpect.sound (EndedTokens.drop_succ_of_drop_eq_cons h) _)⟩
    · rw [beq_false_of_ne ht] at hsees
      simp only [Reader.close, if_neg ht]
      exact hfail hsees

section Primary

variable (hc : c.Sound ts) {t : Token} (h : ts.body.drop c.current = t :: rest)
include hc h

/-- A literal: three reserved words, or a token with a value. -/
theorem follows_primary_of_value {v : Value} (hv : t.value? = some v) :
    Follows ts (primary parenthesised) c (.ok (.literal v, rest)) := by
  have hnext := runs_next_of_cons hc h
  have hpure (e : Expr) := answers_pure hnext.sound (EndedTokens.drop_succ_of_drop_eq_cons h) e
  refine ⟨c.current + 1, (runs_here hc h).answers ?_⟩
  simp only [List.headD_cons]
  unfold Token.value? at hv
  split at hv
  case h_1 hk | h_2 hk | h_3 hk =>
    obtain rfl := Option.some.inj hv
    rw [hk]
    exact hnext.answers (hpure _)
  case h_4 hk | h_5 hk =>
    obtain ⟨l, hl, rfl⟩ := Option.map_eq_some_iff.1 hv
    rw [hk]
    refine hnext.answers ?_
    simp only [hl]
    exact hpure _
  case h_6 => cases hv

/-- What begins no operand. -/
theorem follows_primary_of_other (hl : t.kind ≠ .leftParen) (hv : t.value? = none) :
    Follows ts (primary parenthesised) c (.error ⟨.expectedExpression, t :: rest⟩) := by
  have hhere := runs_here hc h
  unfold Token.value? at hv
  split at hv
  case h_1 | h_2 | h_3 => cases hv
  case h_4 hk | h_5 hk =>
    -- a number or string token without a value is passed before it is reported
    have hnext := runs_next_of_cons hc h
    refine ⟨c.current + 1, answers_error (hhere.bind ?_)⟩
    simp only [List.headD_cons, hk]
    refine hnext.bind ?_
    simp only [Option.map_eq_none_iff.1 hv]
    exact runs_give hnext.sound _
  case h_6 =>
    refine ⟨c.current, answers_error (hhere.bind ?_)⟩
    simp only [List.headD_cons]
    exact runs_fail hc h .expectedExpression

theorem follows_primary_of_leftParen (ht : t.kind = .leftParen)
    (hnested : Follows ts (nested parenthesised) { c with current := c.current + 1 } answer) :
    Follows ts (primary parenthesised) c (answer.bind fun r => Reader.close r.1 r.2) := by
  refine (runs_here hc h).follows ?_
  simp only [List.headD_cons, ht]
  refine (runs_next_of_cons hc h).follows ?_
  exact hnested.bind fun r p hsound hdrop => follows_close hsound hdrop r.1

end Primary

theorem tracks_primary (hq : Tracks ts d (nested parenthesised) readParenthesised) :
    Tracks ts d (primary parenthesised) (Reader.primaryOf readParenthesised) := by
  intro c room hc hdepth hle hroom
  cases h : ts.body.drop c.current with
  | nil =>
    refine ⟨c.current, answers_error ((runs_here hc h).bind ?_)⟩
    simp only [List.headD_nil, hc.kind_ending]
    exact runs_fail hc h .expectedExpression
  | cons t rest =>
    have hrest := EndedTokens.drop_succ_of_drop_eq_cons h
    by_cases hl : t.kind = .leftParen
    · rw [primaryOf_of_leftParen hl, ← hrest]
      exact follows_primary_of_leftParen hc h hl (hq (hc.succ h) hdepth hle hroom)
    cases hv : t.value? with
    | some v => exact primaryOf_of_value hv room rest ▸ follows_primary_of_value hc h hv
    | none => exact primaryOf_of_other hl hv room rest ▸ follows_primary_of_other hc h hl hv

theorem tracks_unary (hp : Tracks ts d (nested prefixed) readPrefixed)
    (hq : Tracks ts d (nested parenthesised) readParenthesised) :
    Tracks ts d (unary prefixed parenthesised) (Reader.operandOf readPrefixed readParenthesised) := by
  intro c room hc hdepth hle hroom
  have hprimary := tracks_primary hq hc hdepth hle hroom
  cases h : ts.body.drop c.current with
  | nil =>
    rw [h] at hprimary
    exact (runs_takes_of_nil hc h _).follows hprimary
  | cons t rest =>
    have hrest := EndedTokens.drop_succ_of_drop_eq_cons h
    by_cases ht : t.kind.isPrefixOperator = true
    · rw [operandOf_of_prefixOperator ht, ← hrest]
      refine (runs_takes_of_kind hc h ht).follows ((runs_previous_of_cons hc h).follows ?_)
      exact (hp (hc.succ h) hdepth hle hroom).bind fun r p hsound hdrop => ⟨p, answers_pure hsound hdrop _⟩
    · rw [Bool.not_eq_true] at ht
      rw [h, primaryOf_of_not_prefixOperator readPrefixed ht] at hprimary
      exact (runs_takes_of_not_kind hc h ht).follows hprimary

end Operand

theorem tracks_operand (calls : Nat) : ∀ {d : Nat}, d ≤ maxNesting → maxNesting ≤ calls + d →
    Tracks ts d (operand calls) (Reader.operand (maxNesting - d)) := by
  induction calls with
  | zero =>
    intro d hd hcalls
    obtain rfl : d = maxNesting := by omega
    rw [Nat.sub_self]
    exact tracks_unary (tracks_nested_full hd) (tracks_nested_full hd)
  | succ calls ih =>
    intro d hd hcalls
    rcases Nat.lt_or_eq_of_le hd with hlt | rfl
    · have hroom : maxNesting - d = maxNesting - (d + 1) + 1 := by omega
      have hoperand := ih (d := d + 1) hlt (by omega)
      rw [hroom]
      exact tracks_unary (tracks_nested hlt hoperand) (tracks_nested hlt (tracks_levels hoperand))
    · rw [Nat.sub_self]
      exact tracks_unary (tracks_nested_full hd) (tracks_nested_full hd)

theorem follows_expression (hc : c.Sound ts) (hdepth : c.depth = 0) (hheight : c.height = 0) :
    Follows ts (expression maxNesting) c (Reader.expression maxNesting maxHeight (ts.body.drop c.current)) :=
  tracks_levels (tracks_operand maxNesting (Nat.zero_le _) (Nat.le_refl _)) hc hdepth (Nat.zero_le _) (by omega)

end Answers

/-! ## Whole lists -/

section Whole

variable {ts : EndedTokens} {c : Cursor}

/-- The search from behind a token: the place where it stops is what it leaves of the list. -/
theorem exists_runs_toBoundary : ∀ {turns : Nat} {c : Cursor} {before : Token} {rest : List Token},
    rest.length ≤ turns → c.Sound ts → ts.body.drop c.current = before :: rest →
    ∃ q, Runs ts (toBoundary (turns + 1)) { c with current := c.current + 1 } (.ok ()) { c with current := q } ∧
      ts.body.drop q = EndedTokens.toBoundary before rest := by
  intro turns c before rest
  induction rest generalizing turns c before with
  | nil =>
    intro _ hc h
    have hend := EndedTokens.drop_succ_of_drop_eq_cons h
    exact ⟨c.current + 1, (runs_atEnd_of_nil (hc.succ h) hend).bind (runs_pure (hc.succ h) ()), hend⟩
  | cons t rest ih =>
    intro hturns hc h
    have hc₁ := hc.succ h
    have h₁ := EndedTokens.drop_succ_of_drop_eq_cons h
    have hatEnd := runs_atEnd_of_cons hc₁ h₁
    have hprevious := runs_previous_of_cons hc h
    by_cases hb : before.kind = .semicolon
    · refine ⟨c.current + 1, hatEnd.bind (hprevious.bind ?_), ?_⟩
      · rw [if_pos hb]
        exact runs_pure hc₁ ()
      · rw [EndedTokens.toBoundary, if_pos (.inl hb), h₁]
    have hhere := runs_here hc₁ h₁
    by_cases hs : t.kind.startsStatement = true
    · refine ⟨c.current + 1, hatEnd.bind (hprevious.bind ?_), ?_⟩
      · rw [if_neg hb]
        refine hhere.bind ?_
        rw [List.headD_cons, if_pos hs]
        exact runs_pure hc₁ ()
      · rw [EndedTokens.toBoundary, if_pos (.inr hs), h₁]
    · obtain ⟨turns, rfl⟩ : ∃ n, turns = n + 1 := ⟨turns - 1, by simp at hturns; omega⟩
      obtain ⟨q, hq, hdrop⟩ := ih (Nat.le_of_succ_le_succ hturns) hc₁ h₁
      refine ⟨q, hatEnd.bind (hprevious.bind ?_), ?_⟩
      · rw [if_neg hb]
        refine hhere.bind ?_
        rw [List.headD_cons, if_neg hs]
        exact (runs_next_of_cons hc₁ h₁).bind hq
      · rw [EndedTokens.toBoundary, if_neg (not_or.2 ⟨hb, hs⟩), hdrop]

/-- **One step** to the next statement boundary. -/
theorem exists_runs_synchronize (hc : c.Sound ts) :
    ∃ q, Runs ts synchronize c (.ok ()) { c with current := q } ∧
      (⟨ts.body.drop q, ts.ending⟩ : EndedTokens) = EndedTokens.synchronize ⟨ts.body.drop c.current, ts.ending⟩ := by
  cases h : ts.body.drop c.current with
  | nil =>
    obtain ⟨t, ht⟩ := runs_next_of_nil hc h
    refine ⟨c.current, ht.bind ((runs_state hc).bind ?_), by rw [h]; rfl⟩
    exact (runs_atEnd_of_nil hc h).bind (runs_pure hc ())
  | cons t rest =>
    have hlen : rest.length ≤ c.tokens.length := by
      obtain ⟨after, hafter⟩ := hc.tokens_eq
      have hlength := congrArg List.length h
      simp only [List.length_drop, List.length_cons] at hlength
      simp only [hafter, List.length_append]
      omega
    obtain ⟨q, hq, hdrop⟩ := exists_runs_toBoundary hlen hc h
    refine ⟨q, (runs_next_of_cons hc h).bind ((runs_state (hc.succ h)).bind hq), ?_⟩
    rw [hdrop]
    rfl

theorem exists_runs_synchronizeTimes (k : Nat) : ∀ {c : Cursor}, c.Sound ts →
    ∃ q, Runs ts (synchronizeTimes k) c (.ok ()) { c with current := q } ∧
      (⟨ts.body.drop q, ts.ending⟩ : EndedTokens) =
        EndedTokens.synchronize^[k] ⟨ts.body.drop c.current, ts.ending⟩ := by
  induction k with
  | zero =>
    intro c hc
    exact ⟨c.current, runs_pure hc (), rfl⟩
  | succ k ih =>
    intro c hc
    obtain ⟨p, hp, hstep⟩ := exists_runs_synchronize hc
    obtain ⟨q, hq, hrun⟩ := ih hp.sound
    exact ⟨q, hp.bind hq, by rw [hrun, hstep, Function.iterate_succ_apply]⟩

theorem parse_eq_resultOf (ts : EndedTokens) :
    ts.parse = resultOf ts.ending (Reader.expression maxNesting maxHeight ts.body) := by
  unfold EndedTokens.parse
  cases Reader.expression maxNesting maxHeight ts.body <;> rfl

/-- **Parsing in place** from anywhere in a list: the outcome is that of the tokens from there on. -/
theorem exists_runs_parse (hc : c.Sound ts) (hdepth : c.depth = 0) (hheight : c.height = 0) :
    ∃ c', Runs ts parse c
      (.ok ((EndedTokens.parse ⟨ts.body.drop c.current, ts.ending⟩).mapError fun e => c.errors ++ [e])) c' := by
  obtain ⟨p, hp⟩ := follows_expression hc hdepth hheight
  have hruns := hp.runs
  rw [parse_eq_resultOf]
  cases hr : resultOf ts.ending (Reader.expression maxNesting maxHeight (ts.body.drop c.current)) with
  | ok e =>
    rw [hr] at hruns
    exact ⟨_, hruns.attempt.bind (runs_pure hruns.sound _)⟩
  | error e =>
    rw [hr] at hruns
    have hmove : Runs ts (move fun c' => { c' with errors := c'.errors ++ [e] }) { c with current := p } (.ok ())
        { c with current := p, errors := c.errors ++ [e] } :=
      runs_move { hruns.sound with } (Nat.le_refl _)
    obtain ⟨q, hq, -⟩ := exists_runs_synchronize hmove.sound
    exact ⟨_, hruns.attempt.bind (hmove.bind (hq.bind ((runs_state hq.sound).bind (runs_pure hq.sound _))))⟩

end Whole

theorem sound_ofList (tokens : List Token) : (ofList tokens).Sound (EndedTokens.ofList tokens) where
  tokens_eq := EndedTokens.exists_withEnd_eq tokens
  kind_ne_eof _ := EndedTokens.kind_ne_eof_of_mem_body
  kind_ending := EndedTokens.kind_ending tokens
  current_le := Nat.zero_le _
  depth_le := Nat.zero_le _
  depth_le_height := Nat.zero_le _
  height_le := Nat.zero_le _

/-- After `k` steps to the next statement boundary the list is parsed in place with the given answer, and the cursor is
never behind the first end, neither on the way nor at last. -/
def ReadsInRange (tokens : List Token) (k : Nat) (answer : Except (List SyntaxError) Expr) : Prop :=
  ∃ passed c, parseAfter k (ofList tokens) = some ⟨.ok answer, passed, c⟩ ∧
    ∀ s ∈ c :: passed, s.current ≤ (EndedTokens.ofList tokens).body.length

/-- **In place and in range**: the readers give the answer. -/
theorem readsInRange (tokens : List Token) (k : Nat) :
    ReadsInRange tokens k
      ((EndedTokens.synchronize^[k] (EndedTokens.ofList tokens)).parse.mapError fun e => [e]) := by
  obtain ⟨p, hp, hrun⟩ := exists_runs_synchronizeTimes k (sound_ofList tokens)
  obtain ⟨c, hc⟩ := exists_runs_parse hp.sound rfl rfl
  have hparse : Runs (EndedTokens.ofList tokens) (parseAfter k) (ofList tokens) _ c := hp.bind hc
  obtain ⟨passed, hout, hpassed⟩ := hparse.outcome
  have hstart : EndedTokens.synchronize^[k] (EndedTokens.ofList tokens) =
      ⟨(EndedTokens.ofList tokens).body.drop p, (EndedTokens.ofList tokens).ending⟩ := hrun.symm
  rw [hstart]
  refine ⟨passed, c, hout, fun s hs => ?_⟩
  rcases List.mem_cons.1 hs with rfl | hs
  · exact hc.sound.current_le
  · exact (hpassed s hs).1.current_le

theorem ofList_take_append (tokens behind : List Token) :
    EndedTokens.ofList ((withEnd tokens).take ((EndedTokens.ofList tokens).body.length + 1) ++ behind) =
      EndedTokens.ofList tokens := by
  obtain ⟨after, hafter⟩ := EndedTokens.exists_withEnd_eq tokens
  rw [hafter, List.take_append, List.take_of_length_le (Nat.le_succ _), Nat.add_sub_cancel_left, List.take_succ_cons,
    List.take_zero, List.append_assoc, List.singleton_append]
  exact EndedTokens.ofList_append (fun t => EndedTokens.kind_ne_eof_of_mem_body) (EndedTokens.kind_ending tokens)

theorem ofList_take (tokens : List Token) :
    EndedTokens.ofList (tokens.take ((EndedTokens.ofList tokens).body.length + 1)) = EndedTokens.ofList tokens := by
  rcases Nat.lt_or_ge (EndedTokens.ofList tokens).body.length tokens.length with hlt | hge
  · have htake := ofList_take_append tokens []
    rw [List.append_nil, withEnd] at htake
    split at htake
    · exact htake
    · rwa [List.take_append_of_le_length hlt] at htake
  · rw [List.take_of_length_le (Nat.le_succ_of_le hge)]

theorem ofList_withEnd (tokens : List Token) : EndedTokens.ofList (withEnd tokens) = EndedTokens.ofList tokens :=
  EndedTokens.ofList_drop_withEnd tokens (Nat.zero_le _)

/-- **Reading never gets behind the first end.**  For every list of tokens and every number of steps to the next
statement boundary before parsing: the first end stands right behind the tokens read; every lookup is in range, with the
cursor at or before the first end; what stands behind that end has no influence, so the list may be cut off there; and
an end appended to a list that has none changes nothing. -/
theorem parseAfter_inRange (tokens : List Token) (k : Nat) :
    let ts := EndedTokens.ofList tokens
    let answer := (EndedTokens.synchronize^[k] ts).parse.mapError fun e => [e]
    (∀ t ∈ (withEnd tokens).take ts.body.length, t.kind ≠ .eof) ∧
      (∃ t, (withEnd tokens)[ts.body.length]? = some t ∧ t.kind = .eof) ∧
      ReadsInRange tokens k answer ∧
      ReadsInRange (tokens.take (ts.body.length + 1)) k answer ∧
      (∀ behind, ReadsInRange ((withEnd tokens).take (ts.body.length + 1) ++ behind) k answer) ∧
      (tokens.getLast?.map Token.kind ≠ some .eof →
        ReadsInRange (tokens ++ [.eof ((tokens.getLast?.map Token.line).getD 1)]) k answer) := by
  intro ts answer
  have hreads {tokens' : List Token} (h : EndedTokens.ofList tokens' = ts) : ReadsInRange tokens' k answer := by
    have hreads' := readsInRange tokens' k
    rwa [h] at hreads'
  obtain ⟨after, hafter⟩ := EndedTokens.exists_withEnd_eq tokens
  refine ⟨?_, ?_, hreads rfl, hreads (ofList_take tokens), fun behind => hreads (ofList_take_append tokens behind), ?_⟩
  · rw [hafter, List.take_left]
    exact fun t => EndedTokens.kind_ne_eof_of_mem_body
  · refine ⟨ts.ending, ?_, EndedTokens.kind_ending tokens⟩
    rw [EndedTokens.getElem?_of_eq_append hafter (Nat.le_refl _), List.drop_length]
    rfl
  · intro hlast
    have hended := ofList_withEnd tokens
    rw [withEnd, if_neg hlast] at hended
    exact hreads hended

end Cursor

end LoxCalc
