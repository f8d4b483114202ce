import LoxCalc.Proofs.Expr.BreaksOff
import LoxCalc.Proofs.Expr.Height

/-!
# LoxCalc.Proofs.Expr.FirstFault — a syntax error lies at the first impossible token

`Sentence p` says that the tokens `p` are an expression, `BeginsSentence p` that they can be continued to one.  Where
reading breaks off, the tokens before can be continued (`BreaksOff.continues`).  The place and the cause depend on them
and the next token only (`BreaksOff.of_rest`), so that no expression goes on with that token.  What the tokens before
end in tells the causes apart: an operand is due after them (`BreaksOff.isDueAfter`), a parenthesis is open around a
whole expression (`BreaksOff.exists_unclosed`), or their last token is one that the limits do not admit any more
(`BreaksOff.exists_excess`).

`exists_firstFault` puts this together for whole lists.
-/

namespace LoxCalc

open LoxCalc.Expr LoxCalc.Reader

/-! ## Sentences and their beginnings -/

/-- The tokens are an expression. -/
def Sentence (p : List Token) : Prop := ∃ e : Expr, e.Canonical ∧ e.Spells p

/-- The tokens can be continued to an expression. -/
def BeginsSentence (p : List Token) : Prop := ∃ q, Sentence (p ++ q)

/-- The tokens can be continued to an expression that keeps the limits. -/
def BeginsWithinLimits (p : List Token) : Prop := ∃ q, ∃ e : Expr, e.Canonical ∧ e.Spells (p ++ q) ∧ e.FitsAt 0 0

/-- An operand has to follow the token: an opening parenthesis or an operator. -/
def Token.AwaitsOperand (t : Token) : Prop :=
  t.kind = .leftParen ∨ t.kind.isPrefixOperator = true ∨ t.kind.isBinaryOperator = true

/-- An operand is due after the tokens: they are none, or the last of them awaits one. -/
def IsDueAfter (p : List Token) : Prop := ∀ t ∈ p.getLast?, t.AwaitsOperand

section Last

variable {p q : List Token} {t : Token}

theorem IsDueAfter.cons (hp : IsDueAfter p) (ht : t.AwaitsOperand) : IsDueAfter (t :: p) := by
  cases p with
  | nil =>
    rintro s ⟨⟩
    exact ht
  | cons s p =>
    intro u hu
    rw [List.getLast?_cons_cons] at hu
    exact hp u hu

theorem IsDueAfter.append (hq : IsDueAfter (t :: q)) (p : List Token) : IsDueAfter (p ++ t :: q) := by
  intro u hu
  refine hq u ?_
  simpa [List.getLast?_append] using hu

theorem isDueAfter_concat : IsDueAfter (p ++ [t]) ↔ t.AwaitsOperand := by
  simp [IsDueAfter]

theorem not_awaitsOperand_of_value {v : Value} (hv : t.value? = some v) : ¬ t.AwaitsOperand := by
  rintro (h | h | h)
  · simp [Token.value?, h] at hv
  · cases hk : t.kind <;> simp [Token.value?, hk, TokenKind.isPrefixOperator] at hv h
  · cases hk : t.kind <;> simp [Token.value?, hk, TokenKind.isBinaryOperator, TokenKind.binaryRank?] at hv h

/-- A tree ends in a value or a closing parenthesis. -/
theorem Expr.Spells.exists_last {e : Expr} (h : e.Spells p) : ∃ front t, p = front ++ [t] ∧ ¬ t.AwaitsOperand := by
  induction h with
  | @literal t v hv => exact ⟨[], t, rfl, not_awaitsOperand_of_value hv⟩
  | @grouping e p left right hl hr _ _ =>
    refine ⟨left :: p, right, rfl, ?_⟩
    simp [Token.AwaitsOperand, hr, TokenKind.isPrefixOperator, TokenKind.isBinaryOperator, TokenKind.binaryRank?]
  | @unary op _ _ _ ih =>
    obtain ⟨front, t, rfl, ht⟩ := ih
    exact ⟨op :: front, t, rfl, ht⟩
  | @binary _ _ op p _ _ _ _ ihr =>
    obtain ⟨front, t, rfl, ht⟩ := ihr
    exact ⟨p ++ op :: front, t, by simp, ht⟩

/-- No operand is due behind an expression. -/
theorem Sentence.not_isDueAfter (h : Sentence q) (p : List Token) : ¬ IsDueAfter (p ++ q) := by
  obtain ⟨e, -, hs⟩ := h
  obtain ⟨front, t, rfl, ht⟩ := hs.exists_last
  rw [← List.append_assoc, isDueAfter_concat]
  exact ht

end Last

/-! ## Continuing what was read -/

/-- Where trees stand that are admitted, so is the tree that is made of them within the limits. -/
structure IsAdmission (admits : (d h : Nat) → Expr → Prop) : Prop where
  unary {d h : Nat} {op : Token} {e : Expr} (hroom : HasRoom d h) (he : admits (d + 1) (h + 1) e) :
    admits d h (unary op e)
  grouping {d h : Nat} {e : Expr} (hroom : HasRoom d h) (he : admits (d + 1) (h + 1) e) : admits d h (grouping e)
  binary {d h k : Nat} {l r : Expr} {op : Token} (hop : op.kind.binaryRank? = some k) (hl : l.FitsAt d h)
    (hroom : h + l.levelLength k < maxHeight) (hr : admits d (h + l.levelLength k + 1) r) : admits d h (binary l op r)

theorem Expr.chainLength_binary {k : Nat} {l r : Expr} {op : Token} (hop : op.kind.binaryRank? = some k) :
    (Expr.binary l op r).chainLength = l.levelLength k + 1 := by
  rw [chainLength, levelLength, hop]
  rfl

theorem isAdmission_true : IsAdmission fun _ _ _ => True where
  unary _ _ := trivial
  grouping _ _ := trivial
  binary _ _ _ _ := trivial

theorem isAdmission_fitsAt : IsAdmission FitsAt where
  unary hroom he := ⟨hroom.1, hroom.2, he⟩
  grouping hroom he := ⟨hroom.1, hroom.2, he⟩
  binary hop hl hroom hr := by
    rw [FitsAt, chainLength_binary hop]
    exact ⟨hroom, hl, hr⟩

/-- The tokens can be continued to a phrase of rank `m` with a tree that is admitted. -/
def Continues (admits : (d h : Nat) → Expr → Prop) (m d h : Nat) (p : List Token) : Prop :=
  ∃ e q, Phrase m e (p ++ q) ∧ admits d h e

section Continues

variable {admits : (d h : Nat) → Expr → Prop} {m d h : Nat} {p : List Token}

theorem continues_nil (hm : m ≤ 4) (hone : admits d h one) : Continues admits m d h [] :=
  ⟨one, [oneToken], phrase_one (Nat.le_succ_of_le hm), hone⟩

theorem Expr.Phrase.continues {e : Expr} (hp : Phrase m e p) (he : admits d h e) : Continues admits m d h p :=
  ⟨e, [], by rwa [List.append_nil], he⟩

variable (ha : IsAdmission admits)
include ha

theorem Continues.prefixed {op : Token} (hp : Continues admits 4 (d + 1) (h + 1) p)
    (hop : op.kind.isPrefixOperator = true) (hm : m ≤ 4) (hroom : HasRoom d h) : Continues admits m d h (op :: p) := by
  obtain ⟨e, q, hph, he⟩ := hp
  exact ⟨unary op e, q, hph.unary hop hm, ha.unary hroom he⟩

theorem Continues.parenthesised {left : Token} (hp : Continues admits 0 (d + 1) (h + 1) p)
    (hl : left.kind = .leftParen) (hm : m ≤ 4) (hroom : HasRoom d h) : Continues admits m d h (left :: p) := by
  obtain ⟨e, q, hph, he⟩ := hp
  have hright : (⟨.rightParen, ")", none, 1⟩ : Token).kind = .rightParen := rfl
  refine ⟨grouping e, q ++ [⟨.rightParen, ")", none, 1⟩], ?_, ha.grouping hroom he⟩
  simpa using hph.grouping hl hright hm

theorem Continues.right {k : Nat} {l : Expr} {op : Token} {s : List Token} (hl : Phrase k l s)
    (hp : Continues admits (k + 1) d (h + l.levelLength k + 1) p) (hop : op.kind.binaryRank? = some k) (hm : m ≤ k)
    (hf : l.FitsAt d h) (hroom : h + l.levelLength k < maxHeight) : Continues admits m d h (s ++ op :: p) := by
  obtain ⟨e, q, hph, he⟩ := hp
  refine ⟨binary l op e, q, ?_, ha.binary hop hf hroom he⟩
  simpa using hl.binary hop hph hm

end Continues

/-! ## Where reading breaks off -/

section BreaksOff

variable {m d h : Nat} {cause : SyntaxCause} {p rest : List Token}

theorem Obstacle.continues (ho : Obstacle m d h cause p rest) (hm : m ≤ 4) :
    Continues (fun _ _ _ => True) m d h p := by
  have hright : (⟨.rightParen, ")", none, 1⟩ : Token).kind = .rightParen := rfl
  cases ho with
  | noOperand _ => exact continues_nil hm trivial
  | notClosed hl hq _ _ _ => exact ⟨_, [_], hq.grouping hl hright hm, trivial⟩
  | tooDeep ht _ =>
    rcases ht with ht | ht
    · exact ⟨_, [oneToken], (phrase_one (Nat.le_succ 4)).unary ht hm, trivial⟩
    · exact ⟨_, [oneToken, _], (phrase_one (Nat.zero_le 5)).grouping ht hright hm, trivial⟩
  | @tooHigh k l op p _ hk hl hop _ _ =>
    have hlt := TokenKind.binaryRank?_lt hop
    refine ⟨binary l op one, [oneToken], ?_, trivial⟩
    simpa using hl.binary hop (phrase_one (by omega)) hk

/-- **What is read can be continued**, whatever stops it. -/
theorem BreaksOff.continues (hb : BreaksOff m d h cause p rest) (hm : m ≤ 4) :
    Continues (fun _ _ _ => True) m d h p := by
  induction hb with
  | here ho => exact ho.continues hm
  | prefixed hop hroom _ ih => exact (ih (Nat.le_refl 4)).prefixed isAdmission_true hop hm hroom
  | parenthesised hl hroom _ ih => exact (ih (Nat.zero_le 4)).parenthesised isAdmission_true hl hm hroom
  | right hk hl hop hf hroom _ ih =>
    exact (ih (TokenKind.binaryRank?_lt hop)).right isAdmission_true hl hop hk hf hroom

/-- **One token of lookahead**: the obstacle depends on the next token at most, and on none if it is a limit. -/
theorem BreaksOff.of_rest (hb : BreaksOff m d h cause p rest) {rest' : List Token}
    (hrest : cause = .tooMuchNesting ∨ rest'.head? = rest.head?) : BreaksOff m d h cause p rest' := by
  induction hb with
  | here ho =>
    refine .here ?_
    cases ho with
    | noOperand hr =>
      have hhead := hrest.resolve_left nofun
      exact .noOperand fun t ht => hr t (hhead ▸ ht)
    | notClosed hl hq hf hs hr =>
      have hhead := hrest.resolve_left nofun
      refine .notClosed hl hq hf (stops_zero_iff.2 ?_) fun t ht => hr t (hhead ▸ ht)
      intro t ht
      exact stops_zero_iff.1 hs t (hhead ▸ ht)
    | tooDeep ht hroom => exact .tooDeep ht hroom
    | tooHigh hk hl hop hf hroom => exact .tooHigh hk hl hop hf hroom
  | prefixed hop hroom _ ih => exact .prefixed hop hroom (ih hrest)
  | parenthesised hl hroom _ ih => exact .parenthesised hl hroom (ih hrest)
  | right hk hl hop hf hroom _ ih => exact .right hk hl hop hf hroom (ih hrest)

theorem awaitsOperand_of_binaryRank {op : Token} {k : Nat} (hop : op.kind.binaryRank? = some k) : op.AwaitsOperand :=
  .inr (.inr (Option.isSome_of_eq_some hop))

/-- An expression is expected only where an operand is due. -/
theorem BreaksOff.isDueAfter (hb : BreaksOff m d h cause p rest) (hc : cause = .expectedExpression) : IsDueAfter p := by
  induction hb with
  | here ho =>
    cases ho with
    | noOperand _ => exact nofun
    | _ => cases hc
  | prefixed hop _ _ ih => exact (ih hc).cons (.inr (.inl hop))
  | parenthesised hl _ _ ih => exact (ih hc).cons (.inl hl)
  | right _ _ hop _ _ _ ih => exact ((ih hc).cons (awaitsOperand_of_binaryRank hop)).append _

/-- A closing parenthesis is expected only behind an expression in parentheses. -/
theorem BreaksOff.exists_unclosed (hb : BreaksOff m d h cause p rest) (hc : cause = .expectedClosing) :
    ∃ front left q, p = front ++ left :: q ∧ left.kind = .leftParen ∧ Sentence q := by
  induction hb with
  | here ho =>
    cases ho with
    | @notClosed left e q _ hl hq _ _ _ => exact ⟨[], left, q, rfl, hl, e, hq.canonical, hq.spells⟩
    | _ => cases hc
  | @prefixed _ _ _ _ op _ _ _ _ _ ih =>
    obtain ⟨front, left, q, rfl, hleft, hq⟩ := ih hc
    exact ⟨op :: front, left, q, rfl, hleft, hq⟩
  | @parenthesised _ _ _ _ outer _ _ _ _ _ ih =>
    obtain ⟨front, left, q, rfl, hleft, hq⟩ := ih hc
    exact ⟨outer :: front, left, q, rfl, hleft, hq⟩
  | @right _ _ _ _ _ _ op s _ _ _ _ _ _ _ _ ih =>
    obtain ⟨front, left, q, rfl, hleft, hq⟩ := ih hc
    exact ⟨s ++ op :: front, left, q, by simp, hleft, hq⟩

/-- The limits are exceeded by the last token read, which awaits an operand; what was read before it keeps them. -/
theorem BreaksOff.exists_excess (hb : BreaksOff m d h cause p rest) (hc : cause = .tooMuchNesting) (hm : m ≤ 4) :
    ∃ front t, p = front ++ [t] ∧ t.AwaitsOperand ∧ Continues FitsAt m d h front := by
  induction hb with
  | here ho =>
    cases ho with
    | @tooDeep t _ ht _ => exact ⟨[], t, rfl, ht.elim (fun h => .inr (.inl h)) .inl, continues_nil hm trivial⟩
    | @tooHigh k l op p _ hk hl hop hf _ =>
      exact ⟨p, op, rfl, awaitsOperand_of_binaryRank hop, (hl.mono hk).continues hf⟩
    | _ => cases hc
  | @prefixed _ _ _ _ op _ _ hop hroom _ ih =>
    obtain ⟨front, t, rfl, ht, hfront⟩ := ih hc (Nat.le_refl 4)
    exact ⟨op :: front, t, rfl, ht, hfront.prefixed isAdmission_fitsAt hop hm hroom⟩
  | @parenthesised _ _ _ _ left _ _ hl hroom _ ih =>
    obtain ⟨front, t, rfl, ht, hfront⟩ := ih hc (Nat.zero_le 4)
    exact ⟨left :: front, t, rfl, ht, hfront.parenthesised isAdmission_fitsAt hl hm hroom⟩
  | @right _ _ _ _ _ _ op s _ _ hk hl hop hf hroom _ ih =>
    obtain ⟨front, t, rfl, ht, hfront⟩ := ih hc (TokenKind.binaryRank?_lt hop)
    exact ⟨s ++ op :: front, t, by simp, ht, hfront.right isAdmission_fitsAt hl hop hk hf hroom⟩

end BreaksOff

/-! ## Whole lists -/

theorem SyntaxCause.message_inj {a b : SyntaxCause} : a.message = b.message ↔ a = b := by
  cases a <;> cases b <;> decide

/-- `error` lies at the token `t`, the first of a list that is read with which no expression goes on, or at which the
limits are found to be exceeded. -/
structure FirstFault (ts : EndedTokens) (error : SyntaxError) (p : List Token) (t : Token) (rest : List Token) :
    Prop where
  tokens_eq : ts.body ++ [ts.ending] = p ++ t :: rest
  line_eq : error.line = t.line
  location_eq : error.location = if rest = [] then .atEnd else .atLexeme t.lexeme
  message_mem : error.message ∈ ["Expect expression.", "Expect ')' after expression.", "Too much nesting."]
  /-- What stands before the token can be continued to an expression. -/
  begins : BeginsSentence p
  /-- Together with the token it cannot, unless a limit is exceeded. -/
  not_begins : error.message ≠ "Too much nesting." → ¬ BeginsSentence (p ++ [t])
  expression_iff : error.message ≠ "Too much nesting." →
    (error.message = "Expect expression." ↔ IsDueAfter p)
  closing_iff : error.message ≠ "Too much nesting." → (error.message = "Expect ')' after expression." ↔
    ∃ front left q, p = front ++ left :: q ∧ left.kind = .leftParen ∧ Sentence q)
  /-- A limit is exceeded by the token before, which awaits an operand. -/
  excess : error.message = "Too much nesting." → ∃ front s, p = front ++ [s] ∧ s.AwaitsOperand ∧
    BeginsWithinLimits front ∧ ¬ BeginsWithinLimits p

section Lists

variable {cause : SyntaxCause} {p rest : List Token}

theorem expression_eq_error (hb : BreaksOff 0 0 0 cause p rest) :
    expression maxNesting maxHeight (p ++ rest) = .error ⟨cause, rest⟩ :=
  (failsAs_expression.error_iff (Nat.add_zero maxHeight)).2 ⟨p, rfl, hb⟩

/-- A whole expression is read, or refused for its nesting. -/
theorem expression_of_sentence {e : Expr} (hc : e.Canonical) (hs : e.Spells p) :
    (e.FitsAt 0 0 → expression maxNesting maxHeight p = .ok (e, [])) ∧
      (¬ e.FitsAt 0 0 → Refused (expression maxNesting maxHeight p)) := by
  have hp : Phrase 0 e p := ⟨Nat.zero_le _, hc, hs⟩
  have hend : Stops 0 [] := trivial
  rw [← List.append_nil p]
  exact ⟨reads_expression.complete (Nat.add_zero maxHeight) hp hend,
    reads_expression.refuses (Nat.add_zero maxHeight) hp hend⟩

/-- No expression goes on with a token that is refused. -/
theorem BreaksOff.not_beginsSentence {t : Token} {s : List Token} (hb : BreaksOff 0 0 0 cause p (t :: s))
    (hcause : cause ≠ .tooMuchNesting) : ¬ BeginsSentence (p ++ [t]) := by
  rintro ⟨q, e, hc, hs⟩
  rw [List.append_assoc, List.singleton_append] at hs
  -- the same obstacle, whatever comes behind the token
  have hb' : BreaksOff 0 0 0 cause p (t :: q) := hb.of_rest (.inr rfl)
  have herror := expression_eq_error hb'
  obtain ⟨hreads, hrefuses⟩ := expression_of_sentence hc hs
  by_cases hf : e.FitsAt 0 0
  · simp [hreads hf] at herror
  · obtain ⟨ts, hts⟩ := hrefuses hf
    rw [hts] at herror
    cases herror
    exact hcause rfl

/-- No expression within the limits goes on behind a token that exceeds them. -/
theorem BreaksOff.not_beginsWithinLimits (hb : BreaksOff 0 0 0 .tooMuchNesting p rest) : ¬ BeginsWithinLimits p := by
  rintro ⟨q, e, hc, hs, hf⟩
  have hb' : BreaksOff 0 0 0 .tooMuchNesting p q := hb.of_rest (.inl rfl)
  have herror := expression_eq_error hb'
  simp [(expression_of_sentence hc hs).1 hf] at herror

/-- No expression holds the token that ends a list. -/
theorem not_beginsSentence_eof {t : Token} (ht : t.kind = .eof) (p : List Token) : ¬ BeginsSentence (p ++ [t]) := by
  rintro ⟨q, e, hcanonical, hs⟩
  exact hs.kind_ne_eof hcanonical t (by simp) ht

/-- An expression is expected where an operand is due, -/
theorem BreaksOff.expectedExpression_iff (hb : BreaksOff 0 0 0 cause p rest) (hcause : cause ≠ .tooMuchNesting) :
    cause = .expectedExpression ↔ IsDueAfter p := by
  refine ⟨hb.isDueAfter, fun hdue => ?_⟩
  cases cause with
  | expectedExpression => rfl
  | expectedClosing =>
    obtain ⟨front, left, q, rfl, -, hq⟩ := hb.exists_unclosed rfl
    have hnot := hq.not_isDueAfter (front ++ [left])
    rw [List.append_assoc] at hnot
    exact absurd hdue hnot
  | tooMuchNesting => exact absurd rfl hcause

/-- and a closing parenthesis behind an expression in parentheses that are open. -/
theorem BreaksOff.expectedClosing_iff (hb : BreaksOff 0 0 0 cause p rest) (hcause : cause ≠ .tooMuchNesting) :
    cause = .expectedClosing ↔ ∃ front left q, p = front ++ left :: q ∧ left.kind = .leftParen ∧ Sentence q := by
  refine ⟨hb.exists_unclosed, ?_⟩
  rintro ⟨front, left, q, rfl, -, hq⟩
  cases cause with
  | expectedClosing => rfl
  | expectedExpression =>
    have hnot := hq.not_isDueAfter (front ++ [left])
    rw [List.append_assoc] at hnot
    exact absurd (hb.isDueAfter rfl) hnot
  | tooMuchNesting => exact absurd rfl hcause

theorem BreaksOff.beginsSentence (hb : BreaksOff 0 0 0 cause p rest) : BeginsSentence p := by
  obtain ⟨e, q, hp, -⟩ := hb.continues (Nat.zero_le 4)
  exact ⟨q, e, hp.canonical, hp.spells⟩

/-- The place of an error: a token of the body, or the ending behind all of them. -/
theorem exists_place {ts : EndedTokens} (hbody : ts.body = p ++ rest) (hb : ∀ t ∈ ts.body, t.kind ≠ .eof)
    (hending : ts.ending.kind = .eof) : ∃ t after, ts.body ++ [ts.ending] = p ++ t :: after ∧
      t = rest.headD ts.ending ∧ Location.ofToken t = (if after = [] then .atEnd else .atLexeme t.lexeme) := by
  rw [hbody]
  cases rest with
  | nil => exact ⟨ts.ending, [], by simp, rfl, by simp [Location.ofToken, hending]⟩
  | cons t s =>
    have ht : t.kind ≠ .eof := hb t (by simp [hbody])
    exact ⟨t, s ++ [ts.ending], by simp, rfl, by simp [Location.ofToken, ht]⟩

/-- Where parsing fails, reading breaks off. -/
theorem exists_breaksOff_of_parse_error {tokens : List Token} {error : SyntaxError} (h : parse tokens = .error error) :
    ∃ cause p rest, (EndedTokens.ofList tokens).body = p ++ rest ∧ BreaksOff 0 0 0 cause p rest ∧
      error = .atToken (rest.headD (EndedTokens.ofList tokens).ending) cause.message := by
  simp only [parse, EndedTokens.parse] at h
  cases hx : expression maxNesting maxHeight (EndedTokens.ofList tokens).body with
  | ok answer => simp [hx] at h
  | error f =>
    obtain ⟨cause, rest⟩ := f
    obtain ⟨p, hp, hb⟩ := (failsAs_expression.error_iff (Nat.add_zero maxHeight)).1 hx
    simp only [hx, Except.error.injEq] at h
    exact ⟨cause, p, rest, hp, hb, h.symm⟩

end Lists

/-- **The first fault**: parsing fails at one token, the first with which no expression goes on, and the message says
what was due there; or at the token behind the one that exceeds a limit. -/
theorem exists_firstFault {tokens : List Token} {error : SyntaxError} (h : parse tokens = .error error) :
    ∃ p t rest, FirstFault (.ofList tokens) error p t rest := by
  obtain ⟨cause, p, ts, hbody, hb, rfl⟩ := exists_breaksOff_of_parse_error h
  obtain ⟨t, rest, heq, ht, hloc⟩ := exists_place hbody (fun _ => EndedTokens.kind_ne_eof_of_mem_body)
    (EndedTokens.kind_ending tokens)
  refine ⟨p, t, rest, ?_⟩
  rw [← ht]
  exact {
    tokens_eq := heq
    line_eq := rfl
    location_eq := hloc
    message_mem := by cases cause <;> simp [SyntaxError.atToken, SyntaxCause.message]
    begins := hb.beginsSentence
    not_begins := fun hm => by
      have hcause : cause ≠ .tooMuchNesting := fun hc => hm (congrArg SyntaxCause.message hc)
      cases ts with
      | nil => exact not_beginsSentence_eof (ht ▸ EndedTokens.kind_ending tokens) p
      | cons u s =>
        obtain rfl : t = u := ht
        exact hb.not_beginsSentence hcause
    expression_iff := fun hm => by
      rw [← hb.expectedExpression_iff (fun hc => hm (congrArg SyntaxCause.message hc))]
      exact SyntaxCause.message_inj (b := .expectedExpression)
    closing_iff := fun hm => by
      rw [← hb.expectedClosing_iff (fun hc => hm (congrArg SyntaxCause.message hc))]
      exact SyntaxCause.message_inj (b := .expectedClosing)
    excess := fun hm => by
      obtain rfl : cause = .tooMuchNesting := SyntaxCause.message_inj.1 hm
      obtain ⟨front, s, rfl, hs, e, q, hp, hf⟩ := hb.exists_excess rfl (Nat.zero_le 4)
      exact ⟨front, s, rfl, hs, ⟨q, e, hp.canonical, hp.spells, hf⟩, hb.not_beginsWithinLimits⟩ }

/-- An expression in parentheses that is cut off by a semicolon, and one parenthesis too many. -/
theorem exists_firstFault_openParentheses :
    (parse [⟨.leftParen, "(", none, 1⟩, ⟨.kwTrue, "true", none, 1⟩, ⟨.semicolon, ";", none, 2⟩] =
        .error ⟨2, .atLexeme ";", "Expect ')' after expression."⟩ ∧
      ∃ p t rest, FirstFault
        (.ofList [⟨.leftParen, "(", none, 1⟩, ⟨.kwTrue, "true", none, 1⟩, ⟨.semicolon, ";", none, 2⟩])
        ⟨2, .atLexeme ";", "Expect ')' after expression."⟩ p t rest) ∧
      parse (List.replicate 129 ⟨.leftParen, "(", none, 3⟩) = .error ⟨3, .atEnd, "Too much nesting."⟩ ∧
      ∃ p t rest, FirstFault (.ofList (List.replicate 129 ⟨.leftParen, "(", none, 3⟩))
        ⟨3, .atEnd, "Too much nesting."⟩ p t rest := by
  have hclosing : parse [⟨.leftParen, "(", none, 1⟩, ⟨.kwTrue, "true", none, 1⟩, ⟨.semicolon, ";", none, 2⟩] =
      .error ⟨2, .atLexeme ";", "Expect ')' after expression."⟩ := by decide +kernel
  have hnesting : parse (List.replicate 129 ⟨.leftParen, "(", none, 3⟩) =
      .error ⟨3, .atEnd, "Too much nesting."⟩ := by decide +kernel
  exact ⟨⟨hclosing, exists_firstFault hclosing⟩, hnesting, exists_firstFault hnesting⟩

end LoxCalc
