import LoxCalc.Proofs.Expr.Boundaries
import LoxCalc.Proofs.Expr.FirstFault
import LoxCalc.Proofs.Expr.OperandFaults

/-!
# LoxCalc.Proofs.Expr.Layout — how tokens are written does not matter

A change of tokens that keeps their kinds and values commutes with every reader (`commutes_expression`): what is read
of the changed tokens is what is read of the tokens, changed.  `numbered ts` has the positions of the tokens in place of
their texts and lines, and `ts` is a change of it; so the tree of `ts` is the tree of the positions, each position
replaced by the token that stands there (`parse_eq_mapOperators`).

Lists that agree in kinds and values have the same positions.  Hence they are parsed and evaluated alike, and fail at
the same place (`parse_of_sense_eq`).
-/

namespace LoxCalc

open LoxCalc.Expr LoxCalc.Reader

/-- What a token says, however and wherever it is written. -/
def Token.sense (t : Token) : TokenKind × Option Literal := (t.kind, t.literal)

/-- The change leaves the kinds and the values of tokens alone. -/
def KeepsSense (f : Token → Token) : Prop := ∀ t, (f t).kind = t.kind ∧ (f t).literal = t.literal

/-! ## Readers of changed tokens -/

/-- The answer of a reader with all of its tokens changed. -/
def mapAnswer (f : Token → Token) :
    Except SyntaxFault (Expr × List Token) → Except SyntaxFault (Expr × List Token)
  | .ok r => .ok (r.1.mapOperators f, r.2.map f)
  | .error fault => .error { fault with rest := fault.rest.map f }

/-- Reading changed tokens gives the answer changed. -/
def Commutes (f : Token → Token) (read : Reader) : Prop :=
  ∀ room ts, read room (ts.map f) = mapAnswer f (read room ts)

section Commutes

variable {f : Token → Token}

theorem mapAnswer_bind {g g' : Expr × List Token → Except SyntaxFault (Expr × List Token)}
    (h : ∀ e rest, g' (e.mapOperators f, rest.map f) = mapAnswer f (g (e, rest)))
    (x : Except SyntaxFault (Expr × List Token)) : (mapAnswer f x).bind g' = mapAnswer f (x.bind g) := by
  cases x with
  | ok r => exact h r.1 r.2
  | error fault => rfl

theorem commutes_refuse : Commutes f refuse := fun _ _ => rfl

theorem commutes_below {read : Reader} (hr : Commutes f read) : Commutes f (below read) := by
  intro room ts
  cases room with
  | zero => rfl
  | succ room => exact hr room ts

variable (hf : KeepsSense f)
include hf

theorem value?_of_keepsSense (t : Token) : (f t).value? = t.value? := by
  unfold Token.value?
  rw [(hf t).1, (hf t).2]

section Level

variable {isOperator : TokenKind → Bool} {operand : Reader} (hr : Commutes f operand)
include hr

/-- One turn of the fold after the other, with the tree folded so far changed as well. -/
theorem foldRest_map : ∀ (room : Nat) (left : Expr) (ts : List Token),
    foldRest isOperator operand room (left.mapOperators f) (ts.map f) =
      mapAnswer f (foldRest isOperator operand room left ts)
  | room, left, [] => by
    rw [List.map_nil, foldRest_nil, foldRest_nil]
    rfl
  | room, left, t :: ts => by
    have hk : isOperator (f t).kind = isOperator t.kind := by rw [(hf t).1]
    cases ht : isOperator t.kind with
    | false =>
      rw [List.map_cons, foldRest_of_stop (hk.trans ht), foldRest_of_stop ht]
      rfl
    | true =>
      cases room with
      | zero =>
        rw [List.map_cons, foldRest_of_full (hk.trans ht), foldRest_of_full ht]
        rfl
      | succ room =>
        rw [List.map_cons, foldRest_of_operator (hk.trans ht), foldRest_of_operator ht, hr room ts]
        exact mapAnswer_bind (fun right rest => foldRest_map room (.binary left t right) rest) _
termination_by room => room

theorem commutes_level : Commutes f (level isOperator operand) := by
  intro room ts
  have hbind (ts : List Token) : level isOperator operand room ts =
      (operand room ts).bind fun r => foldRest isOperator operand room r.1 r.2 := rfl
  rw [hbind, hbind, hr room ts]
  exact mapAnswer_bind (fun left rest => foldRest_map hf hr room left rest) _

end Level

theorem commutes_levels {operand : Reader} (hr : Commutes f operand) : Commutes f (levels operand) :=
  commutes_level hf (commutes_level hf (commutes_level hf (commutes_level hf hr)))

theorem close_map (inner : Expr) (ts : List Token) :
    close (inner.mapOperators f) (ts.map f) = mapAnswer f (close inner ts) := by
  cases ts with
  | nil => rfl
  | cons t ts =>
    by_cases ht : t.kind = .rightParen
    · have ht' : (f t).kind = .rightParen := by rw [(hf t).1, ht]
      rw [List.map_cons, close_of_rightParen ht', close_of_rightParen ht]
      rfl
    · have ht' : (f t).kind ≠ .rightParen := by rwa [(hf t).1]
      simp only [List.map_cons, close, if_neg ht', if_neg ht]
      rfl

theorem commutes_operandOf {prefixed parenthesised : Reader} (hp : Commutes f prefixed)
    (hq : Commutes f parenthesised) : Commutes f (operandOf prefixed parenthesised) := by
  intro room ts
  cases ts with
  | nil => rfl
  | cons t ts =>
    rw [List.map_cons]
    by_cases hop : t.kind.isPrefixOperator = true
    · have hop' : (f t).kind.isPrefixOperator = true := by rw [(hf t).1, hop]
      rw [operandOf_of_prefixOperator hop', operandOf_of_prefixOperator hop, hp room ts]
      exact mapAnswer_bind (fun _ _ => rfl) _
    by_cases hl : t.kind = .leftParen
    · have hl' : (f t).kind = .leftParen := by rw [(hf t).1, hl]
      rw [operandOf_of_leftParen hl', operandOf_of_leftParen hl, hq room ts]
      exact mapAnswer_bind (fun inner rest => close_map hf inner rest) _
    cases hv : t.value? with
    | some v =>
      have hv' : (f t).value? = some v := by rw [value?_of_keepsSense hf, hv]
      rw [operandOf_of_value hv', operandOf_of_value hv]
      rfl
    | none =>
      have hv' : (f t).value? = none := by rw [value?_of_keepsSense hf, hv]
      rw [operandOf_of_other (by rw [(hf t).1]; simpa using hop) (by rwa [(hf t).1]) hv',
        operandOf_of_other (by simpa using hop) hl hv]
      rfl

theorem commutes_operand (n : Nat) : Commutes f (operand n) := by
  induction n with
  | zero => exact commutes_operandOf hf commutes_refuse commutes_refuse
  | succ n ih => exact commutes_operandOf hf (commutes_below ih) (commutes_below (commutes_levels hf ih))

/-- **The reader of expressions** sees kinds and values only. -/
theorem commutes_expression (n : Nat) : Commutes f (expression n) := commutes_levels hf (commutes_operand hf n)

theorem body_ofList_map (ts : List Token) :
    (EndedTokens.ofList (ts.map f)).body = (EndedTokens.ofList ts).body.map f := by
  have hkind : ((fun t : Token => t.kind != .eof) ∘ f) = fun t => t.kind != .eof := by
    funext t
    simp only [Function.comp_apply, (hf t).1]
  simp only [EndedTokens.ofList, List.takeWhile_map, hkind]

/-! ## Whole lists -/

/-- The tree of changed tokens is the tree changed. -/
theorem parse_map {ts : List Token} {e : Expr} (h : parse ts = .ok e) : parse (ts.map f) = .ok (e.mapOperators f) := by
  simp only [parse, EndedTokens.parse] at h ⊢
  rw [body_ofList_map hf, commutes_expression hf]
  cases hx : expression maxNesting maxHeight (EndedTokens.ofList ts).body with
  | error fault => simp [hx] at h
  | ok r =>
    obtain rfl : r.1 = e := by simpa [hx] using h
    rfl

end Commutes

/-- The token behind the first ones, or the end. -/
theorem getElem?_withEnd {ts p rest : List Token} (hb : (EndedTokens.ofList ts).body = p ++ rest) :
    (withEnd ts)[p.length]? = some (rest.headD (EndedTokens.ofList ts).ending) := by
  obtain ⟨after, hafter⟩ := EndedTokens.exists_withEnd_eq ts
  rw [EndedTokens.getElem?_of_eq_append hafter (by simp [hb]), hb, List.drop_left]

/-- Parsing changed tokens fails at the same place. -/
theorem parse_map_error {f : Token → Token} (hf : KeepsSense f) {ts p rest : List Token} {cause : SyntaxCause}
    (hb : (EndedTokens.ofList ts).body = p ++ rest) (h : BreaksOff 0 0 0 cause p rest) :
    ∃ t, (withEnd (ts.map f))[p.length]? = some t ∧ parse (ts.map f) = .error (.atToken t cause.message) := by
  have hb' : (EndedTokens.ofList (ts.map f)).body = p.map f ++ rest.map f := by
    rw [body_ofList_map hf, hb, List.map_append]
  refine ⟨_, by rw [← getElem?_withEnd hb', List.length_map], ?_⟩
  simp only [parse, EndedTokens.parse]
  rw [body_ofList_map hf, commutes_expression hf, hb, expression_eq_error h]
  rfl

/-! ## Positions -/

/-- The tokens with their positions in place of their texts and lines. -/
def numbered (ts : List Token) : List Token := ts.mapIdx fun i t => ⟨t.kind, "", t.literal, i⟩

/-- The token as it is written at its position in a list. -/
def Token.writtenIn (ts : List Token) (t : Token) : Token :=
  match ts[t.line]? with
  | some s => { t with lexeme := s.lexeme, line := s.line }
  | none => t

/-- The token without its text and on line `0`. -/
def Token.unwritten (t : Token) : Token := ⟨t.kind, "", t.literal, 0⟩

theorem keepsSense_writtenIn (ts : List Token) : KeepsSense (.writtenIn ts) := by
  intro t
  unfold Token.writtenIn
  split <;> exact ⟨rfl, rfl⟩

theorem getElem?_numbered (ts : List Token) (i : Nat) :
    (numbered ts)[i]? = ts[i]?.map fun t => ⟨t.kind, "", t.literal, i⟩ := List.getElem?_mapIdx

/-- A position is that of a token, which is written there. -/
theorem getElem?_of_mem_numbered {ts : List Token} {op : Token} (h : op ∈ numbered ts) :
    ts[op.line]? = some (op.writtenIn ts) := by
  obtain ⟨i, hi⟩ := List.getElem?_of_mem h
  rw [getElem?_numbered] at hi
  obtain ⟨t, ht, rfl⟩ := Option.map_eq_some_iff.1 hi
  simp only [Token.writtenIn, ht]

/-- **Every list is written at its positions.** -/
theorem map_writtenIn_numbered (ts : List Token) : (numbered ts).map (.writtenIn ts) = ts := by
  refine List.ext_getElem? fun i => ?_
  rw [List.getElem?_map, getElem?_numbered]
  cases ht : ts[i]? with
  | none => rfl
  | some t => simp only [Option.map_some, Token.writtenIn, ht]

theorem numbered_congr {ts ts' : List Token} (h : ts.map Token.sense = ts'.map Token.sense) :
    numbered ts = numbered ts' := by
  refine List.ext_getElem? fun i => ?_
  have hi := congrArg (fun l => l[i]?) h
  simp only [List.getElem?_map] at hi
  rw [getElem?_numbered, getElem?_numbered]
  cases ht : ts[i]? <;> cases ht' : ts'[i]? <;> simp_all [Token.sense]

theorem mapOperators_mapOperators (f g : Token → Token) (e : Expr) :
    (e.mapOperators f).mapOperators g = e.mapOperators (g ∘ f) := by
  induction e with
  | literal v => rfl
  | grouping e ih => rw [mapOperators, mapOperators, ih, mapOperators]
  | unary op e ih => rw [mapOperators, mapOperators, ih, mapOperators, Function.comp_apply]
  | binary l op r ihl ihr => rw [mapOperators, mapOperators, ihl, ihr, mapOperators, Function.comp_apply]

theorem unwritten_comp_writtenIn (ts : List Token) : Token.unwritten ∘ Token.writtenIn ts = Token.unwritten := by
  funext t
  rw [Function.comp_apply, Token.unwritten, (keepsSense_writtenIn ts t).1, (keepsSense_writtenIn ts t).2]
  rfl

section Numbered

variable {ts : List Token} {m : Expr} (h : parse (numbered ts) = .ok m)
include h

/-- **The tree of a list** is the tree of its positions, written as in the list. -/
theorem parse_eq_mapOperators : parse ts = .ok (m.mapOperators (.writtenIn ts)) := by
  have hmap := parse_map (keepsSense_writtenIn ts) h
  rwa [map_writtenIn_numbered] at hmap

/-- The operators of the tree of positions are operators of the language, at positions of the list. -/
theorem operable_of_parse_numbered : m.Operable ∧ ∀ op ∈ m.operatorTokens, op ∈ numbered ts := by
  obtain ⟨p, rest, hb, hp, -, -⟩ := exists_phrase_of_parse h
  refine ⟨hp.canonical.operable, fun op hop => ?_⟩
  have hmem : op ∈ p := hp.spells.operatorTokens_sublist.subset hop
  exact (List.takeWhile_sublist _).subset (hb ▸ List.mem_append_left rest hmem)

/-- **The outcome of a list** is the outcome of the tree of its positions, a fault at the token that stands there. -/
theorem eval_mapOperators_writtenIn :
    (m.mapOperators (.writtenIn ts)).eval = m.eval.mapError (.mapOperator (.writtenIn ts)) :=
  (operable_of_parse_numbered h).1.eval_mapOperators fun t => (keepsSense_writtenIn ts t).1

theorem getElem?_of_eval_eq_error {fault : RuntimeError} (hf : m.eval = .error fault) :
    ts[fault.operator.line]? = some (fault.operator.writtenIn ts) := by
  obtain ⟨hoperable, hmem⟩ := operable_of_parse_numbered h
  exact getElem?_of_mem_numbered (hmem _ (hoperable.eval_eq_error hf).1)

end Numbered

/-! ## Lists that say the same -/

/-- The outcome of a tree of positions and what it is in two lists: the same value, or faults with the same message at
the tokens that stand at the same position. -/
inductive SameAtPositions (ts ts' : List Token) :
    Except RuntimeError Value → Except RuntimeError Value → Except RuntimeError Value → Prop
  | value (v : Value) : SameAtPositions ts ts' (.ok v) (.ok v) (.ok v)
  | fault {place op op' : Token} {message : String} (hop : ts[place.line]? = some op)
      (hop' : ts'[place.line]? = some op') :
      SameAtPositions ts ts' (.error ⟨place, message⟩) (.error ⟨op, message⟩) (.error ⟨op', message⟩)

/-- Two lists are parsed as one tree of positions, so as trees that differ in the texts and lines of their operators
only, and both trees have the outcome of the tree of positions. -/
structure ParsedAlike (ts ts' : List Token) (m e e' : Expr) : Prop where
  positions : parse (numbered ts) = .ok m
  parse_eq : parse ts = .ok e
  parse_eq' : parse ts' = .ok e'
  eq_written : e = m.mapOperators (.writtenIn ts)
  eq_written' : e' = m.mapOperators (.writtenIn ts')
  same : e.mapOperators .unwritten = e'.mapOperators .unwritten
  outcome : SameAtPositions ts ts' m.eval e.eval e'.eval

theorem sameAtPositions_eval {ts ts' : List Token} {m : Expr} (h : parse (numbered ts) = .ok m)
    (h' : parse (numbered ts') = .ok m) :
    SameAtPositions ts ts' m.eval (m.mapOperators (.writtenIn ts)).eval (m.mapOperators (.writtenIn ts')).eval := by
  rw [eval_mapOperators_writtenIn h, eval_mapOperators_writtenIn h']
  cases heval : m.eval with
  | ok v => exact .value v
  | error fault => exact .fault (getElem?_of_eval_eq_error h heval) (getElem?_of_eval_eq_error h' heval)

/-- **Lists that agree in kinds and values** are parsed and evaluated alike, or parsing both fails with the same message
at the same position. -/
theorem parse_of_sense_eq {ts ts' : List Token} (h : ts.map Token.sense = ts'.map Token.sense) :
    (∃ m e e', ParsedAlike ts ts' m e e') ∨
      ∃ (i : Nat) (t t' : Token) (message : String), (withEnd ts)[i]? = some t ∧ (withEnd ts')[i]? = some t' ∧
        parse ts = .error (.atToken t message) ∧ parse ts' = .error (.atToken t' message) := by
  have hnumbered := numbered_congr h
  cases hparse : parse (numbered ts) with
  | ok m =>
    have hparse' : parse (numbered ts') = .ok m := hnumbered ▸ hparse
    refine .inl ⟨m, _, _, hparse, parse_eq_mapOperators hparse, parse_eq_mapOperators hparse', rfl, rfl, ?_,
      sameAtPositions_eval hparse hparse'⟩
    rw [mapOperators_mapOperators, mapOperators_mapOperators, unwritten_comp_writtenIn, unwritten_comp_writtenIn]
  | error error =>
    obtain ⟨cause, p, rest, hb, hbreaks, -⟩ := exists_breaksOff_of_parse_error hparse
    obtain ⟨t, ht, herror⟩ := parse_map_error (keepsSense_writtenIn ts) hb hbreaks
    obtain ⟨t', ht', herror'⟩ := parse_map_error (keepsSense_writtenIn ts') hb hbreaks
    rw [map_writtenIn_numbered] at ht herror
    rw [hnumbered, map_writtenIn_numbered] at ht' herror'
    exact .inr ⟨p.length, t, t', cause.message, ht, ht', herror, herror'⟩

/-- A string that is negated and then compared, each token written in the same way one line below the other. -/
def negatedText (lexeme : String) (line : Nat) : List Token :=
  [⟨.minus, lexeme, none, line⟩, ⟨.string, lexeme, some (.str "a"), line + 1⟩, ⟨.less, lexeme, none, line + 2⟩,
    ⟨.kwNil, lexeme, none, line + 3⟩]

theorem parse_of_sense_eq_negatedText :
    (negatedText "-" 1).map Token.sense = (negatedText "less" 7).map Token.sense ∧
      ((∃ m e e', ParsedAlike (negatedText "-" 1) (negatedText "less" 7) m e e') ∨
        ∃ (i : Nat) (t t' : Token) (message : String),
          (withEnd (negatedText "-" 1))[i]? = some t ∧ (withEnd (negatedText "less" 7))[i]? = some t' ∧
            parse (negatedText "-" 1) = .error (.atToken t message) ∧
            parse (negatedText "less" 7) = .error (.atToken t' message)) :=
  ⟨rfl, parse_of_sense_eq rfl⟩

end LoxCalc
