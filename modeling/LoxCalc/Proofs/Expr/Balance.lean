import LoxCalc.Proofs.Expr.Walk
import LoxCalc.Proofs.Expr.InRange
import LoxCalc.Proofs.Expr.Height

/-!
# LoxCalc.Proofs.Expr.Balance — every production leaves the counters as it found them

Each production of expressions is read in place (`Production.read`) and is a reader of lists as well
(`Production.reader`).  From every state within the bounds it has an outcome, the answer of its reader
(`Production.keeps_and_tracks`).  Whether that is a tree or an error, depth, height, list and errors are those of the
beginning, and every state on the way there is within the bounds or half-way down; a tree has taken at least one token,
and its nesting has room below the depth (`Cursor.production_balanced`).

`Action.atDepth d x` has no outcome but within the bounds at the depth `d`.  In the place of the operands of a level it
changes nothing: all operands of one level are read at one depth (`Cursor.level_atDepth`).
-/

namespace LoxCalc

open LoxCalc.Expr

/-! ## Productions -/

/-- The productions of expressions, from the loosest to the tightest. -/
inductive Production where
  | expression | equality | comparison | term | factor | unary | primary
deriving DecidableEq, Repr

namespace Production

section Stack

variable {α β : Type}

/-- The levels of binary operators one over the other, on prefix operators and what they stand before. -/
def stack (level : (TokenKind → Bool) → α → α) (prefixed plain : α) : Production → α
  | expression | equality =>
    level TokenKind.isEquality
      (level TokenKind.isComparison (level TokenKind.isTerm (level TokenKind.isFactor prefixed)))
  | comparison => level TokenKind.isComparison (level TokenKind.isTerm (level TokenKind.isFactor prefixed))
  | term => level TokenKind.isTerm (level TokenKind.isFactor prefixed)
  | factor => level TokenKind.isFactor prefixed
  | unary => prefixed
  | primary => plain

/-- The operators of a level and the production of its operands. -/
def level? : Production → Option ((TokenKind → Bool) × Production)
  | expression | equality => some (TokenKind.isEquality, comparison)
  | comparison => some (TokenKind.isComparison, term)
  | term => some (TokenKind.isTerm, factor)
  | factor => some (TokenKind.isFactor, unary)
  | unary | primary => none

theorem stack_of_level? {level : (TokenKind → Bool) → α → α} {prefixed plain : α} {p q : Production}
    {isOperator : TokenKind → Bool} (h : p.level? = some (isOperator, q)) :
    p.stack level prefixed plain = level isOperator (q.stack level prefixed plain) := by
  cases p <;> cases h <;> rfl

/-- What holds of the operands and is kept by the levels holds of every production. -/
theorem stack_induction {R : α → β → Prop} {level : (TokenKind → Bool) → α → α}
    {level' : (TokenKind → Bool) → β → β} {prefixed plain : α} {prefixed' plain' : β}
    (hlevel : ∀ {x y} isOperator, R x y → R (level isOperator x) (level' isOperator y))
    (hprefixed : R prefixed prefixed') (hplain : R plain plain') (p : Production) :
    R (p.stack level prefixed plain) (p.stack level' prefixed' plain') := by
  have hfactor := hlevel TokenKind.isFactor hprefixed
  have hterm := hlevel TokenKind.isTerm hfactor
  have hcomparison := hlevel TokenKind.isComparison hterm
  have hequality := hlevel TokenKind.isEquality hcomparison
  cases p with
  | expression => exact hequality
  | equality => exact hequality
  | comparison => exact hcomparison
  | term => exact hterm
  | factor => exact hfactor
  | unary => exact hprefixed
  | primary => exact hplain

end Stack

/-- The production in place.  As many calls inside one another as there may be nesting are enough. -/
def read : Production → Cursor.Action Expr :=
  stack Cursor.level (Cursor.operand maxNesting) (Cursor.primary (Cursor.expression maxNesting))

/-- What stands in parentheses, as a reader in a given room of nesting around them. -/
def parenthesised : (nesting : Nat) → Reader
  | 0 => Reader.refuse
  | nesting + 1 => Reader.below (Reader.expression nesting)

/-- The production as a reader in a given room of nesting. -/
def reader (nesting : Nat) : Production → Reader :=
  stack Reader.level (Reader.operand nesting) (Reader.primaryOf (parenthesised nesting))

section Tracks

variable {ts : EndedTokens} {d : Nat}

theorem tracks_parenthesised (hd : d ≤ maxNesting) :
    Cursor.Tracks ts d (Cursor.nested (Cursor.expression maxNesting)) (parenthesised (maxNesting - d)) := by
  rcases Nat.lt_or_eq_of_le hd with hlt | rfl
  · rw [show maxNesting - d = maxNesting - (d + 1) + 1 by omega]
    exact Cursor.tracks_nested hlt (Cursor.tracks_levels (Cursor.tracks_operand maxNesting hlt (Nat.le_add_right _ _)))
  · rw [Nat.sub_self]
    exact Cursor.tracks_nested_full hd

theorem keeps_and_tracks (p : Production) (ts : EndedTokens) (hd : d ≤ maxNesting) :
    Cursor.Keeps p.read ∧ Cursor.Tracks ts d p.read (p.reader (maxNesting - d)) := by
  have hoperand := Cursor.keeps_operand maxNesting
  exact stack_induction (R := fun x read => Cursor.Keeps x ∧ Cursor.Tracks ts d x read)
    (fun isOperator hx => ⟨Cursor.keeps_level hx.1 isOperator, Cursor.tracks_level hx.2 isOperator⟩)
    ⟨hoperand, Cursor.tracks_operand maxNesting hd (Nat.le_add_right _ _)⟩
    ⟨Cursor.keeps_primary (Cursor.keeps_levels hoperand), Cursor.tracks_primary (tracks_parenthesised hd)⟩ p

end Tracks

end Production

/-! ## Tokens taken and room of nesting -/

theorem Expr.Spells.ne_nil {e : Expr} {p : List Token} (h : e.Spells p) : p ≠ [] := by
  cases h <;> simp

/-- A tree takes tokens, and fits below `d` prefix operators and parentheses. -/
def TakesTokens (d : Nat) (read : Reader) : Prop :=
  ∀ ⦃room h : Nat⦄ ⦃ts rest : List Token⦄ ⦃e : Expr⦄, room + h = maxHeight → read room ts = .ok (e, rest) →
    rest.length < ts.length ∧ e.FitsAt d h

theorem Reads.takesTokens {m d : Nat} {read : Reader} (hr : Reads m (FitsAt d) read) : TakesTokens d read := by
  intro room h ts rest e hh hok
  obtain ⟨p, rfl, hp, hf, -⟩ := hr.sound hh hok
  have hpos := List.length_pos_iff.2 hp.spells.ne_nil
  exact ⟨by rw [List.length_append]; omega, hf⟩

namespace Production

theorem operand_of_primaryOf {n room : Nat} {ts : List Token} {r : Expr × List Token}
    (h : Reader.primaryOf (parenthesised n) room ts = .ok r) : Reader.operand n room ts = .ok r := by
  cases n with
  | zero => exact operandOf_of_primaryOf _ h
  | succ n => exact operandOf_of_primaryOf _ h

theorem takesTokens (p : Production) {n d : Nat} (hn : n + d = maxNesting) : TakesTokens d (p.reader n) := by
  have hunary := reads_operand n hn
  have hfactor := reads_level (fun _ => TokenKind.isFactor_iff) hunary (by omega)
  have hterm := reads_level (fun _ => TokenKind.isTerm_iff) hfactor (by omega)
  have hcomparison := reads_level (fun _ => TokenKind.isComparison_iff) hterm (by omega)
  have hequality := reads_level (fun _ => TokenKind.isEquality_iff) hcomparison (by omega)
  cases p with
  | expression => exact hequality.takesTokens
  | equality => exact hequality.takesTokens
  | comparison => exact hcomparison.takesTokens
  | term => exact hterm.takesTokens
  | factor => exact hfactor.takesTokens
  | unary => exact hunary.takesTokens
  | primary => exact fun _ _ _ _ _ hh hok => hunary.takesTokens hh (operand_of_primaryOf hok)

end Production

theorem nesting_le_of_parse {tokens : List Token} {e : Expr} (h : parse tokens = .ok e) : e.nesting ≤ maxNesting := by
  obtain ⟨p, rest, -, -, hf, -⟩ := exists_phrase_of_parse h
  have hlimits := (fitsAt_iff e (Nat.zero_le _) (Nat.zero_le _)).1 hf
  omega

namespace Cursor

/-! ## Bounds and sound states -/

section Sound

variable {c : Cursor}

theorem firstEnd_eq {ts : EndedTokens} {after : List Token} (h : c.tokens = ts.body ++ ts.ending :: after)
    (hbody : ∀ t ∈ ts.body, t.kind ≠ .eof) (hending : ts.ending.kind = .eof) : c.firstEnd = ts.body.length := by
  have hnone : ts.body.findIdx (·.kind == .eof) = ts.body.length := by
    simpa [List.findIdx_eq_length] using hbody
  rw [firstEnd, h, List.findIdx_append, hnone, if_neg (Nat.lt_irrefl _), List.findIdx_cons]
  simp [hending]

theorem Sound.firstEnd_eq {ts : EndedTokens} (hc : c.Sound ts) : c.firstEnd = ts.body.length := by
  obtain ⟨after, hafter⟩ := hc.tokens_eq
  exact Cursor.firstEnd_eq hafter hc.kind_ne_eof hc.kind_ending

/-- In a list that is ended a state within the bounds is sound. -/
theorem InBounds.sound (hc : c.InBounds) (hended : c.tokens.getLast?.map Token.kind = some .eof) :
    c.Sound (EndedTokens.ofList c.tokens) := by
  obtain ⟨after, hafter⟩ := EndedTokens.exists_withEnd_eq c.tokens
  rw [withEnd, if_pos hended] at hafter
  have hbody : ∀ t ∈ (EndedTokens.ofList c.tokens).body, t.kind ≠ .eof := fun _ => EndedTokens.kind_ne_eof_of_mem_body
  have hending := EndedTokens.kind_ending c.tokens
  exact {
    tokens_eq := ⟨after, hafter⟩
    kind_ne_eof := hbody
    kind_ending := hending
    current_le := firstEnd_eq hafter hbody hending ▸ hc.current_le
    depth_le := hc.depth_le
    depth_le_height := Nat.le_succ_of_le hc.depth_le_height
    height_le := hc.height_le }

theorem Sound.inBounds {ts : EndedTokens} (hc : c.Sound ts) (hle : c.depth ≤ c.height) : c.InBounds :=
  ⟨hc.depth_le, hle, hc.height_le, Nat.le_trans hc.current_le (Nat.le_of_eq hc.firstEnd_eq.symm)⟩

end Sound

/-! ## Operands of one level -/

instance (c : Cursor) : Decidable c.InBounds :=
  decidable_of_iff (c.depth ≤ maxNesting ∧ c.depth ≤ c.height ∧ c.height ≤ maxHeight ∧ c.current ≤ c.firstEnd)
    ⟨fun ⟨h₁, h₂, h₃, h₄⟩ => ⟨h₁, h₂, h₃, h₄⟩, fun ⟨h₁, h₂, h₃, h₄⟩ => ⟨h₁, h₂, h₃, h₄⟩⟩

/-- The action from states within the bounds at a given depth; from any other it has no outcome. -/
def Action.atDepth {α : Type} (d : Nat) (x : Action α) : Action α := fun c =>
  if c.depth = d ∧ c.InBounds then x c else none

section Agrees

variable {α β : Type}

/-- Where the one action has an outcome, the other has the same. -/
def Agrees (x y : Action α) : Prop := ∀ ⦃c : Cursor⦄ ⦃o : Outcome α⦄, x c = some o → y c = some o

theorem Agrees.refl (x : Action α) : Agrees x x := fun _ _ h => h

theorem agrees_atDepth (d : Nat) (x : Action α) : Agrees (x.atDepth d) x := by
  intro c o h
  unfold Action.atDepth at h
  split at h
  · exact h
  · cases h

theorem Agrees.bind {x y : Action α} {f g : α → Action β} (hx : Agrees x y) (hf : ∀ a, Agrees (f a) (g a)) :
    Agrees (x >>= f) (y >>= g) := by
  intro c o h
  change Action.bind y g c = some o
  obtain ⟨e, ss, c', hrun, rfl⟩ | ⟨a, ss, c', o', hrun, hrun', rfl⟩ := bind_eq_some h
  · simp only [Action.bind, hx hrun]
  · simp only [Action.bind, hx hrun, hf a hrun', Option.map_some]

variable {x y : Action Expr}

theorem Agrees.foldRest (h : Agrees x y) (isOperator : TokenKind → Bool) (turns : Nat) :
    ∀ left, Agrees (foldRest isOperator x turns left) (foldRest isOperator y turns left) := by
  induction turns with
  | zero => exact fun _ => .refl _
  | succ turns ih =>
    intro left
    refine (Agrees.refl (takes isOperator)).bind fun
      | false => .refl _
      | true => ?_
    exact (Agrees.refl previous).bind fun _ => (Agrees.refl grow).bind fun _ => h.bind fun _ => ih _

theorem Agrees.level (h : Agrees x y) (isOperator : TokenKind → Bool) :
    Agrees (level isOperator x) (level isOperator y) := by
  intro c o hrun
  rw [level_eq] at hrun ⊢
  obtain ⟨o', ho', rfl⟩ := Option.map_eq_some_iff.1 hrun
  rw [(h.bind fun _ => h.foldRest isOperator _ _) ho', Option.map_some]

end Agrees

section AtDepth

variable {ts : EndedTokens} {d : Nat} {x : Action Expr} {read : Reader}

theorem Tracks.atDepth (hx : Tracks ts d x read) : Tracks ts d (x.atDepth d) read := by
  intro c room hc hd hle hroom
  obtain ⟨p, hp⟩ := hx hc hd hle hroom
  obtain ⟨passed, hrun, hpassed⟩ := hp.runs.outcome
  have hsame : x.atDepth d c = x c := if_pos ⟨hd, hc.inBounds (hd ▸ hle)⟩
  exact ⟨p, ⟨⟨passed, hsame.trans hrun, hpassed⟩, hp.runs.sound, hp.runs.le⟩, hp.drop_eq⟩

/-- **Operands of one level are read at one depth**, that of the level, and within the bounds. -/
theorem level_atDepth (hx : Tracks ts d x read) (isOperator : TokenKind → Bool) {c : Cursor} (hc : c.Sound ts)
    (hd : c.depth = d) (hle : d ≤ c.height) : level isOperator (x.atDepth d) c = level isOperator x c := by
  have hroom : maxHeight - c.height + c.height = maxHeight := Nat.sub_add_cancel hc.height_le
  obtain ⟨p, hp⟩ := tracks_level hx.atDepth isOperator hc hd hle hroom
  obtain ⟨passed, hrun, -⟩ := hp.runs.outcome
  rw [hrun, (agrees_atDepth d x).level isOperator hrun]

end AtDepth

/-! ## Balance -/

/-- What a production comes to: the counters, the list and the errors of the beginning, the cursor where it was or
further on, but not behind the first end, and a walk up to there on which every state is within the bounds or half-way
down.  A tree has taken tokens, and has at most as many prefix operators and groupings on a path as there is room below
the depth. -/
structure Balanced (c : Cursor) (o : Outcome Expr) : Prop where
  final_eq : o.final = { c with current := o.final.current }
  current_le : c.current ≤ o.final.current
  current_le_firstEnd : o.final.current ≤ c.firstEnd
  current_lt : ∀ e, o.result = .ok e → c.current < o.final.current
  nesting_le : ∀ e, o.result = .ok e → c.depth + e.nesting ≤ maxNesting
  walk : Walk c o.passed o.final
  inBounds_or_halfWay : ∀ s ∈ o.passed, s.InBounds ∨ s.HalfWay

section Productions

variable (p : Production) {c : Cursor}

/-- From a sound state a production comes to the answer of its reader, and is balanced. -/
theorem exists_balanced {ts : EndedTokens} (hs : c.Sound ts) (hc : c.InBounds) :
    ∃ o, p.read c = some o ∧ Balanced c o ∧ o.result =
      resultOf ts.ending (p.reader (maxNesting - c.depth) (maxHeight - c.height) (ts.body.drop c.current)) := by
  have hroom : maxHeight - c.height + c.height = maxHeight := Nat.sub_add_cancel hc.height_le
  obtain ⟨hkeeps, htracks⟩ := p.keeps_and_tracks ts hc.depth_le
  obtain ⟨q, hq⟩ := htracks hs rfl hc.depth_le_height hroom
  obtain ⟨passed, hrun, -⟩ := hq.runs.outcome
  have htree : ∀ e, resultOf ts.ending (p.reader (maxNesting - c.depth) (maxHeight - c.height)
      (ts.body.drop c.current)) = .ok e → c.current < q ∧ c.depth + e.nesting ≤ maxNesting := by
    intro e he
    cases hr : p.reader (maxNesting - c.depth) (maxHeight - c.height) (ts.body.drop c.current) with
    | error fault =>
      rw [hr] at he
      cases he
    | ok r =>
      rw [hr] at he
      cases he
      have hnesting : maxNesting - c.depth + c.depth = maxNesting := Nat.sub_add_cancel hc.depth_le
      obtain ⟨hlt, hf⟩ := p.takesTokens hnesting hroom hr
      have hdrop : ts.body.drop q = r.2 := hq.drop_eq _ hr
      have hfits := (fitsAt_iff r.1 hc.depth_le hc.height_le).1 hf
      rw [← hdrop, List.length_drop, List.length_drop] at hlt
      omega
  have hwalk := (hkeeps hc hrun).1
  refine ⟨_, hrun, ?_, rfl⟩
  exact {
    final_eq := rfl
    current_le := hwalk.onward.current_le
    current_le_firstEnd := hs.firstEnd_eq ▸ hq.runs.sound.current_le
    current_lt := fun e he => (htree e he).1
    nesting_le := fun e he => (htree e he).2
    walk := hwalk
    inBounds_or_halfWay := hwalk.inBounds_or_halfWay }

/-- **The counters are balanced.**  In every list that ends with an end, from every state within the bounds: each
production has an outcome, the answer of its reader, and is balanced; the operands of a level are read at the depth of
the level, within the bounds; and no tree that is parsed has more than `maxNesting` prefix operators and groupings on a
path. -/
theorem production_balanced (hended : c.tokens.getLast?.map Token.kind = some .eof) (hc : c.InBounds) :
    (∃ o, p.read c = some o ∧ Balanced c o ∧ o.result =
        resultOf (EndedTokens.ofList c.tokens).ending (p.reader (maxNesting - c.depth) (maxHeight - c.height)
          ((EndedTokens.ofList c.tokens).body.drop c.current))) ∧
      (∀ isOperator q, p.level? = some (isOperator, q) →
        p.read = level isOperator q.read ∧ level isOperator (q.read.atDepth c.depth) c = p.read c) ∧
      ∀ tokens e, LoxCalc.parse tokens = .ok e → e.nesting ≤ maxNesting := by
  have hs := hc.sound hended
  refine ⟨exists_balanced p hs hc, fun isOperator q h => ?_, fun _ _ => nesting_le_of_parse⟩
  have hread : p.read = level isOperator q.read := Production.stack_of_level? h
  refine ⟨hread, ?_⟩
  rw [hread, level_atDepth (q.keeps_and_tracks _ hc.depth_le).2 isOperator hs rfl hc.depth_le_height]

/-- **A state beyond the bounds**: at the beginning of `-1` both counters are zero, and in front of the `1` the depth is
raised before the height. -/
theorem negation_passes_halfWay :
    let start := ofList [⟨.minus, "-", none, 1⟩, oneToken, .eof 1]
    start.tokens.getLast?.map Token.kind = some .eof ∧ start.InBounds ∧
      ∃ o, Production.expression.read start = some o ∧ ∃ s ∈ o.passed, s.depth = 1 ∧ s.height = 0 ∧ ¬ s.InBounds := by
  intro start
  have hpasses : ((Production.expression.read start).any fun o =>
      o.passed.any fun s => s.depth = 1 ∧ s.height = 0) = true := by
    decide +kernel
  refine ⟨rfl, by decide +kernel, ?_⟩
  obtain ⟨o, hrun, ho⟩ := Option.any_eq_true _ _ |>.1 hpasses
  obtain ⟨s, hs, hcounters⟩ := List.any_eq_true.1 ho
  obtain ⟨hdepth, hheight⟩ := of_decide_eq_true hcounters
  refine ⟨o, hrun, s, hs, hdepth, hheight, fun hin => ?_⟩
  have hle := hin.depth_le_height
  omega

/-- In front of `1 * -(1)`, with room for one level of nesting. -/
def nearLimit : Cursor where
  tokens := [oneToken, ⟨.star, "*", none, 1⟩, ⟨.minus, "-", none, 1⟩, ⟨.leftParen, "(", none, 1⟩, oneToken,
    ⟨.rightParen, ")", none, 1⟩, .eof 1]
  current := 0
  depth := 127
  height := 127
  errors := []

/-- The minus takes the last level, where the depth is as high as the height; the parenthesis is refused. -/
theorem factor_balanced_nearLimit :
    nearLimit.tokens.getLast?.map Token.kind = some .eof ∧ nearLimit.InBounds ∧
      (∃ o, Production.factor.read nearLimit = some o ∧ Balanced nearLimit o ∧
        o.result = .error (.atToken oneToken "Too much nesting.")) ∧
      level TokenKind.isFactor (Production.unary.read.atDepth 127) nearLimit = Production.factor.read nearLimit ∧
      ∃ e, LoxCalc.parse (negatedSum 2) = .ok e ∧ e.nesting ≤ maxNesting := by
  have hc : nearLimit.InBounds := ⟨by decide, by decide, by decide, Nat.zero_le _⟩
  obtain ⟨⟨o, hrun, hbalanced, hresult⟩, hlevel, hnesting⟩ := production_balanced .factor (c := nearLimit) rfl hc
  obtain ⟨e, hok, -⟩ := parse_negatedSum (show 2 ≤ maxHeight by decide)
  exact ⟨rfl, hc, ⟨o, hrun, hbalanced, hresult.trans rfl⟩, (hlevel _ _ rfl).2, e, hok, hnesting _ _ hok⟩

end Productions

end Cursor

end LoxCalc
