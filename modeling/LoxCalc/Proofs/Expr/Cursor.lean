import LoxCalc.Proofs.Expr.Boundaries

/-!
# LoxCalc.Proofs.Expr.Cursor — reading in place

The readers of expressions take lists of tokens and give back what is left of them.  Here the same language is read in
place: the list stays as it is, a state holds an index into it, the depth and the height reached so far and the errors
met, and every token is looked up at an index.  Looking up a token where there is none has no outcome, nor has a
recursion that is used up; so an outcome says that neither happened.

`Runs ts x c r c'`: from the state `c` the action `x` has the result `r` and ends in `c'`; no state on the way is behind
the first end of the list, before the place where the action began, or beyond the limits.  There is one rule for each
primitive action.
-/

namespace LoxCalc

/-- A place in a list of tokens: its index, what is counted up to there, and the errors so far. -/
structure Cursor where
  tokens : List Token
  current : Nat
  depth : Nat
  height : Nat
  errors : List SyntaxError

namespace Cursor

/-- The beginning of a list, which is ended if it is not. -/
def ofList (tokens : List Token) : Cursor := ⟨withEnd tokens, 0, 0, 0, []⟩

/-- What an action comes to: its result, every state it set on the way, and the state it ends in. -/
structure Outcome (α : Type) where
  result : Except SyntaxError α
  passed : List Cursor
  final : Cursor

/-- What is done from a state on, if it has an outcome. -/
def Action (α : Type) : Type := Cursor → Option (Outcome α)

section Actions

variable {α β : Type}

/-- An error ends what is done. -/
def Action.bind (x : Action α) (f : α → Action β) : Action β := fun c =>
  match x c with
  | none => none
  | some ⟨.error e, passed, c'⟩ => some ⟨.error e, passed, c'⟩
  | some ⟨.ok a, passed, c'⟩ => (f a c').map fun o => { o with passed := passed ++ o.passed }

instance : Monad Action where
  pure a := fun c => some ⟨.ok a, [], c⟩
  bind := Action.bind

/-- No outcome. -/
def stuck : Action α := fun _ => none

/-- A given result. -/
def give (r : Except SyntaxError α) : Action α := fun c => some ⟨r, [], c⟩

/-- The result, an error as well, as a value. -/
def attempt (x : Action α) : Action (Except SyntaxError α) := fun c =>
  (x c).map fun o => ⟨.ok o.result, o.passed, o.final⟩

end Actions

/-! ## Tokens under the cursor -/

def state : Action Cursor := fun c => some ⟨.ok c, [], c⟩

def move (f : Cursor → Cursor) : Action Unit := fun c => some ⟨.ok (), [f c], f c⟩

/-- The token at an index. -/
def lookUp (i : Nat) : Action Token := fun c => c.tokens[i]?.map fun t => ⟨.ok t, [], c⟩

def here : Action Token := do lookUp (← state).current

def previous : Action Token := do lookUp ((← state).current - 1)

def atEnd : Action Bool := do return (← here).kind == .eof

/-- One token on, unless at an end; the token passed. -/
def next : Action Token := do
  if ← atEnd then previous
  else do
    move fun c => { c with current := c.current + 1 }
    previous

/-- Whether a token of such a kind stands here. -/
def sees (isKind : TokenKind → Bool) : Action Bool := do
  if ← atEnd then return false
  else return isKind (← here).kind

/-- Past a token of such a kind, if one stands here. -/
def takes (isKind : TokenKind → Bool) : Action Bool := do
  if ← sees isKind then do
    let _ ← next
    return true
  else return false

/-- An error at the token that stands here. -/
def fail {α : Type} (cause : SyntaxCause) : Action α := do
  let t ← here
  give (.error (.atToken t cause.message))

def expect (kind : TokenKind) (cause : SyntaxCause) : Action Token := do
  if ← sees (· == kind) then next
  else fail cause

/-! ## Expressions -/

/-- One node further down. -/
def grow : Action Unit := do
  let c ← state
  if maxHeight ≤ c.height then fail .tooMuchNesting
  else move fun c => { c with height := c.height + 1 }

/-- One prefix operator or pair of parentheses further down; the counters are put back, whatever the result. -/
def nested (x : Action Expr) : Action Expr := do
  let outer ← state
  if maxNesting ≤ outer.depth then fail .tooMuchNesting
  else do
    move fun c => { c with depth := c.depth + 1 }
    let result ← attempt do
      grow
      x
    move fun c => { c with depth := outer.depth }
    move fun c => { c with height := outer.height }
    give result

/-- The operators of one level and their right operands, folded to the left onto a tree, in so many turns. -/
def foldRest (isOperator : TokenKind → Bool) (operand : Action Expr) : (turns : Nat) → Expr → Action Expr
  | 0, _ => stuck
  | turns + 1, left => do
    if ← takes isOperator then do
      let operator ← previous
      grow
      let right ← operand
      foldRest isOperator operand turns (.binary left operator right)
    else return left

/-- One level of binary operators; the height is put back, whatever the result. -/
def level (isOperator : TokenKind → Bool) (operand : Action Expr) : Action Expr := do
  let outer ← state
  let result ← attempt do
    let left ← operand
    foldRest isOperator operand (maxHeight + 1) left
  move fun c => { c with height := outer.height }
  give result

/-- The four levels of binary operators over given operands. -/
def levels (operand : Action Expr) : Action Expr :=
  level TokenKind.isEquality (level TokenKind.isComparison (level TokenKind.isTerm (level TokenKind.isFactor operand)))

/-- A literal or a parenthesised expression. -/
def primary (expression : Action Expr) : Action Expr := do
  let t ← here
  match t.kind with
  | .kwFalse => do
    let _ ← next
    return .literal (.bool false)
  | .kwTrue => do
    let _ ← next
    return .literal (.bool true)
  | .kwNil => do
    let _ ← next
    return .literal .nil
  | .number | .string => do
    let t ← next
    match t.literal with
    | some l => return .literal (Reader.literalOf l)
    | none => give (.error (.atToken t SyntaxCause.expectedExpression.message))
  | .leftParen => do
    let _ ← next
    let inner ← nested expression
    let _ ← expect .rightParen .expectedClosing
    return .grouping inner
  | _ => fail .expectedExpression

/-- Prefix operators and what they stand before. -/
def unary (again expression : Action Expr) : Action Expr := do
  if ← takes TokenKind.isPrefixOperator then do
    let operator ← previous
    let right ← nested again
    return .unary operator right
  else primary expression

/-- An operand of a binary operator, with so many recursive calls inside one another. -/
def operand : (calls : Nat) → Action Expr
  | 0 => unary stuck stuck
  | calls + 1 => unary (operand calls) (levels (operand calls))

def expression (calls : Nat) : Action Expr := levels (operand calls)

/-! ## Statement boundaries and whole lists -/

/-- On to the next statement boundary, in so many turns. -/
def toBoundary : (turns : Nat) → Action Unit
  | 0 => stuck
  | turns + 1 => do
    if ← atEnd then return ()
    else do
      let before ← previous
      if before.kind = .semicolon then return ()
      else do
        let t ← here
        if t.kind.startsStatement then return ()
        else do
          let _ ← next
          toBoundary turns

/-- Past one token, and on to the next statement boundary. -/
def synchronize : Action Unit := do
  let _ ← next
  let c ← state
  toBoundary (c.tokens.length + 1)

def synchronizeTimes : (k : Nat) → Action Unit
  | 0 => pure ()
  | k + 1 => do
    synchronize
    synchronizeTimes k

/-- The expression from here on, or the errors met. -/
def parse : Action (Except (List SyntaxError) Expr) := do
  let result ← attempt (expression maxNesting)
  match result with
  | .ok e => return .ok e
  | .error error => do
    move fun c => { c with errors := c.errors ++ [error] }
    synchronize
    let c ← state
    return .error c.errors

/-- Parsing after going on to the next statement boundary `k` times. -/
def parseAfter (k : Nat) : Action (Except (List SyntaxError) Expr) := do
  synchronizeTimes k
  parse

/-! ## Runs -/

/-- A state in a list that begins with the tokens and their end: at or before that end, and within the limits.  The
depth goes up before the height, and down before it. -/
structure Sound (ts : EndedTokens) (c : Cursor) : Prop where
  tokens_eq : ∃ after, c.tokens = ts.body ++ ts.ending :: after
  kind_ne_eof : ∀ t ∈ ts.body, t.kind ≠ .eof
  kind_ending : ts.ending.kind = .eof
  current_le : c.current ≤ ts.body.length
  depth_le : c.depth ≤ maxNesting
  depth_le_height : c.depth ≤ c.height + 1
  height_le : c.height ≤ maxHeight

/-- From `c` the action has the result `r` and ends in `c'`, and every state on the way is sound and not before `c`. -/
structure Runs {α : Type} (ts : EndedTokens) (x : Action α) (c : Cursor) (r : Except SyntaxError α) (c' : Cursor) :
    Prop where
  outcome : ∃ passed, x c = some ⟨r, passed, c'⟩ ∧ ∀ s ∈ passed, s.Sound ts ∧ c.current ≤ s.current
  sound : c'.Sound ts
  le : c.current ≤ c'.current

section Runs

variable {α β : Type} {ts : EndedTokens} {c c' c'' : Cursor}

theorem runs_give (hc : c.Sound ts) (r : Except SyntaxError α) : Runs ts (give r) c r c :=
  ⟨⟨[], rfl, by simp⟩, hc, Nat.le_refl _⟩

theorem runs_pure (hc : c.Sound ts) (a : α) : Runs ts (pure a) c (.ok a) c := runs_give hc (.ok a)

theorem runs_state (hc : c.Sound ts) : Runs ts state c (.ok c) c := ⟨⟨[], rfl, by simp⟩, hc, Nat.le_refl _⟩

theorem runs_move {f : Cursor → Cursor} (hf : (f c).Sound ts) (hle : c.current ≤ (f c).current) :
    Runs ts (move f) c (.ok ()) (f c) :=
  ⟨⟨[f c], rfl, by simpa using ⟨hf, hle⟩⟩, hf, hle⟩

theorem runs_lookUp (hc : c.Sound ts) {i : Nat} {t : Token} (ht : c.tokens[i]? = some t) :
    Runs ts (lookUp i) c (.ok t) c :=
  ⟨⟨[], by simp [lookUp, ht], by simp⟩, hc, Nat.le_refl _⟩

theorem Runs.bind {x : Action α} {f : α → Action β} {a : α} {r : Except SyntaxError β} (hx : Runs ts x c (.ok a) c')
    (hf : Runs ts (f a) c' r c'') : Runs ts (x >>= f) c r c'' := by
  obtain ⟨passed, hrun, hpassed⟩ := hx.outcome
  obtain ⟨passed', hrun', hpassed'⟩ := hf.outcome
  refine ⟨⟨passed ++ passed', ?_, ?_⟩, hf.sound, Nat.le_trans hx.le hf.le⟩
  · show Action.bind x f c = _
    simp only [Action.bind, hrun, hrun', Option.map_some]
  · intro s hs
    rcases List.mem_append.1 hs with hs | hs
    · exact hpassed s hs
    · exact ⟨(hpassed' s hs).1, Nat.le_trans hx.le (hpassed' s hs).2⟩

theorem Runs.bind_error {x : Action α} {f : α → Action β} {e : SyntaxError} (hx : Runs ts x c (.error e) c') :
    Runs ts (x >>= f) c (.error e) c' := by
  obtain ⟨passed, hrun, hpassed⟩ := hx.outcome
  refine ⟨⟨passed, ?_, hpassed⟩, hx.sound, hx.le⟩
  show Action.bind x f c = _
  simp only [Action.bind, hrun]

theorem Runs.attempt {x : Action α} {r : Except SyntaxError α} (hx : Runs ts x c r c') :
    Runs ts (attempt x) c (.ok r) c' := by
  obtain ⟨passed, hrun, hpassed⟩ := hx.outcome
  exact ⟨⟨passed, by simp [Cursor.attempt, hrun], hpassed⟩, hx.sound, hx.le⟩

end Runs

/-! ### Tokens under the cursor -/

section Tokens

variable {ts : EndedTokens} {c : Cursor} (hc : c.Sound ts)
include hc

/-- **In range**: every index up to the first end is the index of a token. -/
theorem Sound.getElem?_tokens {i : Nat} (hi : i ≤ ts.body.length) :
    c.tokens[i]? = some ((ts.body.drop i).headD ts.ending) := by
  obtain ⟨after, hafter⟩ := hc.tokens_eq
  exact EndedTokens.getElem?_of_eq_append hafter hi

theorem runs_here {rest : List Token} (h : ts.body.drop c.current = rest) :
    Runs ts here c (.ok (rest.headD ts.ending)) c :=
  (runs_state hc).bind (runs_lookUp hc (h ▸ hc.getElem?_tokens hc.current_le))

theorem runs_previous {rest : List Token} (h : ts.body.drop (c.current - 1) = rest) :
    Runs ts previous c (.ok (rest.headD ts.ending)) c :=
  (runs_state hc).bind
    (runs_lookUp hc (h ▸ hc.getElem?_tokens (Nat.le_trans (Nat.sub_le _ _) hc.current_le)))

theorem runs_fail {α : Type} {rest : List Token} (h : ts.body.drop c.current = rest) (cause : SyntaxCause) :
    Runs ts (fail (α := α) cause) c (.error (SyntaxFault.toError ⟨cause, rest⟩ ts.ending)) c :=
  (runs_here hc h).bind (runs_give hc _)

/-! #### At the end -/

section AtEnd

variable (hend : ts.body.drop c.current = [])
include hend

theorem runs_atEnd_of_nil : Runs ts atEnd c (.ok true) c := by
  have hkind : (ts.ending.kind == .eof) = true := by simp [hc.kind_ending]
  exact (runs_here hc hend).bind (hkind ▸ runs_pure hc _)

theorem runs_next_of_nil : ∃ t, Runs ts next c (.ok t) c :=
  ⟨_, (runs_atEnd_of_nil hc hend).bind (runs_previous hc rfl)⟩

theorem runs_sees_of_nil (isKind : TokenKind → Bool) : Runs ts (sees isKind) c (.ok false) c :=
  (runs_atEnd_of_nil hc hend).bind (runs_pure hc false)

theorem runs_takes_of_nil (isKind : TokenKind → Bool) : Runs ts (takes isKind) c (.ok false) c :=
  (runs_sees_of_nil hc hend isKind).bind (runs_pure hc false)

end AtEnd

/-! #### At a token -/

section AtToken

variable {t : Token} {rest : List Token} (ht : ts.body.drop c.current = t :: rest)
include ht

theorem Sound.succ : ({ c with current := c.current + 1 } : Cursor).Sound ts := by
  have hlt : c.current < ts.body.length := by
    by_contra hge
    rw [List.drop_eq_nil_of_le (Nat.le_of_not_lt hge)] at ht
    cases ht
  exact { hc with current_le := hlt }

theorem runs_atEnd_of_cons : Runs ts atEnd c (.ok false) c := by
  have hmem : t ∈ ts.body := List.mem_of_mem_drop (ht ▸ List.mem_cons_self)
  have hkind : (t.kind == .eof) = false := by simp [hc.kind_ne_eof t hmem]
  exact (runs_here hc ht).bind (hkind ▸ runs_pure hc _)

/-- The token just passed. -/
theorem runs_previous_of_cons :
    Runs ts previous { c with current := c.current + 1 } (.ok t) { c with current := c.current + 1 } :=
  runs_previous (hc.succ ht) ht

theorem runs_next_of_cons : Runs ts next c (.ok t) { c with current := c.current + 1 } :=
  (runs_atEnd_of_cons hc ht).bind
    ((runs_move (hc.succ ht) (Nat.le_succ _)).bind (runs_previous_of_cons hc ht))

theorem runs_sees_of_cons (isKind : TokenKind → Bool) : Runs ts (sees isKind) c (.ok (isKind t.kind)) c :=
  (runs_atEnd_of_cons hc ht).bind ((runs_here hc ht).bind (runs_pure hc _))

theorem runs_takes_of_kind {isKind : TokenKind → Bool} (hk : isKind t.kind = true) :
    Runs ts (takes isKind) c (.ok true) { c with current := c.current + 1 } := by
  have hsees := runs_sees_of_cons hc ht isKind
  rw [hk] at hsees
  exact hsees.bind ((runs_next_of_cons hc ht).bind (runs_pure (hc.succ ht) true))

theorem runs_takes_of_not_kind {isKind : TokenKind → Bool} (hk : isKind t.kind = false) :
    Runs ts (takes isKind) c (.ok false) c := by
  have hsees := runs_sees_of_cons hc ht isKind
  rw [hk] at hsees
  exact hsees.bind (runs_pure hc false)

end AtToken

end Tokens

end Cursor

end LoxCalc
