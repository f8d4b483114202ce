import LoxCalc.Proofs.Expr.Cursor

/-!
# LoxCalc.Proofs.Expr.Walk — the states on the way of an action

`Walk c ss c'`: through the states `ss`, one after the other, from `c` to `c'`.  The list and the errors stay as they
are, the cursor does not go back, and every state on the way is within the bounds, but for one kind: one level further
down the depth is raised before the height, so where the two are equal it is ahead of the height for one state
(`HalfWay`), until the height is raised as well.  No production begins or ends there.

`Keeps x`: from a state within the bounds the action goes such a walk, whatever its result, and ends at the depth where
it began.  Everything that expressions are read with keeps (`keeps_operand`, `keeps_levels`), by one lemma for each way
to combine actions.  That there is an outcome at all is the matter of `LoxCalc.Proofs.Expr.InRange`.
-/

namespace LoxCalc

namespace Cursor

/-! ## Bounds and walks -/

/-- The index of the first end. -/
def firstEnd (c : Cursor) : Nat := c.tokens.findIdx (·.kind == .eof)

/-- The counters are within the limits, and the cursor is not behind the first end. -/
structure InBounds (c : Cursor) : Prop where
  depth_le : c.depth ≤ maxNesting
  depth_le_height : c.depth ≤ c.height
  height_le : c.height ≤ maxHeight
  current_le : c.current ≤ c.firstEnd

/-- Between the two raises of one level down: the depth is one ahead of the height, and within its limit. -/
structure HalfWay (c : Cursor) : Prop where
  depth_eq : c.depth = c.height + 1
  depth_le : c.depth ≤ maxNesting
  current_le : c.current ≤ c.firstEnd

/-- One level further down. -/
def deeper (c : Cursor) : Cursor := { c with depth := c.depth + 1, height := c.height + 1 }

/-- The list and the errors of an earlier state, and the cursor where it was or further on. -/
structure Onward (c c' : Cursor) : Prop where
  tokens_eq : c'.tokens = c.tokens
  errors_eq : c'.errors = c.errors
  current_le : c.current ≤ c'.current

/-- From one state to another through the states that are set on the way. -/
inductive Walk : Cursor → List Cursor → Cursor → Prop
  | stop (c : Cursor) : Walk c [] c
  | step {c s c' : Cursor} {ss : List Cursor} (hs : s.InBounds) (hon : c.Onward s) (h : Walk s ss c') :
      Walk c (s :: ss) c'
  | down {c c' : Cursor} {ss : List Cursor} (heq : c.depth = c.height) (hs : c.deeper.InBounds)
      (h : Walk c.deeper ss c') : Walk c ({ c with depth := c.depth + 1 } :: c.deeper :: ss) c'

section Bounds

variable {c s : Cursor} (hc : c.InBounds)
include hc

theorem InBounds.deeper (hd : c.depth < maxNesting) (hh : c.height < maxHeight) : c.deeper.InBounds :=
  ⟨hd, Nat.succ_le_succ hc.depth_le_height, hh, hc.current_le⟩

/-- Where the depth is less than the height, it may go up alone. -/
theorem InBounds.depth_succ (hd : c.depth < maxNesting) (hlt : c.depth < c.height) :
    ({ c with depth := c.depth + 1 } : Cursor).InBounds :=
  { hc with depth_le := hd, depth_le_height := hlt }

/-- The counters of an earlier state, in a later one. -/
theorem InBounds.putBack (hs : s.InBounds) :
    ({ s with depth := c.depth, height := c.height } : Cursor).InBounds :=
  ⟨hc.depth_le, hc.depth_le_height, hc.height_le, hs.current_le⟩

end Bounds

section Walk

variable {c c' c'' : Cursor} {ss ss' : List Cursor}

theorem Onward.refl (c : Cursor) : c.Onward c := ⟨rfl, rfl, Nat.le_refl _⟩

theorem Onward.trans (h : c.Onward c') (h' : c'.Onward c'') : c.Onward c'' :=
  ⟨h'.tokens_eq.trans h.tokens_eq, h'.errors_eq.trans h.errors_eq, Nat.le_trans h.current_le h'.current_le⟩

theorem Walk.append (h : Walk c ss c') (h' : Walk c' ss' c'') : Walk c (ss ++ ss') c'' := by
  induction h with
  | stop => exact h'
  | step hs hon _ ih => exact .step hs hon (ih h')
  | down heq hs _ ih => exact .down heq hs (ih h')

theorem Walk.onward (h : Walk c ss c') : c.Onward c' := by
  induction h with
  | stop => exact .refl _
  | step _ hon _ ih => exact hon.trans ih
  | down _ _ _ ih => exact ⟨ih.tokens_eq, ih.errors_eq, ih.current_le⟩

/-- **Every state on the way** is within the bounds or half-way down. -/
theorem Walk.inBounds_or_halfWay (h : Walk c ss c') : ∀ s ∈ ss, s.InBounds ∨ s.HalfWay := by
  induction h with
  | stop => exact List.forall_mem_nil _
  | step hs _ _ ih => exact List.forall_mem_cons.2 ⟨.inl hs, ih⟩
  | @down c c' ss heq hs _ ih =>
    have hhalf : ({ c with depth := c.depth + 1 } : Cursor).HalfWay :=
      ⟨congrArg (· + 1) heq, hs.depth_le, hs.current_le⟩
    exact List.forall_mem_cons.2 ⟨.inr hhalf, List.forall_mem_cons.2 ⟨.inl hs, ih⟩⟩

theorem Walk.inBounds (h : Walk c ss c') (hc : c.InBounds) : c'.InBounds := by
  induction h with
  | stop => exact hc
  | step hs _ _ ih => exact ih hs
  | down _ hs _ ih => exact ih hs

/-- Down where there is room: from a depth less than the height these are two steps. -/
theorem Walk.deeper (hc : c.InBounds) (hd : c.depth < maxNesting) (hh : c.height < maxHeight)
    (h : Walk c.deeper ss c') : Walk c ({ c with depth := c.depth + 1 } :: c.deeper :: ss) c' := by
  have hdeeper := hc.deeper hd hh
  rcases Nat.lt_or_eq_of_le hc.depth_le_height with hlt | heq
  · have hon : c.Onward { c with depth := c.depth + 1 } := ⟨rfl, rfl, Nat.le_refl _⟩
    exact .step (hc.depth_succ hd hlt) hon (.step hdeeper ⟨rfl, rfl, Nat.le_refl _⟩ h)
  · exact .down heq hdeeper h

end Walk

/-! ## What an action comes to -/

section Evaluation

variable {α β : Type}

theorem bind_eq_some {x : Action α} {f : α → Action β} {c : Cursor} {o : Outcome β} (h : (x >>= f) c = some o) :
    (∃ e ss c', x c = some ⟨.error e, ss, c'⟩ ∧ o = ⟨.error e, ss, c'⟩) ∨
      ∃ a ss c' o', x c = some ⟨.ok a, ss, c'⟩ ∧ f a c' = some o' ∧ o = { o' with passed := ss ++ o'.passed } := by
  change Action.bind x f c = some o at h
  simp only [Action.bind] at h
  split at h
  case h_1 => cases h
  case h_2 e ss c' hx =>
    cases h
    exact .inl ⟨e, ss, c', hx, rfl⟩
  case h_3 a ss c' hx =>
    obtain ⟨o', ho', rfl⟩ := Option.map_eq_some_iff.1 h
    exact .inr ⟨a, ss, c', o', hx, ho', rfl⟩

theorem state_bind (f : Cursor → Action β) (c : Cursor) : (state >>= f) c = f c c := by
  change ((f c c).map fun o => { o with passed := [] ++ o.passed }) = f c c
  cases f c c <;> rfl

theorem move_bind (f : Cursor → Cursor) (y : Action β) (c : Cursor) :
    (do move f; y) c = (y (f c)).map fun o => { o with passed := f c :: o.passed } := rfl

theorem attempt_bind (x : Action α) (f : Except SyntaxError α → Action β) (c : Cursor) :
    (attempt x >>= f) c =
      (x c).bind fun o => (f o.result o.final).map fun o' => { o' with passed := o.passed ++ o'.passed } := by
  change Action.bind (attempt x) f c = _
  simp only [Action.bind, attempt]
  cases x c <;> rfl

/-- A level puts the height back behind what it reads. -/
theorem level_eq (isOperator : TokenKind → Bool) (x : Action Expr) (c : Cursor) :
    level isOperator x c = ((x >>= foldRest isOperator x (maxHeight + 1)) c).map fun o =>
      ⟨o.result, o.passed ++ [{ o.final with height := c.height }], { o.final with height := c.height }⟩ := by
  unfold level
  rw [state_bind, attempt_bind]
  cases (x >>= foldRest isOperator x (maxHeight + 1)) c <;> rfl

theorem here_eq_some {c : Cursor} {o : Outcome Token} (h : here c = some o) :
    ∃ t, c.tokens[c.current]? = some t ∧ o = ⟨.ok t, [], c⟩ := by
  rw [here, state_bind] at h
  obtain ⟨t, ht, rfl⟩ := Option.map_eq_some_iff.1 h
  exact ⟨t, ht, rfl⟩

theorem atEnd_eq_some {c : Cursor} {o : Outcome Bool} (h : atEnd c = some o) :
    ∃ t, c.tokens[c.current]? = some t ∧ o = ⟨.ok (t.kind == .eof), [], c⟩ := by
  obtain ⟨e, ss, c', hx, rfl⟩ | ⟨t, ss, c', o', hx, hf, rfl⟩ := bind_eq_some h
  · obtain ⟨_, _, ho⟩ := here_eq_some hx
    cases ho
  · obtain ⟨_, ht, ho⟩ := here_eq_some hx
    cases ho
    cases hf
    exact ⟨t, ht, rfl⟩

theorem fail_eq_some {cause : SyntaxCause} {c : Cursor} {o : Outcome α} (h : fail cause c = some o) :
    ∃ e, o = ⟨.error e, [], c⟩ := by
  obtain ⟨e, ss, c', hx, rfl⟩ | ⟨t, ss, c', o', hx, hf, rfl⟩ := bind_eq_some h
  · obtain ⟨_, _, ho⟩ := here_eq_some hx
    cases ho
  · obtain ⟨_, _, ho⟩ := here_eq_some hx
    cases ho
    cases hf
    exact ⟨_, rfl⟩

theorem grow_eq_some {c : Cursor} {o : Outcome Unit} (h : grow c = some o) :
    (maxHeight ≤ c.height ∧ ∃ e, o = ⟨.error e, [], c⟩) ∨
      c.height < maxHeight ∧ o = ⟨.ok (), [{ c with height := c.height + 1 }], { c with height := c.height + 1 }⟩ := by
  rw [grow, state_bind] at h
  split at h
  case isTrue hfull => exact .inl ⟨hfull, fail_eq_some h⟩
  case isFalse hroom =>
    cases h
    exact .inr ⟨Nat.lt_of_not_le hroom, rfl⟩

/-- Both counters are put back behind what is read further down. -/
theorem nested_eq_some {x : Action Expr} {c : Cursor} {o : Outcome Expr} (h : nested x c = some o) :
    (∃ e, o = ⟨.error e, [], c⟩) ∨
      c.depth < maxNesting ∧ ∃ o', (do grow; x) { c with depth := c.depth + 1 } = some o' ∧
        o.passed = { c with depth := c.depth + 1 } :: (o'.passed ++
          [{ o'.final with depth := c.depth }, { o'.final with depth := c.depth, height := c.height }]) ∧
        o.final = { o'.final with depth := c.depth, height := c.height } := by
  rw [nested, state_bind] at h
  split at h
  case isTrue => exact .inl (fail_eq_some h)
  case isFalse hroom =>
    rw [move_bind, attempt_bind] at h
    obtain ⟨o₁, h₁, rfl⟩ := Option.map_eq_some_iff.1 h
    obtain ⟨o', ho', hback⟩ := Option.bind_eq_some_iff.1 h₁
    cases hback
    exact .inr ⟨Nat.lt_of_not_le hroom, o', ho', rfl, rfl⟩

end Evaluation

/-! ## Looking -/

section Looks

variable {α β : Type}

/-- The action sets no state. -/
def Looks (x : Action α) : Prop := ∀ ⦃c : Cursor⦄ ⦃o : Outcome α⦄, x c = some o → o.passed = [] ∧ o.final = c

theorem Looks.bind {x : Action α} {f : α → Action β} (hx : Looks x) (hf : ∀ a, Looks (f a)) : Looks (x >>= f) := by
  intro c o h
  obtain ⟨e, ss, c', hrun, rfl⟩ | ⟨a, ss, c', o', hrun, hrun', rfl⟩ := bind_eq_some h
  · exact hx hrun
  · obtain ⟨rfl, rfl⟩ := hx hrun
    exact hf a hrun'

theorem looks_give (r : Except SyntaxError α) : Looks (give r) := by
  rintro c _ ⟨⟩
  exact ⟨rfl, rfl⟩

theorem looks_pure (a : α) : Looks (pure a) := looks_give (.ok a)

theorem looks_lookUp (i : Nat) : Looks (lookUp i) := by
  intro c o h
  obtain ⟨t, -, rfl⟩ := Option.map_eq_some_iff.1 h
  exact ⟨rfl, rfl⟩

theorem looks_here : Looks here := by
  intro c o h
  obtain ⟨_, _, rfl⟩ := here_eq_some h
  exact ⟨rfl, rfl⟩

theorem looks_previous : Looks previous := by
  intro c o h
  rw [previous, state_bind] at h
  exact looks_lookUp _ h

theorem looks_atEnd : Looks atEnd := looks_here.bind fun _ => looks_pure _

theorem looks_sees (isKind : TokenKind → Bool) : Looks (sees isKind) :=
  looks_atEnd.bind fun
    | true => looks_pure false
    | false => looks_here.bind fun _ => looks_pure _

theorem looks_fail (cause : SyntaxCause) : Looks (fail (α := α) cause) := looks_here.bind fun _ => looks_give _

end Looks

/-! ## Keeping -/

section Keeps

variable {α β : Type}

/-- Within the bounds the action goes a walk and ends at the depth where it began, whatever its result. -/
def Keeps (x : Action α) : Prop :=
  ∀ ⦃c : Cursor⦄ ⦃o : Outcome α⦄, c.InBounds → x c = some o → Walk c o.passed o.final ∧ o.final.depth = c.depth

theorem Keeps.bind {x : Action α} {f : α → Action β} (hx : Keeps x) (hf : ∀ a, Keeps (f a)) : Keeps (x >>= f) := by
  intro c o hc h
  obtain ⟨e, ss, c', hrun, rfl⟩ | ⟨a, ss, c', o', hrun, hrun', rfl⟩ := bind_eq_some h
  · exact hx hc hrun
  · obtain ⟨hwalk, hdepth⟩ := hx hc hrun
    obtain ⟨hwalk', hdepth'⟩ := hf a (hwalk.inBounds hc) hrun'
    exact ⟨hwalk.append hwalk', hdepth'.trans hdepth⟩

theorem Looks.keeps {x : Action α} (hx : Looks x) : Keeps x := by
  intro c o _ h
  obtain ⟨hpassed, hfinal⟩ := hx h
  rw [hpassed, hfinal]
  exact ⟨.stop c, rfl⟩

theorem keeps_stuck : Keeps (stuck : Action α) := fun _ _ _ h => nomatch h

/-- Before the first end there is a token to pass. -/
theorem InBounds.succ {c : Cursor} (hc : c.InBounds) {t : Token} (ht : c.tokens[c.current]? = some t)
    (hk : (t.kind == .eof) = false) : ({ c with current := c.current + 1 } : Cursor).InBounds := by
  have hne : c.current ≠ c.firstEnd := by
    intro heq
    obtain ⟨hlt, rfl⟩ := List.getElem?_eq_some_iff.1 ht
    have hlast : c.firstEnd < c.tokens.length := heq ▸ hlt
    have hend : (c.tokens[c.firstEnd].kind == .eof) = true :=
      List.findIdx_getElem (p := fun t : Token => t.kind == .eof)
    rw [getElem_congr_idx heq, hend] at hk
    cases hk
  exact { hc with current_le := Nat.lt_of_le_of_ne hc.current_le hne }

theorem keeps_next : Keeps next := by
  intro c o hc h
  obtain ⟨e, ss, c', hrun, rfl⟩ | ⟨b, ss, c', o', hrun, hrun', rfl⟩ := bind_eq_some h
  · exact looks_atEnd.keeps hc hrun
  · obtain ⟨t, ht, ho⟩ := atEnd_eq_some hrun
    cases ho
    cases hk : t.kind == .eof with
    | true =>
      rw [hk] at hrun'
      exact looks_previous.keeps hc hrun'
    | false =>
      rw [hk] at hrun'
      obtain ⟨o₁, h₁, rfl⟩ := Option.map_eq_some_iff.1 ((move_bind _ _ c).symm.trans hrun')
      obtain ⟨hpassed, hfinal⟩ := looks_previous h₁
      have hsucc := hc.succ ht hk
      rw [hpassed, hfinal]
      exact ⟨.step hsucc ⟨rfl, rfl, Nat.le_succ _⟩ (.stop _), rfl⟩

theorem keeps_takes (isKind : TokenKind → Bool) : Keeps (takes isKind) :=
  (looks_sees isKind).keeps.bind fun
    | true => keeps_next.bind fun _ => (looks_pure true).keeps
    | false => (looks_pure false).keeps

theorem keeps_expect (kind : TokenKind) (cause : SyntaxCause) : Keeps (expect kind cause) :=
  (looks_sees _).keeps.bind fun
    | true => keeps_next
    | false => (looks_fail cause).keeps

theorem keeps_grow : Keeps grow := by
  intro c o hc h
  obtain ⟨-, e, rfl⟩ | ⟨hlt, rfl⟩ := grow_eq_some h
  · exact ⟨.stop c, rfl⟩
  · have hgrown : ({ c with height := c.height + 1 } : Cursor).InBounds :=
      { hc with depth_le_height := Nat.le_succ_of_le hc.depth_le_height, height_le := hlt }
    exact ⟨.step hgrown ⟨rfl, rfl, Nat.le_refl _⟩ (.stop _), rfl⟩

/-! ### Productions -/

variable {x y : Action Expr}

theorem keeps_foldRest (hx : Keeps x) (isOperator : TokenKind → Bool) (turns : Nat) :
    ∀ left, Keeps (foldRest isOperator x turns left) := by
  induction turns with
  | zero => exact fun _ => keeps_stuck
  | succ turns ih =>
    intro left
    refine (keeps_takes isOperator).bind fun
      | false => (looks_pure left).keeps
      | true => ?_
    exact looks_previous.keeps.bind fun _ => keeps_grow.bind fun _ => hx.bind fun _ => ih _

theorem keeps_level (hx : Keeps x) (isOperator : TokenKind → Bool) : Keeps (level isOperator x) := by
  intro c o hc h
  rw [level_eq] at h
  obtain ⟨o', ho', rfl⟩ := Option.map_eq_some_iff.1 h
  obtain ⟨hwalk, hdepth⟩ := (hx.bind fun _ => keeps_foldRest hx isOperator _ _) hc ho'
  have hback := hc.putBack (hwalk.inBounds hc)
  rw [← hdepth] at hback
  exact ⟨hwalk.append (.step hback ⟨rfl, rfl, Nat.le_refl _⟩ (.stop _)), hdepth⟩

theorem keeps_levels (hx : Keeps x) : Keeps (levels x) :=
  keeps_level (keeps_level (keeps_level (keeps_level hx _) _) _) _

/-- One level further down, where the walk ends one level deeper than it began. -/
theorem walk_nested (hx : Keeps x) {c : Cursor} {o : Outcome Expr} (hc : c.InBounds) (hd : c.depth < maxNesting)
    (h : (do grow; x) { c with depth := c.depth + 1 } = some o) :
    Walk c ({ c with depth := c.depth + 1 } :: o.passed) o.final ∧ o.final.depth = c.depth + 1 := by
  obtain ⟨e, ss, c', hrun, rfl⟩ | ⟨a, ss, c', o', hrun, hrun', rfl⟩ := bind_eq_some h
  · obtain ⟨hfull, e', ho⟩ | ⟨-, ho⟩ := grow_eq_some hrun
    · -- no height is left, so the depth is not ahead of it
      have hlt : c.depth < c.height := Nat.lt_of_lt_of_le hd (Nat.le_trans (by decide) hfull)
      cases ho
      exact ⟨.step (hc.depth_succ hd hlt) ⟨rfl, rfl, Nat.le_refl _⟩ (.stop _), rfl⟩
    · cases ho
  · obtain ⟨-, e', ho⟩ | ⟨hh, ho⟩ := grow_eq_some hrun
    · cases ho
    · cases ho
      obtain ⟨hwalk, hdepth⟩ := hx (hc.deeper hd hh) hrun'
      exact ⟨hwalk.deeper hc hd hh, hdepth⟩

theorem keeps_nested (hx : Keeps x) : Keeps (nested x) := by
  intro c o hc h
  obtain ⟨e, rfl⟩ | ⟨hd, o', ho', hpassed, hfinal⟩ := nested_eq_some h
  · exact ⟨.stop c, rfl⟩
  obtain ⟨hwalk, hdepth⟩ := walk_nested hx hc hd ho'
  have hend := hwalk.inBounds hc
  have hheight : c.depth ≤ o'.final.height :=
    Nat.le_of_succ_le (Nat.le_trans (Nat.le_of_eq hdepth.symm) hend.depth_le_height)
  have hback : ({ o'.final with depth := c.depth } : Cursor).InBounds :=
    { hend with depth_le := hc.depth_le, depth_le_height := hheight }
  have hback' := hc.putBack hend
  rw [hpassed, hfinal]
  exact ⟨hwalk.append (.step hback ⟨rfl, rfl, Nat.le_refl _⟩ (.step hback' ⟨rfl, rfl, Nat.le_refl _⟩ (.stop _))), rfl⟩

theorem keeps_primary (hy : Keeps y) : Keeps (primary y) := by
  refine looks_here.keeps.bind fun t => ?_
  split
  case h_1 | h_2 | h_3 => exact keeps_next.bind fun _ => (looks_pure _).keeps
  case h_4 | h_5 =>
    refine keeps_next.bind fun t => ?_
    split
    · exact (looks_pure _).keeps
    · exact (looks_give _).keeps
  case h_6 =>
    exact keeps_next.bind fun _ => (keeps_nested hy).bind fun _ =>
      (keeps_expect _ _).bind fun _ => (looks_pure _).keeps
  case h_7 => exact (looks_fail _).keeps

theorem keeps_unary (hx : Keeps x) (hy : Keeps y) : Keeps (unary x y) :=
  (keeps_takes _).bind fun
    | true => looks_previous.keeps.bind fun _ => (keeps_nested hx).bind fun _ => (looks_pure _).keeps
    | false => keeps_primary hy

theorem keeps_operand (calls : Nat) : Keeps (operand calls) := by
  induction calls with
  | zero => exact keeps_unary keeps_stuck keeps_stuck
  | succ calls ih => exact keeps_unary ih (keeps_levels ih)

end Keeps

end Cursor

end LoxCalc
