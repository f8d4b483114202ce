import LoxCalc.Expr.Parser
import Mathlib.Data.List.TakeWhile
import Mathlib.Logic.Function.Iterate

/-!
# LoxCalc.Proofs.Expr.Boundaries — synchronizing again and again visits every statement boundary

Positions count the tokens of a list from zero; the first end stands at the position `ts.body.length`.  One step goes
from a position to the next boundary (`exists_synchronize`).  `boundariesFrom p` lists the boundaries from the position
`p` on: a step takes the head of the list behind the place where it starts, and what it leaves is the list behind the
place that it reaches, so that a run of steps goes through the list (`iterate_synchronize_drop`).

What is read afterwards depends on the tokens from there on only: they are those of a list of their own
(`ofList_drop_withEnd`).
-/

namespace LoxCalc

/-! ## Lists with an end -/

/-- The list, with an end behind it if its last token is none. -/
def withEnd (tokens : List Token) : List Token :=
  if tokens.getLast?.map Token.kind = some .eof then tokens
  else tokens ++ [.eof ((tokens.getLast?.map Token.line).getD 1)]

namespace EndedTokens

theorem ofList_append {front rest : List Token} {ending : Token} (hf : ∀ t ∈ front, t.kind ≠ .eof)
    (he : ending.kind = .eof) : ofList (front ++ ending :: rest) = ⟨front, ending⟩ := by
  have hbody : (front ++ ending :: rest).takeWhile (·.kind != .eof) = front := by
    rw [List.takeWhile_append_of_pos (by simpa using hf)]
    simp [he]
  have hending : (front ++ ending :: rest).find? (·.kind == .eof) = some ending := by
    rw [List.find?_append, List.find?_eq_none.2 (by simpa using hf)]
    simp [he]
  simp only [ofList, hbody, hending, Option.getD_some]

/-- The first end stands right behind the body. -/
theorem exists_withEnd_eq (tokens : List Token) :
    ∃ rest, withEnd tokens = (ofList tokens).body ++ (ofList tokens).ending :: rest := by
  cases h : tokens.find? (·.kind == .eof) with
  | some t =>
    obtain ⟨ht, front, rest, rfl, hf⟩ := List.find?_eq_some_iff_append.1 h
    rw [ofList_append (by simpa using hf) (by simpa using ht), withEnd]
    split
    · exact ⟨rest, rfl⟩
    · exact ⟨rest ++ [.eof _], by rw [List.append_assoc, List.cons_append]⟩
  | none =>
    have hno : ∀ t ∈ tokens, t.kind ≠ .eof := by simpa using h
    have hlast : tokens.getLast?.map Token.kind ≠ some .eof := by
      intro hl
      obtain ⟨t, ht, hk⟩ := Option.map_eq_some_iff.1 hl
      exact hno t (List.mem_of_getLast? ht) hk
    have hbody : (ofList tokens).body = tokens := List.takeWhile_eq_self_iff.2 (by simpa using hno)
    refine ⟨[], ?_⟩
    rw [withEnd, if_neg hlast, hbody]
    simp [ofList, h]

/-- In a list that begins with a body and its end, a token of that part stands at each index up to the end. -/
theorem getElem?_of_eq_append {ts : EndedTokens} {tokens after : List Token}
    (h : tokens = ts.body ++ ts.ending :: after) {i : Nat} (hi : i ≤ ts.body.length) :
    tokens[i]? = some ((ts.body.drop i).headD ts.ending) := by
  rw [h]
  rcases Nat.lt_or_eq_of_le hi with hlt | rfl
  · rw [List.getElem?_append_left hlt, List.drop_eq_getElem_cons hlt, List.getElem?_eq_getElem hlt]
    rfl
  · rw [List.getElem?_append_right (Nat.le_refl _), Nat.sub_self, List.drop_length]
    rfl

/-- **A suffix is a list of its own**: from a position of the body on, or from the first end on. -/
theorem ofList_drop_withEnd (tokens : List Token) {c : Nat} (hc : c ≤ (ofList tokens).body.length) :
    ofList ((withEnd tokens).drop c) = ⟨(ofList tokens).body.drop c, (ofList tokens).ending⟩ := by
  obtain ⟨rest, hrest⟩ := exists_withEnd_eq tokens
  rw [hrest, List.drop_append_of_le_length hc]
  exact ofList_append (fun t ht => kind_ne_eof_of_mem_body (List.mem_of_mem_drop ht)) (kind_ending tokens)

/-! ## Boundaries -/

/-- A statement ends or begins at the position: the list ends there, the token before it is a semicolon, or the token
at it is a reserved word that begins a statement. -/
def IsBoundary (ts : EndedTokens) (p : Nat) : Prop :=
  p = ts.body.length ∨ (∃ t ∈ ts.body[p - 1]?, t.kind = .semicolon) ∨ ∃ t ∈ ts.body[p]?, t.kind.startsStatement = true

instance (ts : EndedTokens) : DecidablePred ts.IsBoundary :=
  fun _ => inferInstanceAs (Decidable (_ ∨ _ ∨ _))

/-- The boundaries from the position `p` on, in order. -/
def boundariesFrom (ts : EndedTokens) (p : Nat) : List Nat :=
  (List.range' p (ts.body.length + 1 - p)).filter ts.IsBoundary

/-- The position that `k` steps lead to from the position `c`: the `k`-th boundary behind it, or the end. -/
def cursorFrom (ts : EndedTokens) (c : Nat) : (k : Nat) → Nat
  | 0 => c
  | k + 1 => (ts.boundariesFrom (c + 1))[k]?.getD ts.body.length

section Boundaries

variable {ts : EndedTokens} {c p : Nat}

theorem mem_boundariesFrom {q : Nat} : q ∈ ts.boundariesFrom p ↔ p ≤ q ∧ q ≤ ts.body.length ∧ ts.IsBoundary q := by
  rw [boundariesFrom, List.mem_filter, List.mem_range'_1, decide_eq_true_eq]
  constructor
  · rintro ⟨hq, hb⟩
    exact ⟨hq.1, by omega, hb⟩
  · rintro ⟨hpq, hq, hb⟩
    exact ⟨⟨hpq, by omega⟩, hb⟩

theorem boundariesFrom_pairwise (ts : EndedTokens) (p : Nat) : (ts.boundariesFrom p).Pairwise (· < ·) :=
  (List.pairwise_lt_range' 1).filter _

theorem boundariesFrom_of_isBoundary (hp : p ≤ ts.body.length) (hb : ts.IsBoundary p) :
    ts.boundariesFrom p = p :: ts.boundariesFrom (p + 1) := by
  rw [boundariesFrom, Nat.sub_add_comm hp, List.range'_succ, List.filter_cons_of_pos (by simpa using hb)]
  rw [boundariesFrom, Nat.add_sub_add_right]

theorem boundariesFrom_of_not_isBoundary (hp : p ≤ ts.body.length) (hb : ¬ ts.IsBoundary p) :
    ts.boundariesFrom p = ts.boundariesFrom (p + 1) := by
  rw [boundariesFrom, Nat.sub_add_comm hp, List.range'_succ, List.filter_cons_of_neg (by simpa using hb)]
  rw [boundariesFrom, Nat.add_sub_add_right]

theorem boundariesFrom_of_length_lt (hp : ts.body.length < p) : ts.boundariesFrom p = [] := by
  rw [boundariesFrom, Nat.sub_eq_zero_of_le hp]
  rfl

theorem cursorFrom_le (hc : c ≤ ts.body.length) (k : Nat) : ts.cursorFrom c k ≤ ts.body.length := by
  cases k with
  | zero => exact hc
  | succ k =>
    rw [cursorFrom]
    cases h : (ts.boundariesFrom (c + 1))[k]? with
    | none => exact Nat.le_refl _
    | some q => exact (mem_boundariesFrom.1 (List.mem_of_getElem? h)).2.1

/-- The next boundary first, and the others from there. -/
theorem cursorFrom_succ {q : Nat} (hq : ts.boundariesFrom (c + 1) = q :: ts.boundariesFrom (q + 1)) (k : Nat) :
    ts.cursorFrom c (k + 1) = ts.cursorFrom q k := by
  rw [cursorFrom, hq]
  cases k with
  | zero => rfl
  | succ k => rfl

/-- Nothing is left behind the end. -/
theorem cursorFrom_length (ts : EndedTokens) (k : Nat) : ts.cursorFrom ts.body.length k = ts.body.length := by
  cases k with
  | zero => rfl
  | succ k =>
    rw [cursorFrom, boundariesFrom_of_length_lt (Nat.lt_succ_self _)]
    rfl

/-- Before the end no position is reached twice. -/
theorem cursorFrom_lt_succ (hc : c < ts.body.length) {k : Nat} (hk : ts.cursorFrom c k < ts.body.length) :
    ts.cursorFrom c k < ts.cursorFrom c (k + 1) := by
  cases k with
  | zero =>
    rw [cursorFrom, cursorFrom]
    cases h : (ts.boundariesFrom (c + 1))[0]? with
    | none => exact hc
    | some q => exact (mem_boundariesFrom.1 (List.mem_of_getElem? h)).1
  | succ k =>
    rw [cursorFrom] at hk ⊢
    rw [cursorFrom]
    cases h : (ts.boundariesFrom (c + 1))[k]? with
    | none => simp [h] at hk
    | some q =>
      rw [h] at hk
      cases h' : (ts.boundariesFrom (c + 1))[k + 1]? with
      | none => exact hk
      | some r =>
        obtain ⟨hi, rfl⟩ := List.getElem?_eq_some_iff.1 h
        obtain ⟨hj, rfl⟩ := List.getElem?_eq_some_iff.1 h'
        exact List.pairwise_iff_getElem.1 (ts.boundariesFrom_pairwise (c + 1)) k (k + 1) hi hj (Nat.lt_succ_self k)

/-- No boundary is left out. -/
theorem exists_cursorFrom_eq (hcp : c < p) (hp : p ≤ ts.body.length) (hb : ts.IsBoundary p) :
    ∃ k, ts.cursorFrom c k = p := by
  obtain ⟨k, hk⟩ := List.getElem?_of_mem (mem_boundariesFrom.2 ⟨hcp, hp, hb⟩)
  refine ⟨k + 1, ?_⟩
  rw [cursorFrom, hk, Option.getD_some]

end Boundaries

/-! ## Steps and runs -/

section Runs

variable {ts : EndedTokens} {c : Nat}

theorem drop_succ_of_drop_eq_cons {tokens rest : List Token} {t : Token} (h : tokens.drop c = t :: rest) :
    tokens.drop (c + 1) = rest := by
  rw [← List.tail_drop, h, List.tail_cons]

/-- Behind a token, between it and the next, there is a boundary exactly where the search stops. -/
theorem isBoundary_succ_iff {previous t : Token} {rest : List Token} (h : ts.body.drop c = previous :: t :: rest) :
    ts.IsBoundary (c + 1) ↔ previous.kind = .semicolon ∨ t.kind.startsStatement = true := by
  have hprevious : ts.body[c]? = some previous := by rw [← List.head?_drop, h, List.head?_cons]
  have ht : ts.body[c + 1]? = some t := by rw [← List.getElem?_drop, h]; rfl
  have hlt : c + 1 ≠ ts.body.length := by
    obtain ⟨hlt, -⟩ := List.getElem?_eq_some_iff.1 ht
    exact Nat.ne_of_lt hlt
  simp [IsBoundary, hlt, hprevious, ht]

/-- **The search** from behind a token stops at the first boundary there is. -/
theorem exists_toBoundary {rest : List Token} : ∀ {c : Nat} {previous : Token}, ts.body.drop c = previous :: rest →
    ∃ q ≤ ts.body.length, toBoundary previous rest = ts.body.drop q ∧
      ts.boundariesFrom (c + 1) = q :: ts.boundariesFrom (q + 1) := by
  induction rest with
  | nil =>
    intro c previous h
    have hlen : c + 1 = ts.body.length := by
      have := congrArg List.length h
      simp at this
      omega
    refine ⟨c + 1, Nat.le_of_eq hlen, ?_, boundariesFrom_of_isBoundary (Nat.le_of_eq hlen) (.inl hlen)⟩
    rw [hlen, List.drop_length]
    rfl
  | cons t rest ih =>
    intro c previous h
    have hle : c + 1 ≤ ts.body.length := by
      have := congrArg List.length h
      simp at this
      omega
    have hdrop : ts.body.drop (c + 1) = t :: rest := drop_succ_of_drop_eq_cons h
    by_cases hb : previous.kind = .semicolon ∨ t.kind.startsStatement = true
    · refine ⟨c + 1, hle, ?_, boundariesFrom_of_isBoundary hle ((isBoundary_succ_iff h).2 hb)⟩
      rw [toBoundary, if_pos hb, hdrop]
    · obtain ⟨q, hq, hstop, hbs⟩ := ih hdrop
      refine ⟨q, hq, ?_, ?_⟩
      · rw [toBoundary, if_neg hb, hstop]
      · rw [boundariesFrom_of_not_isBoundary hle (mt (isBoundary_succ_iff h).1 hb), hbs]

/-- **One step** leads to the next boundary. -/
theorem exists_synchronize (hc : c < ts.body.length) :
    ∃ q ≤ ts.body.length, synchronize ⟨ts.body.drop c, ts.ending⟩ = ⟨ts.body.drop q, ts.ending⟩ ∧
      ts.boundariesFrom (c + 1) = q :: ts.boundariesFrom (q + 1) := by
  have hdrop := List.drop_eq_getElem_cons hc
  obtain ⟨q, hq, hstop, hbs⟩ := exists_toBoundary hdrop
  refine ⟨q, hq, ?_, hbs⟩
  rw [hdrop, ← hstop]
  rfl

/-- **A run of steps** goes through the boundaries in order, and stays at the end. -/
theorem iterate_synchronize_drop (ts : EndedTokens) (k : Nat) : ∀ {c : Nat}, c ≤ ts.body.length →
    synchronize^[k] ⟨ts.body.drop c, ts.ending⟩ = ⟨ts.body.drop (ts.cursorFrom c k), ts.ending⟩ := by
  induction k with
  | zero =>
    intro c _
    rfl
  | succ k ih =>
    intro c hc
    rw [Function.iterate_succ_apply]
    rcases Nat.lt_or_eq_of_le hc with hlt | rfl
    · obtain ⟨q, hq, hstep, hbs⟩ := exists_synchronize hlt
      rw [hstep, ih hq, cursorFrom_succ hbs]
    · have hstep : synchronize ⟨ts.body.drop ts.body.length, ts.ending⟩ = ⟨ts.body.drop ts.body.length, ts.ending⟩ := by
        rw [List.drop_length]
        rfl
      rw [hstep, ih (Nat.le_refl _), cursorFrom_length, cursorFrom_length]

end Runs

/-- **Synchronizing `k` times** leads to the `k`-th boundary behind the beginning, or to the end if there are fewer, and
what is parsed from there is what the tokens from there on are parsed as.  So before the end no position is reached
twice, and no boundary is left out. -/
theorem iterate_synchronize (tokens : List Token) (k : Nat) :
    let ts := ofList tokens
    let c := ts.cursorFrom 0
    c k ≤ ts.body.length ∧ synchronize^[k] ts = ⟨ts.body.drop (c k), ts.ending⟩ ∧
      (synchronize^[k] ts).parse = LoxCalc.parse ((withEnd tokens).drop (c k)) ∧
      (c k < ts.body.length → c k < c (k + 1)) ∧
      ∀ p, 0 < p → p ≤ ts.body.length → ts.IsBoundary p → ∃ j, c j = p := by
  intro ts c
  have hle : c k ≤ ts.body.length := cursorFrom_le (Nat.zero_le _) k
  have hrun : synchronize^[k] ts = ⟨ts.body.drop (c k), ts.ending⟩ := iterate_synchronize_drop ts k (Nat.zero_le _)
  refine ⟨hle, hrun, ?_, ?_, fun p => exists_cursorFrom_eq⟩
  · rw [hrun, LoxCalc.parse, ofList_drop_withEnd tokens hle]
  · intro hlt
    exact cursorFrom_lt_succ (Nat.zero_lt_of_lt hlt) hlt

/-- Adjacent boundaries are visited one by one. -/
example : (ofList [⟨.semicolon, ";", none, 1⟩, ⟨.semicolon, ";", none, 1⟩, ⟨.kwVar, "var", none, 1⟩,
    ⟨.kwVar, "var", none, 1⟩, ⟨.kwNil, "nil", none, 1⟩]).boundariesFrom 1 = [1, 2, 3, 5] := by
  decide

end EndedTokens

end LoxCalc
