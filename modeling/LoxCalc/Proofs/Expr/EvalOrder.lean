import LoxCalc.Proofs.Expr.OperandFaults

/-!
# LoxCalc.Proofs.Expr.EvalOrder — every operand is evaluated, and the first refusal in post-order is the fault

* `Expr.subtrees` lists the nodes of a tree in post-order, `Expr.operations` those of them that are an operator with its
  operands.  `Expr.Refuses u fault`: the operands of `u` have values, and its operator refuses them.
* A tree with a value has one at every node (`Expr.eval_subtrees`); in one without, all operations before some operation
  have values, and this one refuses its operands (`Expr.exists_refuses`).  Together they decide what evaluation gives
  (`eval_firstRefusal`).
-/

namespace LoxCalc

namespace Expr

/-! ## Nodes in post-order -/

/-- The nodes of a tree in post-order: operands from left to right, and then what they are operands of. -/
def subtrees : Expr → List Expr
  | literal v => [literal v]
  | grouping e => e.subtrees ++ [grouping e]
  | unary op e => e.subtrees ++ [unary op e]
  | binary l op r => l.subtrees ++ r.subtrees ++ [binary l op r]

/-- The operators with their operands in a tree, in post-order. -/
def operations (e : Expr) : List Expr := e.subtrees.filter isCompound

/-- The operands of an operation have values, and its operator refuses them with this fault. -/
inductive Refuses : Expr → RuntimeError → Prop
  | unary {op : Token} {e : Expr} {v : Value} {cause : EvalCause} (hv : e.eval = .ok v)
      (h : RefusesUnary op v cause) : Refuses (unary op e) ⟨op, cause.message⟩
  | binary {l r : Expr} {op : Token} {v w : Value} {cause : EvalCause} (hv : l.eval = .ok v) (hw : r.eval = .ok w)
      (h : RefusesBinary op v w cause) : Refuses (binary l op r) ⟨op, cause.message⟩

theorem operations_grouping (e : Expr) : (grouping e).operations = e.operations := by
  simp [operations, subtrees, isCompound]

theorem operations_unary (op : Token) (e : Expr) : (unary op e).operations = e.operations ++ [unary op e] := by
  simp [operations, subtrees, isCompound]

theorem operations_binary (l : Expr) (op : Token) (r : Expr) :
    (binary l op r).operations = l.operations ++ r.operations ++ [binary l op r] := by
  simp [operations, subtrees, isCompound]

/-! ## Evaluation -/

variable {e : Expr} {fault : RuntimeError}

/-- An operation that refuses its operands has no value but this fault. -/
theorem Refuses.eval_eq {u : Expr} (h : Refuses u fault) : u.eval = .error fault := by
  cases h with
  | unary hv h =>
    rw [eval_unary, hv]
    exact faultAt_eq_error_iff.2 ⟨_, Value.applyUnary_eq_error_iff.2 h, rfl⟩
  | binary hv hw h =>
    rw [eval_binary, hv, Except.bind, hw]
    exact faultAt_eq_error_iff.2 ⟨_, Value.applyBinary_eq_error_iff.2 h, rfl⟩

/-- **Nothing is skipped**: a tree with a value has one at every node. -/
theorem eval_subtrees {v : Value} (h : e.eval = .ok v) : ∀ u ∈ e.subtrees, ∃ w, u.eval = .ok w := by
  intro u hu
  induction e generalizing v with
  | literal v' =>
    obtain rfl := List.mem_singleton.1 hu
    exact ⟨v, h⟩
  | grouping e ih =>
    rw [subtrees, List.mem_append, List.mem_singleton] at hu
    rcases hu with hu | rfl
    · exact ih h hu
    · exact ⟨v, h⟩
  | unary op e ih =>
    rw [subtrees, List.mem_append, List.mem_singleton] at hu
    rcases hu with hu | rfl
    · rw [eval_unary, bind_eq_ok_iff] at h
      obtain ⟨v', hv', -⟩ := h
      exact ih hv' hu
    · exact ⟨v, h⟩
  | binary l op r ihl ihr =>
    rw [subtrees, List.mem_append, List.mem_append, List.mem_singleton] at hu
    rcases hu with (hu | hu) | rfl
    · rw [eval_binary, bind_eq_ok_iff] at h
      obtain ⟨vl, hl, -⟩ := h
      exact ihl hl hu
    · rw [eval_binary, bind_eq_ok_iff] at h
      obtain ⟨vl, hl, h⟩ := h
      obtain ⟨vr, hr, -⟩ := bind_eq_ok_iff.1 h
      exact ihr hr hu
    · exact ⟨v, h⟩

theorem eval_operations {v : Value} (h : e.eval = .ok v) : ∀ u ∈ e.operations, ∃ w, u.eval = .ok w :=
  fun u hu => eval_subtrees h u ((List.mem_filter.1 hu).1)

/-- The node `u` is one of the operations of the tree, and those before it in post-order have values. -/
def Reaches (e u : Expr) : Prop :=
  ∃ before after, e.operations = before ++ u :: after ∧ ∀ u' ∈ before, ∃ w, u'.eval = .ok w

/-- What is reached in a part is reached in the whole, if the operations in front of the part have values. -/
theorem Reaches.of_part {e' u : Expr} (h : e.Reaches u) (front rest : List Expr)
    (heq : e'.operations = front ++ (e.operations ++ rest)) (hfront : ∀ u' ∈ front, ∃ w, u'.eval = .ok w) :
    e'.Reaches u := by
  obtain ⟨before, after, hsplit, hbefore⟩ := h
  refine ⟨front ++ before, after ++ rest, ?_, ?_⟩
  · rw [heq, hsplit]
    simp
  · exact List.forall_mem_append.2 ⟨hfront, hbefore⟩

/-- **A fault is a refusal** by the first operation without a value. -/
theorem exists_refuses (h : e.eval = .error fault) : ∃ u, e.Reaches u ∧ Refuses u fault := by
  induction e with
  | literal v => cases h
  | grouping e ih =>
    obtain ⟨u, hreach, hu⟩ := ih h
    exact ⟨u, hreach.of_part [] [] (by simp [operations_grouping]) (List.forall_mem_nil _), hu⟩
  | unary op e ih =>
    rw [eval_unary, bind_eq_error_iff] at h
    rcases h with h | ⟨v, hv, h⟩
    · obtain ⟨u, hreach, hu⟩ := ih h
      exact ⟨u, hreach.of_part [] _ (operations_unary op e) (List.forall_mem_nil _), hu⟩
    · obtain ⟨cause, hcause, rfl⟩ := faultAt_eq_error_iff.1 h
      exact ⟨unary op e, ⟨e.operations, [], operations_unary op e, eval_operations hv⟩,
        .unary hv (Value.applyUnary_eq_error_iff.1 hcause)⟩
  | binary l op r ihl ihr =>
    rw [eval_binary, bind_eq_error_iff] at h
    rcases h with h | ⟨v, hv, h⟩
    · -- the left operand comes first
      obtain ⟨u, hreach, hu⟩ := ihl h
      refine ⟨u, hreach.of_part [] (r.operations ++ [binary l op r]) ?_ (List.forall_mem_nil _), hu⟩
      rw [operations_binary, List.append_assoc, List.nil_append]
    rcases bind_eq_error_iff.1 h with h | ⟨w, hw, h⟩
    · -- all of the left operand has values
      obtain ⟨u, hreach, hu⟩ := ihr h
      refine ⟨u, hreach.of_part l.operations [binary l op r] ?_ (eval_operations hv), hu⟩
      rw [operations_binary, List.append_assoc]
    · obtain ⟨cause, hcause, rfl⟩ := faultAt_eq_error_iff.1 h
      refine ⟨binary l op r, ⟨l.operations ++ r.operations, [], operations_binary l op r, ?_⟩,
        .binary hv hw (Value.applyBinary_eq_error_iff.1 hcause)⟩
      exact List.forall_mem_append.2 ⟨eval_operations hv, eval_operations hw⟩

/-- Only one of the nodes reached has no value. -/
theorem Reaches.eq_of_eval_eq_error {u u' : Expr} {fault' : RuntimeError} (hreach : e.Reaches u)
    (hreach' : e.Reaches u') (h : u.eval = .error fault) (h' : u'.eval = .error fault') : u = u' := by
  have hfind {u : Expr} {fault : RuntimeError} (hreach : e.Reaches u) (h : u.eval = .error fault) :
      e.operations.find? (fun u => !u.eval.isOk) = some u := by
    obtain ⟨before, after, hsplit, hbefore⟩ := hreach
    refine List.find?_eq_some_iff_append.2 ⟨by rw [h]; rfl, before, after, hsplit, fun u' hu' => ?_⟩
    obtain ⟨w, hw⟩ := hbefore u' hu'
    rw [hw]
    rfl
  exact Option.some.inj ((hfind hreach h).symm.trans (hfind hreach' h'))

/-- **The first refusal in post-order is the fault.**  The evaluation of a tree fails iff one of its operations refuses
the values of its operands while all operations before it have values; the fault is this refusal, at its operator and
with its message.  If there is no such operation, the tree and every node of it have a value. -/
theorem eval_firstRefusal (e : Expr) :
    (∀ fault, e.eval = .error fault ↔ ∃ u, e.Reaches u ∧ Refuses u fault) ∧
    ((¬ ∃ u fault, e.Reaches u ∧ Refuses u fault) →
      (∃ v, e.eval = .ok v) ∧ ∀ u ∈ e.subtrees, ∃ v, u.eval = .ok v) := by
  constructor
  · intro fault
    refine ⟨exists_refuses, ?_⟩
    rintro ⟨u, hreach, hu⟩
    cases h : e.eval with
    | error fault' =>
      obtain ⟨u', hreach', hu'⟩ := exists_refuses h
      obtain rfl := hreach.eq_of_eval_eq_error hreach' hu.eval_eq hu'.eval_eq
      rw [← hu'.eval_eq, hu.eval_eq]
    | ok v =>
      obtain ⟨before, after, hsplit, -⟩ := hreach
      obtain ⟨w, hw⟩ := eval_operations h u (by simp [hsplit])
      rw [hu.eval_eq] at hw
      cases hw
  · intro hnone
    cases h : e.eval with
    | error fault =>
      obtain ⟨u, hreach, hu⟩ := exists_refuses h
      exact absurd ⟨u, fault, hreach, hu⟩ hnone
    | ok v => exact ⟨⟨v, rfl⟩, eval_subtrees h⟩

end Expr

/-- The operand on the right is evaluated before the one on the left is refused. -/
example : run "nil * -true" = .error (.runtime ⟨⟨.minus, "-", none, 1⟩, "Operand must be a number."⟩) := by
  decide +kernel

end LoxCalc
