import LoxCalc.Json.Printer
import LoxCalc.Proofs.Json.ReadBack

/-!
# LoxCalc.Proofs.Json.Written — a printed value is a JSON text and reads back

What is written of a value is put together from symbols, the texts of its parts and, with indentation, blanks
(`isValue_indented`, `isValue_compact`), so that it reads back (`read?_pretty`, `read?_of_isText`), if the numbers in
the value are spelled as numbers are.  A value is read as itself (`asRead_inj`): no two values are written alike.
-/

namespace LoxCalc.Json

/-! ## Values as they are read -/

mutual

/-- The value as it is read: every string denotes its text. -/
def asRead : Json String → Read
  | null => null
  | bool b => bool b
  | number spelling => number spelling
  | string s => string (some s)
  | array items => array (asReadItems items)
  | object members => object (asReadMembers members)

def asReadItems : List (Json String) → List Read
  | [] => []
  | j :: js => j.asRead :: asReadItems js

def asReadMember : String × Json String → Option String × Read
  | (key, j) => (some key, j.asRead)

def asReadMembers : List (String × Json String) → List (Option String × Read)
  | [] => []
  | m :: ms => asReadMember m :: asReadMembers ms

end

mutual

/-- **Two values are not read alike.** -/
theorem asRead_inj : ∀ {j j' : Json String}, j.asRead = j'.asRead → j = j'
  | null, j', h => by
    cases j' <;> simp [asRead] at h ⊢
  | bool b, j', h => by
    cases j' <;> simp [asRead] at h ⊢
    exact h
  | number spelling, j', h => by
    cases j' <;> simp [asRead] at h ⊢
    exact h
  | string s, j', h => by
    cases j' <;> simp [asRead] at h ⊢
    exact h
  | array js, j', h => by
    cases j' with
    | array js' =>
      rw [asRead, asRead, array.injEq] at h
      rw [asReadItems_inj h]
    | _ => simp [asRead] at h
  | object ms, j', h => by
    cases j' with
    | object ms' =>
      rw [asRead, asRead, object.injEq] at h
      rw [asReadMembers_inj h]
    | _ => simp [asRead] at h

theorem asReadItems_inj : ∀ {js js' : List (Json String)}, asReadItems js = asReadItems js' → js = js'
  | [], [], _ => rfl
  | j :: js, j' :: js', h => by
    rw [asReadItems, asReadItems, List.cons.injEq] at h
    rw [asRead_inj h.1, asReadItems_inj h.2]
  | [], _ :: _, h => by simp [asReadItems] at h
  | _ :: _, [], h => by simp [asReadItems] at h

theorem asReadMembers_inj : ∀ {ms ms' : List (String × Json String)}, asReadMembers ms = asReadMembers ms' → ms = ms'
  | [], [], _ => rfl
  | (key, j) :: ms, (key', j') :: ms', h => by
    rw [asReadMembers, asReadMembers, List.cons.injEq, asReadMember, asReadMember, Prod.mk.injEq] at h
    rw [Option.some.inj h.1.1, asRead_inj h.1.2, asReadMembers_inj h.2]
  | [], _ :: _, h => by simp [asReadMembers] at h
  | _ :: _, [], h => by simp [asReadMembers] at h

end

mutual

/-- All numbers in the value are spelled as numbers are. -/
def HasNumerals : Json String → Prop
  | number spelling => IsNumber spelling
  | array items => ItemsHaveNumerals items
  | object members => MembersHaveNumerals members
  | _ => True

def ItemsHaveNumerals : List (Json String) → Prop
  | [] => True
  | j :: js => j.HasNumerals ∧ ItemsHaveNumerals js

def MembersHaveNumerals : List (String × Json String) → Prop
  | [] => True
  | m :: ms => m.2.HasNumerals ∧ MembersHaveNumerals ms

end

/-! ## Values with indentation -/

/-- The entries of a block, each on a line of its own, up to the line of the closing bracket. -/
def inBlock (level : Nat) (e : String) : List String → String
  | [] => newLine (level + 1) ++ (e ++ newLine level)
  | e' :: es => newLine (level + 1) ++ e ++ ("," ++ inBlock level e' es)

theorem block_nil (level : Nat) (opening closing : String) :
    block level opening closing [] = opening ++ closing := rfl

theorem block_cons (level : Nat) (opening closing e : String) (es : List String) :
    block level opening closing (e :: es) = opening ++ (inBlock level e es ++ closing) := by
  have hentries : newLine (level + 1) ++ (("," ++ newLine (level + 1)).intercalate (e :: es) ++ newLine level) =
      inBlock level e es := by
    induction es generalizing e with
    | nil => rw [String.intercalate_singleton, inBlock]
    | cons e' es ih =>
      rw [inBlock, ← ih]
      simp only [String.intercalate_cons_cons, String.append_assoc]
  rw [block, if_neg (by simp), ← hentries]
  simp only [String.append_assoc]

theorem areBlanks_newLine (level : Nat) : AreBlanks (newLine level).toList := by
  rw [newLine, String.toList_ofList]
  intro c hc
  rcases List.mem_cons.1 hc with rfl | hc
  · rfl
  · rw [(List.mem_replicate.1 hc).2]
    rfl

theorem areBlanks_nil : AreBlanks [] := List.forall_mem_nil _

theorem areBlanks_space : AreBlanks [' '] := List.forall_mem_singleton.2 rfl

/-- A text without blanks around it. -/
theorem IsValue.isText {cs : List Char} {j : Read} (h : IsValue cs j) : IsText cs j := by
  have htext := IsText.mk areBlanks_nil h areBlanks_nil
  rwa [List.append_nil] at htext

/-- A text is not one of two values. -/
theorem eq_of_isText {text : String} {j j' : Json String} (h : IsText text.toList j.asRead)
    (h' : IsText text.toList j'.asRead) : j = j' := by
  have hread := read?_of_isText h
  rw [read?_of_isText h'] at hread
  exact (asRead_inj (Option.some.inj hread)).symm

/-- An entry on a line of its own. -/
theorem IsValue.onLine {cs : List Char} {j : Read} (h : IsValue cs j) (level : Nat) :
    IsText ((newLine level).toList ++ cs) j := by
  have htext := IsText.mk (areBlanks_newLine level) h areBlanks_nil
  rwa [List.append_nil] at htext

/-- The text is one of the member, wherever it stands between blanks. -/
def IsEntry (e : String) (m : Option String × Read) : Prop :=
  ∀ front back, AreBlanks front → AreBlanks back → IsMember (front ++ (e.toList ++ back)) m

theorem IsEntry.onLine {e : String} {m : Option String × Read} (h : IsEntry e m) (level : Nat) :
    IsMember ((newLine level).toList ++ e.toList) m := by
  have hmember := h _ [] (areBlanks_newLine level) areBlanks_nil
  rwa [List.append_nil] at hmember

mutual

/-- **A value with indentation** is a text of the value. -/
theorem isValue_indented (level : Nat) (j : Json String) (h : j.HasNumerals) :
    IsValue (j.indented level).toList j.asRead := by
  match j with
  | null =>
    rw [indented, asRead]
    exact .null
  | bool true =>
    rw [indented, asRead]
    exact .true
  | bool false =>
    rw [indented, asRead]
    exact .false
  | number spelling =>
    rw [HasNumerals] at h
    rw [indented, String.toList_ofList, asRead]
    exact .number h
  | string s =>
    rw [indented, asRead]
    exact .string (isQuoted_quote s)
  | array [] =>
    rw [indented, indentedItems, block_nil, String.toList_append, asRead, asReadItems]
    exact .emptyArray areBlanks_nil
  | array (j :: js) =>
    rw [HasNumerals, ItemsHaveNumerals] at h
    rw [indented, indentedItems, block_cons, String.toList_append, String.toList_append, asRead, asReadItems]
    exact .array (areItems_inBlock level (isValue_indented (level + 1) j h.1) js h.2)
  | object [] =>
    rw [indented, indentedMembers, block_nil, String.toList_append, asRead, asReadMembers]
    exact .emptyObject areBlanks_nil
  | object (m :: ms) =>
    rw [HasNumerals, MembersHaveNumerals] at h
    rw [indented, indentedMembers, block_cons, String.toList_append, String.toList_append, asRead, asReadMembers]
    exact .object (areMembers_inBlock level (isMember_indentedMember (level + 1) m h.1) ms h.2)

theorem areItems_inBlock (level : Nat) {e : String} {j : Read} (he : IsValue e.toList j) (js : List (Json String))
    (h : ItemsHaveNumerals js) :
    AreItems (inBlock level e (indentedItems (level + 1) js)).toList j (asReadItems js) := by
  match js with
  | [] =>
    rw [indentedItems, asReadItems, inBlock, String.toList_append, String.toList_append]
    exact .one (.mk (areBlanks_newLine _) he (areBlanks_newLine _))
  | j' :: js =>
    rw [ItemsHaveNumerals] at h
    rw [indentedItems, asReadItems, inBlock, String.toList_append, String.toList_append, String.toList_append]
    exact .more (he.onLine _) (areItems_inBlock level (isValue_indented (level + 1) j' h.1) js h.2)

theorem isMember_indentedMember (level : Nat) (m : String × Json String) (h : m.2.HasNumerals) :
    IsEntry (indentedMember level m) (asReadMember m) := by
  match m with
  | (key, j) =>
    intro front back hfront hback
    have hvalue := IsText.mk areBlanks_space (isValue_indented level j h) hback
    have hmember := IsMember.mk hfront (isQuoted_quote key) areBlanks_nil hvalue
    rw [indentedMember, asReadMember]
    simpa [String.toList_append] using hmember

theorem areMembers_inBlock (level : Nat) {e : String} {m : Option String × Read} (he : IsEntry e m)
    (ms : List (String × Json String)) (h : MembersHaveNumerals ms) :
    AreMembers (inBlock level e (indentedMembers (level + 1) ms)).toList m (asReadMembers ms) := by
  match ms with
  | [] =>
    rw [indentedMembers, asReadMembers, inBlock, String.toList_append, String.toList_append]
    exact .one (he _ _ (areBlanks_newLine _) (areBlanks_newLine _))
  | m' :: ms =>
    rw [MembersHaveNumerals] at h
    rw [indentedMembers, asReadMembers, inBlock, String.toList_append, String.toList_append, String.toList_append]
    exact .more (he.onLine _)
      (areMembers_inBlock level (isMember_indentedMember (level + 1) m' h.1) ms h.2)

end

/-- A value with indentation is a JSON text of it. -/
theorem isText_pretty (j : Json String) (h : j.HasNumerals) : IsText j.pretty.toList j.asRead :=
  (isValue_indented 0 j h).isText

/-- **A value with indentation reads back.** -/
theorem read?_pretty (j : Json String) (h : j.HasNumerals) : read? j.pretty = some j.asRead :=
  read?_of_isText (isText_pretty j h)

/-- **Values that are written alike with indentation are equal.** -/
theorem pretty_inj {j j' : Json String} (h : j.HasNumerals) (h' : j'.HasNumerals) (heq : j.pretty = j'.pretty) :
    j = j' :=
  eq_of_isText (isText_pretty j h) (heq ▸ isText_pretty j' h')

/-! ## Values on one line -/

mutual

/-- **A value on one line** is a text of the value. -/
theorem isValue_compact (j : Json String) (h : j.HasNumerals) : IsValue j.compact.toList j.asRead := by
  match j with
  | null =>
    rw [compact, asRead]
    exact .null
  | bool true =>
    rw [compact, asRead]
    exact .true
  | bool false =>
    rw [compact, asRead]
    exact .false
  | number spelling =>
    rw [HasNumerals] at h
    rw [compact, String.toList_ofList, asRead]
    exact .number h
  | string s =>
    rw [compact, asRead]
    exact .string (isQuoted_quote s)
  | array [] =>
    rw [compact, compactItems, asRead, asReadItems]
    exact .emptyArray areBlanks_nil
  | array (j :: js) =>
    rw [HasNumerals, ItemsHaveNumerals] at h
    rw [compact, compactItems, String.toList_append, String.toList_append, asRead, asReadItems]
    exact .array (areItems_intercalate (isValue_compact j h.1) js h.2)
  | object [] =>
    rw [compact, compactMembers, asRead, asReadMembers]
    exact .emptyObject areBlanks_nil
  | object (m :: ms) =>
    rw [HasNumerals, MembersHaveNumerals] at h
    rw [compact, compactMembers, String.toList_append, String.toList_append, asRead, asReadMembers]
    exact .object (areMembers_intercalate (isMember_compactMember m h.1) ms h.2)

theorem areItems_intercalate {e : String} {j : Read} (he : IsValue e.toList j) (js : List (Json String))
    (h : ItemsHaveNumerals js) : AreItems (",".intercalate (e :: compactItems js)).toList j (asReadItems js) := by
  match js with
  | [] =>
    rw [compactItems, asReadItems, String.intercalate_singleton]
    exact .one he.isText
  | j' :: js =>
    rw [ItemsHaveNumerals] at h
    rw [compactItems, asReadItems, String.intercalate_cons_cons, String.toList_append, String.toList_append,
      List.append_assoc]
    exact .more he.isText (areItems_intercalate (isValue_compact j' h.1) js h.2)

theorem isMember_compactMember (m : String × Json String) (h : m.2.HasNumerals) :
    IsMember (compactMember m).toList (asReadMember m) := by
  match m with
  | (key, j) =>
    have hmember := IsMember.mk areBlanks_nil (isQuoted_quote key) areBlanks_nil (isValue_compact j h).isText
    rw [compactMember, asReadMember]
    simpa [String.toList_append] using hmember

theorem areMembers_intercalate {e : String} {m : Option String × Read} (he : IsMember e.toList m)
    (ms : List (String × Json String)) (h : MembersHaveNumerals ms) :
    AreMembers (",".intercalate (e :: compactMembers ms)).toList m (asReadMembers ms) := by
  match ms with
  | [] =>
    rw [compactMembers, asReadMembers, String.intercalate_singleton]
    exact .one he
  | m' :: ms =>
    rw [MembersHaveNumerals] at h
    rw [compactMembers, asReadMembers, String.intercalate_cons_cons, String.toList_append, String.toList_append,
      List.append_assoc]
    exact .more he (areMembers_intercalate (isMember_compactMember m' h.1) ms h.2)

end

/-- **Values that are written alike on one line are equal.** -/
theorem compact_inj {j j' : Json String} (h : j.HasNumerals) (h' : j'.HasNumerals) (heq : j.compact = j'.compact) :
    j = j' :=
  eq_of_isText (isValue_compact j h).isText (heq ▸ (isValue_compact j' h').isText)

end LoxCalc.Json
