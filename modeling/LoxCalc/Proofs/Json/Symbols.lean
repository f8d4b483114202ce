import LoxCalc.Json.Reader

/-!
# LoxCalc.Proofs.Json.Symbols — the symbols of a value complete it

A value has a list of symbols.  Wherever a value may come next, its symbols lead to where the whole value, taken at
once, does (`foldlM_symbols`): the innermost open array or member gets it, or it is the value of the text.
-/

namespace LoxCalc.Json

/-! ## The symbols of a value -/

mutual

/-- The symbols of a value in order. -/
def symbols : Read → List Symbol
  | null => [.scalar null]
  | bool b => [.scalar (bool b)]
  | number spelling => [.scalar (number spelling)]
  | string s => [.scalar (string s)]
  | array [] => [.openArray, .closeArray]
  | array (j :: js) => .openArray :: (j.symbols ++ moreItems js)
  | object [] => [.openObject, .closeObject]
  | object (m :: ms) => .openObject :: (memberSymbols m ++ moreMembers ms)

/-- The symbols behind an item up to the end of its array. -/
def moreItems : List Read → List Symbol
  | [] => [.closeArray]
  | j :: js => .comma :: (j.symbols ++ moreItems js)

def memberSymbols : Option String × Read → List Symbol
  | (key, j) => .scalar (string key) :: .colon :: j.symbols

/-- The symbols behind a member up to the end of its object. -/
def moreMembers : List (Option String × Read) → List Symbol
  | [] => [.closeObject]
  | m :: ms => .comma :: (memberSymbols m ++ moreMembers ms)

end

/-! ## Reading them -/

namespace Progress

theorem foldlM_cons_of_step {p q : Progress} {s : Symbol} (h : p.step s = some q) (ss : List Symbol) :
    (s :: ss).foldlM step p = ss.foldlM step q := by
  rw [List.foldlM_cons, h]
  rfl

theorem foldlM_singleton (p : Progress) (s : Symbol) : [s].foldlM step p = p.step s := by
  rw [List.foldlM_cons]
  exact bind_pure _

/-- Where a value may come next, or the end of its array, the symbols of a value are those of an item. -/
theorem foldlM_symbols_valueOrClose (j : Read) (opened : List Open) (ss : List Symbol) :
    (j.symbols ++ ss).foldlM step ⟨opened, .valueOrClose⟩ = (j.symbols ++ ss).foldlM step ⟨opened, .value⟩ := by
  rcases j with _ | _ | _ | _ | (_ | ⟨j, js⟩) | (_ | ⟨m, ms⟩)
  all_goals
    rw [symbols]
    rfl

theorem foldlM_memberSymbols_keyOrClose (m : Option String × Read) (opened : List Open) (ss : List Symbol) :
    (memberSymbols m ++ ss).foldlM step ⟨opened, .keyOrClose⟩ = (memberSymbols m ++ ss).foldlM step ⟨opened, .key⟩ := by
  rw [memberSymbols]
  rfl

mutual

/-- **The symbols of a value** lead where the value does. -/
theorem foldlM_symbols (j : Read) (opened : List Open) :
    j.symbols.foldlM step ⟨opened, .value⟩ = complete j opened := by
  match j with
  | null | bool _ | number _ | string _ =>
    rw [symbols]
    exact foldlM_singleton _ _
  | array [] =>
    rw [symbols, foldlM_cons_of_step rfl]
    exact foldlM_singleton _ _
  | array (j :: js) =>
    rw [symbols, foldlM_cons_of_step rfl, foldlM_symbols_valueOrClose, List.foldlM_append, foldlM_symbols j]
    exact foldlM_moreItems js [j] opened
  | object [] =>
    rw [symbols, foldlM_cons_of_step rfl]
    exact foldlM_singleton _ _
  | object (m :: ms) =>
    rw [symbols, foldlM_cons_of_step rfl, foldlM_memberSymbols_keyOrClose, List.foldlM_append,
      foldlM_memberSymbols m]
    exact foldlM_moreMembers ms [m] opened

theorem foldlM_moreItems (js items : List Read) (opened : List Open) :
    (moreItems js).foldlM step ⟨.array items :: opened, .commaOrClose⟩ =
      complete (.array (items.reverse ++ js)) opened := by
  match js with
  | [] =>
    rw [moreItems, List.append_nil]
    exact foldlM_singleton _ _
  | j :: js =>
    rw [moreItems, foldlM_cons_of_step rfl, List.foldlM_append, foldlM_symbols j]
    have hmore := foldlM_moreItems js (j :: items) opened
    rw [List.reverse_cons, List.append_assoc, List.singleton_append] at hmore
    exact hmore

theorem foldlM_memberSymbols (m : Option String × Read) (members : List (Option String × Read))
    (opened : List Open) : (memberSymbols m).foldlM step ⟨.object members :: opened, .key⟩ =
      some ⟨.object (m :: members) :: opened, .commaOrClose⟩ := by
  match m with
  | (key, j) =>
    rw [memberSymbols, foldlM_cons_of_step rfl, foldlM_cons_of_step rfl, foldlM_symbols j]
    rfl

theorem foldlM_moreMembers (ms members : List (Option String × Read)) (opened : List Open) :
    (moreMembers ms).foldlM step ⟨.object members :: opened, .commaOrClose⟩ =
      complete (.object (members.reverse ++ ms)) opened := by
  match ms with
  | [] =>
    rw [moreMembers, List.append_nil]
    exact foldlM_singleton _ _
  | m :: ms =>
    rw [moreMembers, foldlM_cons_of_step rfl, List.foldlM_append, foldlM_memberSymbols m]
    have hmore := foldlM_moreMembers ms (m :: members) opened
    rw [List.reverse_cons, List.append_assoc, List.singleton_append] at hmore
    exact hmore

end

/-- **The symbols of a value** are a complete text of it. -/
theorem foldlM_symbols_start (j : Read) : j.symbols.foldlM step start = some ⟨[], .nothing j⟩ := foldlM_symbols j []

end Progress

end LoxCalc.Json
