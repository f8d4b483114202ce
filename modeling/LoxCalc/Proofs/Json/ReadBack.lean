import LoxCalc.Proofs.Json.Grammar
import LoxCalc.Proofs.Json.Symbols

/-!
# LoxCalc.Proofs.Json.ReadBack — every JSON text is read

A text spells symbols if reading on from it takes just these symbols, whatever follows that lets a number end
(`Spells`).  The texts of a value spell its symbols (`spells_of_isValue`), which complete it: so every JSON text is read
(`read?_of_isText`), and nothing but blanks may follow an object (`read?_append_eq_none`).
-/

namespace LoxCalc.Json

/-! ## Texts that spell symbols -/

/-- The characters that a number may go on with. -/
def continuesNumber (c : Char) : Bool := isDigit c || c == '.' || c == 'e' || c == 'E' || c == '+' || c == '-'

/-- A number may end before the text. -/
def EndsNumber (cs : List Char) : Prop := ∀ c ∈ cs.head?, continuesNumber c = false

theorem EndsNumber.append {cs ds : List Char} (hc : EndsNumber cs) (hd : EndsNumber ds) : EndsNumber (cs ++ ds) := by
  cases cs with
  | nil => exact hd
  | cons c cs => exact hc

/-- Reading on from the text takes the symbols off it, if a number may end after it. -/
def Spells (cs : List Char) (ss : List Symbol) : Prop :=
  ∀ p rest, EndsNumber rest → readFrom p (cs ++ rest) = (ss.foldlM Progress.step p).bind (readFrom · rest)

theorem readFrom_blank {c : Char} (h : isBlank c = true) (p : Progress) (cs : List Char) :
    readFrom p (c :: cs) = readFrom p cs := by
  rw [readFrom, if_pos h]

theorem readFrom_symbol {c : Char} {cs rest : List Char} {s : Symbol} (hblank : isBlank c = false)
    (h : symbol? c cs = some (s, rest)) (p : Progress) :
    readFrom p (c :: cs) = (p.step s).bind (readFrom · rest) := by
  rw [readFrom, if_neg (by rw [hblank]; exact Bool.false_ne_true)]
  split
  · rename_i hnone
    rw [h] at hnone
    cases hnone
  · rename_i hsome
    rw [h] at hsome
    cases hsome
    cases p.step s <;> rfl

namespace Spells

variable {c : Char} {cs ds front : List Char} {s : Symbol} {ss ts : List Symbol}

theorem nil : Spells [] [] := fun _ _ _ => rfl

/-- One more symbol in front, which ends by itself. -/
theorem symbol (hblank : isBlank c = false) (hsymbol : ∀ rest, symbol? c (front ++ rest) = some (s, rest))
    (h : Spells cs ss) : Spells (c :: (front ++ cs)) (s :: ss) := by
  intro p rest hrest
  rw [List.cons_append, List.append_assoc, readFrom_symbol hblank (hsymbol _), List.foldlM_cons]
  cases p.step s with
  | none => rfl
  | some q => exact h q rest hrest

/-- One more symbol in front, which is one character. -/
theorem mark (hblank : isBlank c = false) (hsymbol : ∀ rest, symbol? c rest = some (s, rest)) (h : Spells cs ss) :
    Spells (c :: cs) (s :: ss) := symbol hblank (fun rest => hsymbol ([] ++ rest)) h

theorem append (h : Spells cs ss) (hends : EndsNumber ds) (h' : Spells ds ts) : Spells (cs ++ ds) (ss ++ ts) := by
  intro p rest hrest
  rw [List.append_assoc, h p (ds ++ rest) (hends.append hrest), List.foldlM_append]
  cases ss.foldlM Progress.step p with
  | none => rfl
  | some q => exact h' q rest hrest

end Spells

/-! ## Numbers -/

/-- No digit comes first. -/
def EndsDigits (cs : List Char) : Prop := ∀ c ∈ cs.head?, isDigit c = false

theorem EndsNumber.endsDigits {cs : List Char} (h : EndsNumber cs) : EndsDigits cs := by
  intro c hc
  have := h c hc
  simp_all [continuesNumber]

section Numbers

variable {ds rest : List Char}

theorem digits?_append (h : AreDigits ds) (hrest : EndsDigits rest) : digits? (ds ++ rest) = some (ds, rest) := by
  -- what follows gives no more digits
  have hstops : rest.takeWhile isDigit = [] ∧ rest.dropWhile isDigit = rest := by
    cases rest with
    | nil => exact ⟨rfl, rfl⟩
    | cons c cs =>
      have hc : ¬ isDigit c = true := by simp [hrest c rfl]
      exact ⟨List.takeWhile_cons_of_neg hc, List.dropWhile_cons_of_neg hc⟩
  rw [digits?, List.takeWhile_append_of_pos h.2, List.dropWhile_append_of_pos h.2, hstops.1, hstops.2, List.append_nil,
    if_neg (by simpa using h.1)]

theorem whole?_append (h : IsWhole ds) (hrest : EndsDigits rest) : whole? (ds ++ rest) = some (ds, rest) := by
  cases h with
  | zero => rfl
  | @digits c ds hc h =>
    rw [List.cons_append, whole?.eq_2 _ fun rest heq => hc (List.cons.inj heq).1]
    exact digits?_append h hrest

theorem fraction?_append (h : IsFraction ds) (hrest : EndsDigits rest) (hpoint : ∀ cs, rest ≠ '.' :: cs) :
    fraction? (ds ++ rest) = some (ds, rest) := by
  cases h with
  | none => rw [List.nil_append, fraction?.eq_2 _ hpoint]
  | point h =>
    rw [List.cons_append, fraction?, digits?_append h hrest]
    rfl

theorem exponent?_append (h : IsExponent ds) (hrest : EndsNumber rest) :
    exponent? (ds ++ rest) = some (ds, rest) := by
  cases h with
  | none =>
    cases rest with
    | nil => rfl
    | cons c cs =>
      have hc : ¬ (c == 'e' || c == 'E') = true := by
        have := hrest c rfl
        simp_all [continuesNumber]
      rw [List.nil_append, exponent?, if_neg hc]
  | @exponent e sign ds he hsign h =>
    have hsplit : Json.sign (sign ++ (ds ++ rest)) = (sign, ds ++ rest) := by
      simp only [List.mem_cons, List.not_mem_nil, or_false] at hsign
      obtain rfl | rfl | rfl := hsign
      · -- a digit is no sign
        obtain ⟨d, ds', rfl⟩ := List.exists_cons_of_ne_nil h.1
        have hd := h.2 d List.mem_cons_self
        rw [List.nil_append, List.cons_append, Json.sign.eq_3]
        · rintro cs heq
          cases heq
          cases hd
        · rintro cs heq
          cases heq
          cases hd
      · rfl
      · rfl
    have he' : (e == 'e' || e == 'E') = true := by simpa using he
    rw [List.cons_append, List.append_assoc, exponent?, if_pos he', hsplit, digits?_append h hrest.endsDigits]
    rfl

/-- What stands behind the fraction of a number begins with no digit and no point. -/
theorem head_exponent_append (h : IsExponent ds) (hrest : EndsNumber rest) :
    ∀ c ∈ (ds ++ rest).head?, isDigit c = false ∧ c ≠ '.' := by
  cases h with
  | none =>
    intro c hc
    have := hrest c hc
    simp_all [continuesNumber]
  | exponent he _ _ =>
    rintro c ⟨⟩
    simp only [List.mem_cons, List.not_mem_nil, or_false] at he
    obtain rfl | rfl := he <;> decide

theorem IsWhole.exists_head (h : IsWhole ds) : ∃ c cs, ds = c :: cs ∧ isDigit c = true := by
  cases h with
  | zero => exact ⟨'0', [], rfl, rfl⟩
  | @digits c ds _ h => exact ⟨c, ds, rfl, h.2 c List.mem_cons_self⟩

theorem magnitude?_append {whole fraction exponent : List Char} (hwhole : IsWhole whole)
    (hfraction : IsFraction fraction) (hexponent : IsExponent exponent) (hrest : EndsNumber rest) :
    magnitude? (whole ++ (fraction ++ (exponent ++ rest))) = some (whole ++ (fraction ++ exponent), rest) := by
  have hhead := head_exponent_append hexponent hrest
  have hdigits : EndsDigits (exponent ++ rest) := fun c hc => (hhead c hc).1
  have hpoint (cs : List Char) : exponent ++ rest ≠ '.' :: cs := fun heq => (hhead '.' (by rw [heq]; rfl)).2 rfl
  have hdigits' : EndsDigits (fraction ++ (exponent ++ rest)) := by
    cases hfraction with
    | none => exact hdigits
    | point _ =>
      rintro c ⟨⟩
      rfl
  simp only [magnitude?, Option.bind_eq_bind, whole?_append hwhole hdigits', Option.bind_some,
    fraction?_append hfraction hdigits hpoint, exponent?_append hexponent hrest, List.append_assoc]

/-- **Every number is read**, where it ends. -/
theorem exists_number? (h : IsNumber ds) (hrest : EndsNumber rest) :
    ∃ c cs, ds = c :: cs ∧ number? c (cs ++ rest) = some (ds, rest) := by
  obtain @⟨minus, whole, fraction, exponent, hminus, hwhole, hfraction, hexponent⟩ := h
  have hmagnitude := magnitude?_append hwhole hfraction hexponent hrest
  simp only [List.mem_cons, List.not_mem_nil, or_false] at hminus
  obtain rfl | rfl := hminus
  · obtain ⟨c, cs, rfl, hc⟩ := hwhole.exists_head
    have hminus : ¬ (c == '-') = true := by
      rintro h
      rw [beq_iff_eq.1 h] at hc
      cases hc
    refine ⟨c, cs ++ (fraction ++ exponent), rfl, ?_⟩
    rw [number?, if_neg hminus, List.append_assoc, List.append_assoc]
    exact hmagnitude
  · refine ⟨'-', whole ++ (fraction ++ exponent), rfl, ?_⟩
    rw [number?, if_pos (beq_self_eq_true '-'), List.append_assoc, List.append_assoc, hmagnitude]
    rfl

end Numbers

/-- What begins like a number begins with no other symbol. -/
theorem symbol?_of_number? {c : Char} {cs : List Char} {r : List Char × List Char} (h : number? c cs = some r) :
    isBlank c = false ∧ symbol? c cs = some (.scalar (.number r.1), r.2) := by
  constructor
  · rw [Bool.eq_false_iff]
    intro hblank
    simp only [isBlank, Bool.or_eq_true, beq_iff_eq] at hblank
    obtain ((rfl | rfl) | rfl) | rfl := hblank <;> cases h
  · unfold symbol?
    split
    case h_11 => rw [h]; rfl
    all_goals cases h

/-! ## Texts of values -/

theorem AreBlanks.endsNumber {cs : List Char} (h : AreBlanks cs) : EndsNumber cs := by
  intro c hc
  have hblank := h c (List.mem_of_mem_head? hc)
  simp only [isBlank, Bool.or_eq_true, beq_iff_eq] at hblank
  obtain ((rfl | rfl) | rfl) | rfl := hblank <;> rfl

theorem readFrom_blanks {ds : List Char} (h : AreBlanks ds) (p : Progress) (cs : List Char) :
    readFrom p (ds ++ cs) = readFrom p cs := by
  induction ds with
  | nil => rfl
  | cons d ds ih =>
    rw [List.cons_append, readFrom_blank (h d List.mem_cons_self)]
    exact ih fun c hc => h c (List.mem_cons_of_mem d hc)

theorem endsNumber_cons {c : Char} (h : continuesNumber c = false) (cs : List Char) : EndsNumber (c :: cs) := by
  rintro d ⟨⟩
  exact h

namespace Spells

variable {c : Char} {cs ds : List Char} {s : Symbol} {ss : List Symbol}

theorem blanks (hds : AreBlanks ds) (h : Spells cs ss) : Spells (ds ++ cs) ss := by
  intro p rest hrest
  rw [List.append_assoc, readFrom_blanks hds, h p rest hrest]

theorem number (h : IsNumber cs) : Spells cs [.scalar (.number cs)] := by
  intro p rest hrest
  obtain ⟨c, ds, rfl, hnumber⟩ := exists_number? h hrest
  obtain ⟨hblank, hsymbol⟩ := symbol?_of_number? hnumber
  rw [List.cons_append, readFrom_symbol hblank hsymbol, Progress.foldlM_singleton]

theorem quoted {key : Option String} (hds : IsQuoted ds key) (h : Spells cs ss) :
    Spells (ds ++ cs) (.scalar (.string key) :: ss) := by
  obtain ⟨body, rfl, hbody⟩ := exists_unquote? hds
  refine symbol rfl (fun rest => ?_) h
  show (unquote? (body ++ rest)).map _ = _
  rw [hbody]
  rfl

/-- A bracket behind the text. -/
theorem bracket (h : Spells cs ss) (hblank : isBlank c = false) (hends : continuesNumber c = false)
    (hsymbol : ∀ rest, symbol? c rest = some (s, rest)) (p : Progress) (rest : List Char) :
    readFrom p (cs ++ c :: rest) = ((ss ++ [s]).foldlM Progress.step p).bind (readFrom · rest) := by
  rw [h p (c :: rest) (endsNumber_cons hends rest), List.foldlM_append]
  cases ss.foldlM Progress.step p with
  | none => rfl
  | some q =>
    rw [Option.bind_some, readFrom_symbol hblank (hsymbol rest)]
    exact congrArg (Option.bind · _) (Progress.foldlM_singleton q s).symm

end Spells

/-- The symbols of the items of an array, without its brackets. -/
def itemSymbols (j : Read) (js : List Read) : List Symbol := j.symbols ++ js.flatMap fun j => .comma :: j.symbols

/-- The symbols of the members of an object, without its brackets. -/
def membersSymbols (m : Option String × Read) (ms : List (Option String × Read)) : List Symbol :=
  memberSymbols m ++ ms.flatMap fun m => .comma :: memberSymbols m

theorem symbols_array (j : Read) (js : List Read) :
    (array (j :: js)).symbols = .openArray :: (itemSymbols j js ++ [.closeArray]) := by
  have hmore : moreItems js = (js.flatMap fun j => .comma :: j.symbols) ++ [.closeArray] := by
    induction js with
    | nil => rw [moreItems, List.flatMap_nil, List.nil_append]
    | cons j js ih => rw [moreItems, ih, List.flatMap_cons, List.cons_append, List.cons_append, List.append_assoc]
  rw [symbols, hmore, itemSymbols, List.append_assoc]

theorem symbols_object (m : Option String × Read) (ms : List (Option String × Read)) :
    (object (m :: ms)).symbols = .openObject :: (membersSymbols m ms ++ [.closeObject]) := by
  have hmore : moreMembers ms = (ms.flatMap fun m => .comma :: memberSymbols m) ++ [.closeObject] := by
    induction ms with
    | nil => rw [moreMembers, List.flatMap_nil, List.nil_append]
    | cons m ms ih => rw [moreMembers, ih, List.flatMap_cons, List.cons_append, List.cons_append, List.append_assoc]
  rw [symbols, hmore, membersSymbols, List.append_assoc]

mutual

/-- **The texts of a value** spell its symbols. -/
theorem spells_of_isValue {cs : List Char} {j : Read} (h : IsValue cs j) : Spells cs j.symbols := by
  match h with
  | .null =>
    rw [symbols]
    show Spells ('n' :: (['u', 'l', 'l'] ++ [])) _
    exact .symbol rfl (fun _ => rfl) .nil
  | .true =>
    rw [symbols]
    show Spells ('t' :: (['r', 'u', 'e'] ++ [])) _
    exact .symbol rfl (fun _ => rfl) .nil
  | .false =>
    rw [symbols]
    show Spells ('f' :: (['a', 'l', 's', 'e'] ++ [])) _
    exact .symbol rfl (fun _ => rfl) .nil
  | .number h =>
    rw [symbols]
    exact .number h
  | .string h =>
    rw [symbols, ← List.append_nil cs]
    exact .quoted h .nil
  | .emptyArray h =>
    rw [symbols]
    exact .mark rfl (fun _ => rfl) (.blanks h (.mark rfl (fun _ => rfl) .nil))
  | .array h =>
    rw [symbols_array]
    exact .mark rfl (fun _ => rfl)
      ((spells_of_areItems h).append (endsNumber_cons rfl _) (.mark rfl (fun _ => rfl) .nil))
  | .emptyObject h =>
    rw [symbols]
    exact .mark rfl (fun _ => rfl) (.blanks h (.mark rfl (fun _ => rfl) .nil))
  | .object h =>
    rw [symbols_object]
    exact .mark rfl (fun _ => rfl)
      ((spells_of_areMembers h).append (endsNumber_cons rfl _) (.mark rfl (fun _ => rfl) .nil))

theorem spells_of_isText {cs : List Char} {j : Read} (h : IsText cs j) : Spells cs j.symbols := by
  match h with
  | .mk hfront h hback =>
    have hblanks := Spells.blanks hback .nil
    rw [List.append_nil] at hblanks
    rw [← List.append_nil j.symbols]
    exact .blanks hfront ((spells_of_isValue h).append hback.endsNumber hblanks)

theorem spells_of_areItems {cs : List Char} {j : Read} {js : List Read} (h : AreItems cs j js) :
    Spells cs (itemSymbols j js) := by
  match h with
  | .one h =>
    rw [itemSymbols, List.flatMap_nil, List.append_nil]
    exact spells_of_isText h
  | .more h hs =>
    exact (spells_of_isText h).append (endsNumber_cons rfl _) (.mark rfl (fun _ => rfl) (spells_of_areItems hs))

theorem spells_of_isMember {cs : List Char} {m : Option String × Read} (h : IsMember cs m) :
    Spells cs (memberSymbols m) := by
  match h with
  | .mk hfront hname hback h =>
    rw [memberSymbols]
    exact .blanks hfront (.quoted hname (.blanks hback (.mark rfl (fun _ => rfl) (spells_of_isText h))))

theorem spells_of_areMembers {cs : List Char} {m : Option String × Read} {ms : List (Option String × Read)}
    (h : AreMembers cs m ms) : Spells cs (membersSymbols m ms) := by
  match h with
  | .one h =>
    rw [membersSymbols, List.flatMap_nil, List.append_nil]
    exact spells_of_isMember h
  | .more h hs =>
    exact (spells_of_isMember h).append (endsNumber_cons rfl _) (.mark rfl (fun _ => rfl) (spells_of_areMembers hs))

end

/-- **Every JSON text is read**, and gives its value. -/
theorem read?_of_isText {text : String} {j : Read} (h : IsText text.toList j) : read? text = some j := by
  have hread := spells_of_isText h .start [] (by rintro c ⟨⟩)
  rw [List.append_nil, Progress.foldlM_symbols_start] at hread
  rw [read?, hread, Option.bind_some, readFrom]
  rfl

/-! ## What follows an object -/

/-- An object is read from its first bracket to its last, whatever follows. -/
theorem readFrom_object {cs : List Char} {ms : List (Option String × Read)} (h : IsValue cs (object ms))
    (p : Progress) (rest : List Char) :
    readFrom p (cs ++ rest) = ((object ms).symbols.foldlM Progress.step p).bind (readFrom · rest) := by
  cases h with
  | @emptyObject cs h =>
    have hopen : Spells ('{' :: (cs ++ [])) [.openObject] := .mark rfl (fun _ => rfl) (.blanks h .nil)
    rw [List.append_nil] at hopen
    rw [symbols, List.cons_append, List.append_assoc, List.singleton_append]
    exact hopen.bracket rfl rfl (fun _ => rfl) p rest
  | @object cs m ms h =>
    have hopen : Spells ('{' :: cs) (.openObject :: membersSymbols m ms) :=
      .mark rfl (fun _ => rfl) (spells_of_areMembers h)
    rw [symbols_object, List.cons_append, List.append_assoc, List.singleton_append]
    exact hopen.bracket rfl rfl (fun _ => rfl) p rest

/-- Nothing but blanks may follow a complete text. -/
theorem readFrom_complete {cs : List Char} (h : ∃ c ∈ cs, isBlank c = false) (opened : List Open) (j : Read) :
    readFrom ⟨opened, .nothing j⟩ cs = none := by
  induction cs with
  | nil => simp at h
  | cons c cs ih =>
    cases hc : isBlank c with
    | true =>
      obtain ⟨d, hd, hblank⟩ := h
      rw [readFrom_blank hc]
      refine ih ⟨d, (List.mem_cons.1 hd).resolve_left ?_, hblank⟩
      rintro rfl
      rw [hc] at hblank
      cases hblank
    | false =>
      rw [readFrom, if_neg (by simp [hc])]
      split <;> rfl

/-- **Nothing follows an object** but blanks. -/
theorem read?_append_eq_none {text rest : String} {ms : List (Option String × Read)}
    (h : IsText text.toList (object ms)) (hrest : ∃ c ∈ rest.toList, isBlank c = false) :
    read? (text ++ rest) = none := by
  generalize htext : text.toList = cs at h
  obtain @⟨front, value, back, _, hfront, h, hback⟩ := h
  obtain ⟨c, hc, hblank⟩ := hrest
  rw [read?, String.toList_append, htext, List.append_assoc, List.append_assoc, readFrom_blanks hfront,
    readFrom_object h, Progress.foldlM_symbols_start]
  exact readFrom_complete ⟨c, List.mem_append_right back hc, hblank⟩ [] _

end LoxCalc.Json
