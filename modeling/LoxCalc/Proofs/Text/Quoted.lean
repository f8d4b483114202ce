import LoxCalc.Text.Quoted
import LoxCalc.Proofs.Text.Words

/-!
# LoxCalc.Proofs.Text.Quoted — a quoted text stands on one line and says which text it is

* `IsWritten c cs`: what stands for a character between quotes is the character, a backslash with a letter, or its code
  point.  Every character is written so (`isWritten_encodeChar`), without a line break, and two are never written alike,
  whatever follows them (`IsWritten.append_inj`).
* So the closing quote can be told from those of the text: texts that are quoted alike are the same, and so is what
  follows them (`encode_append_inj`).
-/

namespace LoxCalc

/-- No character of the text begins a new line. -/
def OnOneLine (cs : List Char) : Prop := ∀ c ∈ cs, c ≠ '\n' ∧ c ≠ '\r'

instance (cs : List Char) : Decidable (OnOneLine cs) := List.decidableBAll (fun c => c ≠ '\n' ∧ c ≠ '\r') cs

namespace OnOneLine

variable {cs ds rest rest' : List Char}

theorem append (hc : OnOneLine cs) (hd : OnOneLine ds) : OnOneLine (cs ++ ds) :=
  List.forall_mem_append.2 ⟨hc, hd⟩

theorem cons {c : Char} (hc : c ≠ '\n' ∧ c ≠ '\r') (h : OnOneLine cs) : OnOneLine (c :: cs) :=
  List.forall_mem_cons.2 ⟨hc, h⟩

/-- **Lines end at their line feed.** -/
theorem append_inj (hc : OnOneLine cs) (hd : OnOneLine ds) (h : cs ++ '\n' :: rest = ds ++ '\n' :: rest') :
    cs = ds ∧ rest = rest' :=
  delimited_inj (fun hmem => (hc _ hmem).1 rfl) (fun hmem => (hd _ hmem).1 rfl) h

end OnOneLine

namespace Quoted

/-- The characters with a letter of their own behind a backslash. -/
def letters : List (Char × Char) :=
  [('\x00', '0'), ('\t', 't'), ('\n', 'n'), ('\r', 'r'), ('"', '"'), ('\\', '\\')]

/-- What stands for a character between quotes. -/
inductive IsWritten (c : Char) : List Char → Prop
  | plain (hquote : c ≠ '"') (hbackslash : c ≠ '\\') (hcontrol : 0x20 ≤ c.toNat) : IsWritten c [c]
  | letter {e : Char} (h : (c, e) ∈ letters) : IsWritten c ['\\', e]
  | codePoint : IsWritten c ('\\' :: 'u' :: '{' :: (hexDigits c.toNat ++ ['}']))

/-- Controls do not stand for themselves. -/
theorem le_toNat_of_isPlain {c : Char} (h : isPlain c = true) : 0x20 ≤ c.toNat := by
  unfold isPlain at h
  split at h
  · simp only [Bool.and_eq_true, decide_eq_true_eq] at h
    exact h.1
  · omega

theorem isWritten_encodeChar (c : Char) : IsWritten c (encodeChar c) := by
  unfold encodeChar
  split
  case h_7 hquote hbackslash =>
    split
    · rename_i hplain
      exact .plain hquote hbackslash (le_toNat_of_isPlain hplain)
    · exact .codePoint
  all_goals exact .letter (by decide)

section HexDigits

variable {n m : Nat} {cs ds : List Char}

theorem ne_of_mem_hexDigits {c : Char} (hc : c ∈ hexDigits n) : c ≠ '}' ∧ c ≠ '\n' ∧ c ≠ '\r' := by
  have hall : ∀ k < 16, k.digitChar ≠ '}' ∧ k.digitChar ≠ '\n' ∧ k.digitChar ≠ '\r' := by decide
  obtain ⟨k, hk, rfl⟩ := exists_digitChar_of_mem_toDigits (by decide) hc
  exact hall k hk

/-- Code points end at their brace. -/
theorem hexDigits_append_inj (h : hexDigits n ++ '}' :: cs = hexDigits m ++ '}' :: ds) : n = m ∧ cs = ds := by
  have hbrace (k : Nat) : '}' ∉ hexDigits k := fun hc => (ne_of_mem_hexDigits hc).1 rfl
  obtain ⟨hdigits, hrest⟩ := delimited_inj (hbrace n) (hbrace m) h
  exact ⟨toDigits_inj (by decide) (by decide) hdigits, hrest⟩

end HexDigits

namespace IsWritten

variable {c d : Char} {front back cs ds : List Char}

/-- No quote comes first. -/
theorem exists_head (h : IsWritten c front) : ∃ e rest, front = e :: rest ∧ e ≠ '"' := by
  cases h with
  | plain hquote _ _ => exact ⟨c, [], rfl, hquote⟩
  | letter h => exact ⟨'\\', _, rfl, by decide⟩
  | codePoint => exact ⟨'\\', _, rfl, by decide⟩

/-- **Characters are never written alike**, whatever follows. -/
theorem append_inj (h : IsWritten c front) (h' : IsWritten d back) (heq : front ++ cs = back ++ ds) :
    c = d ∧ cs = ds := by
  have hletters : ∀ p ∈ letters, ∀ q ∈ letters, p.2 = q.2 → p.1 = q.1 := by decide
  have hnone : ∀ p ∈ letters, p.2 ≠ 'u' := by decide
  cases h with
  | plain hquote hbackslash hcontrol =>
    cases h' with
    | plain _ _ _ => exact List.cons.inj heq
    | letter _ | codePoint => exact absurd (List.cons.inj heq).1 hbackslash
  | letter hc =>
    cases h' with
    | plain _ hbackslash _ => exact absurd (List.cons.inj heq).1.symm hbackslash
    | letter hd =>
      obtain ⟨rfl, rfl⟩ := List.cons.inj (List.cons.inj heq).2
      exact ⟨hletters _ hc _ hd rfl, rfl⟩
    | codePoint => exact absurd (List.cons.inj (List.cons.inj heq).2).1 (hnone _ hc)
  | codePoint =>
    cases h' with
    | plain _ hbackslash _ => exact absurd (List.cons.inj heq).1.symm hbackslash
    | letter hd => exact absurd (List.cons.inj (List.cons.inj heq).2).1.symm (hnone _ hd)
    | codePoint =>
      simp only [List.cons_append, List.append_assoc, List.nil_append, List.cons.injEq, true_and] at heq
      obtain ⟨hchar, hrest⟩ := hexDigits_append_inj heq
      exact ⟨Char.toNat_inj.1 hchar, hrest⟩

theorem onOneLine (h : IsWritten c front) : OnOneLine front := by
  cases h with
  | plain _ _ hcontrol =>
    have hne : c ≠ '\n' ∧ c ≠ '\r' := by constructor <;> rintro rfl <;> exact absurd hcontrol (by decide)
    exact List.forall_mem_singleton.2 hne
  | letter h =>
    have hall : ∀ p ∈ letters, OnOneLine ['\\', p.2] := by decide
    exact hall _ h
  | codePoint =>
    have hopen : OnOneLine ['\\', 'u', '{'] := by decide
    have hclose : OnOneLine ['}'] := by decide
    have hdigits : OnOneLine (hexDigits c.toNat) := fun d hd => (ne_of_mem_hexDigits hd).2
    exact hopen.append (hdigits.append hclose)

end IsWritten

/-! ## Texts -/

/-- Up to the first quote that is not written, the texts are the same. -/
theorem flatMap_encodeChar_inj {cs ds rest rest' : List Char}
    (h : cs.flatMap encodeChar ++ '"' :: rest = ds.flatMap encodeChar ++ '"' :: rest') : cs = ds ∧ rest = rest' := by
  have hquote (c : Char) (cs rest : List Char) : encodeChar c ++ cs ≠ '"' :: rest := by
    obtain ⟨e, more, heq, hne⟩ := (isWritten_encodeChar c).exists_head
    rw [heq]
    exact fun h => hne (List.cons.inj h).1
  induction cs generalizing ds with
  | nil =>
    cases ds with
    | nil => exact ⟨rfl, (List.cons.inj h).2⟩
    | cons d ds =>
      rw [List.flatMap_cons, List.append_assoc] at h
      exact absurd h.symm (hquote d _ _)
  | cons c cs ih =>
    cases ds with
    | nil =>
      rw [List.flatMap_cons, List.append_assoc] at h
      exact absurd h (hquote c _ _)
    | cons d ds =>
      rw [List.flatMap_cons, List.flatMap_cons, List.append_assoc, List.append_assoc] at h
      obtain ⟨rfl, hrest⟩ := (isWritten_encodeChar c).append_inj (isWritten_encodeChar d) h
      obtain ⟨rfl, rfl⟩ := ih hrest
      exact ⟨rfl, rfl⟩

theorem toList_encode (s : String) : (encode s).toList = '"' :: (s.toList.flatMap encodeChar ++ ['"']) :=
  String.toList_ofList

/-- **A quoted text says which text it is**, and where it ends. -/
theorem encode_append_inj {s t : String} {rest rest' : List Char}
    (h : (encode s).toList ++ rest = (encode t).toList ++ rest') : s = t ∧ rest = rest' := by
  simp only [toList_encode, List.cons_append, List.append_assoc, List.nil_append, List.cons.injEq, true_and] at h
  obtain ⟨htext, hrest⟩ := flatMap_encodeChar_inj h
  exact ⟨String.toList_inj.1 htext, hrest⟩

/-- **A quoted text stands on one line.** -/
theorem onOneLine_encode (s : String) : OnOneLine (encode s).toList := by
  have hquote : OnOneLine ['"'] := by decide
  have hwritten : OnOneLine (s.toList.flatMap encodeChar) := by
    intro c hc
    obtain ⟨d, -, hd⟩ := List.mem_flatMap.1 hc
    exact (isWritten_encodeChar d).onOneLine c hd
  rw [toList_encode]
  exact hquote.append (hwritten.append hquote)

/-- A text that looks like the end of a quoted one. -/
example : encode "\" @ line 3\n" = "\"\\\" @ line 3\\n\"" := by decide +kernel

end Quoted

end LoxCalc
