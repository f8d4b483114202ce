import LoxCalc.Proofs.CommandLine.Agreement
import LoxCalc.Proofs.Decimal.Spelling
import LoxCalc.Proofs.Text.Quoted

/-!
# LoxCalc.Proofs.Token.Listing — the listing of tokens says which tokens they are

A token is listed as a word for its kind, its text between quotes, its literal if there is one, and its line.  The
literal is a spelling of a number or a text between quotes, so what comes behind the text tells whether there is one
(`Token.listedField_inj`).  No part of it begins a new line (`Token.onOneLine_listing`), and no two tokens are listed
alike (`Token.listing_injective`).  A listing ends with the one `eof`, whatever is written behind it, so two texts that
are listed alike have the same tokens (`listing_lossless`).
-/

namespace LoxCalc

/-! ## Literals -/

/-- The listing of a number is a spelling of it. -/
theorem isSpelling_listing (x : Binary64) : x.IsSpelling x.listing := by
  have hunsigned (m : Magnitude) : (Binary64.signed false m).IsSpelling (Binary64.signed false m).listing := by
    cases hm : m.isInfinite with
    | true =>
      obtain rfl := Magnitude.eq_infinity hm
      exact .infinity (by decide)
    | false =>
      obtain ⟨whole, fraction, hnum, hval⟩ := exists_isNumeral_shortest m .up
      obtain ⟨n, htext, rfl, rfl⟩ := Numeral.exists_of_isNumeral hnum
      have hlisting : (Binary64.signed false m).listing = n.text := by
        simp only [Binary64.listing, hm, Bool.false_eq_true, if_false]
        rw [← htext, String.ofList_toList]
      rw [hlisting]
      exact .numeral n hm hval
  cases x with
  | nan => exact .nan
  | signed s m => exact (hunsigned m).signed s

theorem ne_break_of_isDigit (c : Char) (hc : Segment.isDigit c = true) : c ≠ '\n' ∧ c ≠ '\r' := by
  constructor <;> rintro rfl <;> cases hc

namespace Literal

variable {l l' : Literal} {cs ds : List Char}

theorem onOneLine_listing (l : Literal) : OnOneLine l.listing.toList := by
  cases l with
  | number x =>
    have hothers : OnOneLine Binary64.nonDigits := by decide
    exact (isSpelling_listing x).forall_mem ne_break_of_isDigit hothers
  | str s => exact Quoted.onOneLine_encode s

/-- No literal begins like the mark of a line. -/
theorem listing_append_ne (l : Literal) (cs ds : List Char) : l.listing.toList ++ cs ≠ '@' :: ds := by
  cases l with
  | number x => exact (isSpelling_listing x).append_ne (by decide) cs ds
  | str s =>
    rw [listing, Quoted.toList_encode]
    exact fun h => absurd (List.cons.inj h).1 (by decide)

/-- **Literals that are listed alike are the same**, and so is what follows them. -/
theorem listing_append_inj (hcs : EndsWord cs) (hds : EndsWord ds)
    (h : l.listing.toList ++ cs = l'.listing.toList ++ ds) : l = l' ∧ cs = ds := by
  have hmixed (x : Binary64) (s : String) (cs ds : List Char) :
      (number x).listing.toList ++ cs ≠ (str s).listing.toList ++ ds := by
    rw [listing, listing, Quoted.toList_encode]
    exact (isSpelling_listing x).append_ne (by decide) cs _
  cases l with
  | number x =>
    cases l' with
    | number y =>
      obtain ⟨htext, hrest⟩ := (isSpelling_listing x).isWord.append_inj (isSpelling_listing y).isWord hcs hds h
      have hspelling := isSpelling_listing x
      rw [String.toList_inj.1 htext] at hspelling
      rw [hspelling.unique (isSpelling_listing y)]
      exact ⟨rfl, hrest⟩
    | str s => exact absurd h (hmixed x s cs ds)
  | str s =>
    cases l' with
    | number y => exact absurd h.symm (hmixed y s ds cs)
    | str t =>
      obtain ⟨rfl, hrest⟩ := Quoted.encode_append_inj h
      exact ⟨rfl, hrest⟩

end Literal

/-! ## Tokens -/

theorem TokenKind.isWord_name (k : TokenKind) : IsWord k.name.toList := by
  have hall : ∀ k ∈ all, IsWord k.name.toList := by decide +kernel
  exact hall k k.mem_all

theorem TokenKind.onOneLine_name (k : TokenKind) : OnOneLine k.name.toList := by
  have hall : ∀ k ∈ all, OnOneLine k.name.toList := by decide +kernel
  exact hall k k.mem_all

/-- **Kinds are told apart by their names.** -/
theorem TokenKind.name_injective {k k' : TokenKind} (h : k.name = k'.name) : k = k' := by
  have hread : ∀ k ∈ all, ofName? k.name = some k := by decide +kernel
  have hsome := hread k k.mem_all
  rw [h, hread k' k'.mem_all] at hsome
  exact (Option.some.inj hsome).symm

namespace Token

variable {t t' : Token}

/-- The mark of a line. -/
def lineMark (line : Nat) : List Char := ' ' :: '@' :: (" line ".toList ++ Nat.toDigits 10 line)

/-- What stands behind the text of a token. -/
def listedField (line : Nat) : Option Literal → List Char
  | none => lineMark line
  | some l => ' ' :: (l.listing.toList ++ lineMark line)

theorem toList_listing (t : Token) : t.listing.toList =
    t.kind.name.toList ++ ' ' :: ((Quoted.encode t.lexeme).toList ++ listedField t.line t.literal) := by
  rw [listing, Nat.toString_eq_ofList_toDigits]
  cases t.literal <;> simp [listedField, lineMark, String.toList_append]

theorem lineMark_inj {n n' : Nat} (h : lineMark n = lineMark n') : n = n' := by
  have hdigits := List.append_cancel_left (List.cons.inj (List.cons.inj h).2).2
  exact toDigits_inj (by decide) (by decide) hdigits

/-- **What stands behind the text** tells whether there is a literal, which one, and the line. -/
theorem listedField_inj {l l' : Option Literal} {n n' : Nat} (h : listedField n l = listedField n' l') :
    l = l' ∧ n = n' := by
  cases l with
  | none =>
    cases l' with
    | none => exact ⟨rfl, lineMark_inj h⟩
    | some l' => exact absurd (List.cons.inj h).2.symm (l'.listing_append_ne _ _)
  | some l =>
    cases l' with
    | none => exact absurd (List.cons.inj h).2 (l.listing_append_ne _ _)
    | some l' =>
      obtain ⟨rfl, hmark⟩ := Literal.listing_append_inj (endsWord_space _) (endsWord_space _) (List.cons.inj h).2
      exact ⟨rfl, lineMark_inj hmark⟩

/-- **No two tokens are listed alike.** -/
theorem listing_injective (h : t.listing = t'.listing) : t = t' := by
  rw [← String.toList_inj, toList_listing, toList_listing] at h
  obtain ⟨hname, hrest⟩ := (t.kind.isWord_name).append_inj (t'.kind.isWord_name) (endsWord_space _) (endsWord_space _) h
  obtain ⟨hlexeme, hfield⟩ := Quoted.encode_append_inj (List.cons.inj hrest).2
  obtain ⟨hliteral, hline⟩ := listedField_inj hfield
  obtain ⟨kind, lexeme, literal, line⟩ := t
  obtain rfl := TokenKind.name_injective (String.toList_inj.1 hname)
  obtain rfl := hlexeme
  obtain rfl := hliteral
  obtain rfl := hline
  rfl

theorem onOneLine_lineMark (line : Nat) : OnOneLine (lineMark line) := by
  have hmark : OnOneLine " @ line ".toList := by decide
  exact hmark.append fun c hc => ne_break_of_isDigit c (isDigit_of_mem_toDigits hc)

/-- **A listed token stands on one line.** -/
theorem onOneLine_listing (t : Token) : OnOneLine t.listing.toList := by
  have hspace : ' ' ≠ '\n' ∧ ' ' ≠ '\r' := by decide
  have hfield : OnOneLine (listedField t.line t.literal) := by
    cases t.literal with
    | none => exact onOneLine_lineMark _
    | some l => exact .cons hspace (.append l.onOneLine_listing (onOneLine_lineMark _))
  rw [toList_listing]
  exact .append t.kind.onOneLine_name (.cons hspace (.append (Quoted.onOneLine_encode _) hfield))

end Token

/-! ## Listings -/

/-- Tokens with one end, the last of them. -/
inductive EndedOnce : List Token → Prop
  | last (line : Nat) : EndedOnce [.eof line]
  | cons {t : Token} {ts : List Token} (ht : t.kind ≠ .eof) (h : EndedOnce ts) : EndedOnce (t :: ts)

theorem endedOnce_append {body : List Token} (h : ∀ t ∈ body, t.kind ≠ .eof) (line : Nat) :
    EndedOnce (body ++ [.eof line]) := by
  induction body with
  | nil => exact .last line
  | cons t body ih =>
    obtain ⟨ht, h⟩ := List.forall_mem_cons.1 h
    exact .cons ht (ih h)

/-- The tokens of a text have one end. -/
theorem endedOnce_scan (source : String) : EndedOnce (scan source).tokens := by
  rw [scan, Scan.tokens_eq_body_append]
  exact endedOnce_append (fun t ht => (form_of_mem_body ht).kind_literal.1) _

theorem Token.toList_lines_cons (t : Token) (ts : List Token) (cs : List Char) :
    (lines (t :: ts)).toList ++ cs = t.listing.toList ++ '\n' :: ((lines ts).toList ++ cs) := by
  rw [lines, List.map_cons, String.join_cons]
  simp [lines, String.toList_append]

/-- The first line of a listing is the first token. -/
theorem Token.lines_cons_inj {t t' : Token} {ts ts' : List Token} {cs ds : List Char}
    (h : (lines (t :: ts)).toList ++ cs = (lines (t' :: ts')).toList ++ ds) :
    t = t' ∧ (lines ts).toList ++ cs = (lines ts').toList ++ ds := by
  rw [toList_lines_cons, toList_lines_cons] at h
  obtain ⟨hline, hrest⟩ := OnOneLine.append_inj t.onOneLine_listing t'.onOneLine_listing h
  exact ⟨listing_injective (String.toList_inj.1 hline), hrest⟩

/-- **Listings that begin alike** are of the same tokens, whatever follows them. -/
theorem EndedOnce.eq_of_lines {ts ts' : List Token} {cs ds : List Char} (h : EndedOnce ts) (h' : EndedOnce ts')
    (heq : (Token.lines ts).toList ++ cs = (Token.lines ts').toList ++ ds) : ts = ts' := by
  induction h generalizing ts' with
  | last line =>
    cases h' with
    | last line' => rw [(Token.lines_cons_inj heq).1]
    | cons ht' _ => exact absurd ((Token.lines_cons_inj heq).1 ▸ rfl) ht'
  | cons ht _ ih =>
    cases h' with
    | last line' => exact absurd ((Token.lines_cons_inj heq).1 ▸ rfl) ht
    | cons ht' h' =>
      obtain ⟨rfl, hrest⟩ := Token.lines_cons_inj heq
      rw [ih h' hrest]

/-! ## Runs -/

/-- A run that lists the tokens of a text, with or without tracing. -/
structure ListingRun (source : String) where
  tree : FileTree
  invocation : Invocation
  script : Path
  asked : Request.ofArguments invocation.arguments = .run (.listTokens script false)
  sees : tree.seenBy invocation (.listTokens script false) = .file source.toUTF8

namespace ListingRun

variable {source source' : String}

/-- What the run prints. -/
def stdout (run : ListingRun source) : String := (run.tree.invoke run.invocation).2.stdout

/-- **A run prints the listing** and what scanning finds wrong. -/
theorem stdout_eq (run : ListingRun source) :
    run.stdout = Token.lines (scan source).tokens ++ Diagnostic.lines (lexicalErrors source) := by
  have hreply : (Command.listTokens run.script false).reply run.invocation.environment
      (run.tree.settings run.invocation) (run.tree.seenBy run.invocation (.listTokens run.script false)) =
        .finish (.ofTokens false source) := by
    rw [run.sees, Command.reply, Reply.ofScript, scriptText_eq_ok]
  rw [stdout, FileTree.invoke_of_run run.asked, FileTree.runCommand_of_finish hreply, Settings.stdout_trace_andThen,
    ofTokens_eq]

theorem tokens_eq_of_stdout_eq (run : ListingRun source) (run' : ListingRun source') (h : run.stdout = run'.stdout) :
    (scan source).tokens = (scan source').tokens := by
  rw [stdout_eq, stdout_eq, ← String.toList_inj, String.toList_append, String.toList_append] at h
  exact (endedOnce_scan source).eq_of_lines (endedOnce_scan source') h

end ListingRun

/-- **Listings lose nothing.**  Every token, whatever text it holds, is listed on one line, and no two tokens are listed
alike.  A run prints one line for each token of a text and then one for each lexical error; if two print the same, their
texts have the same tokens. -/
theorem listing_lossless :
    (∀ t : Token, '\n' ∉ t.listing.toList ∧ '\r' ∉ t.listing.toList) ∧
    (∀ t t' : Token, t.listing = t'.listing → t = t') ∧
    (∀ (source : String) (run : ListingRun source), (scan source).errors = [] →
      run.stdout = Token.lines (scan source).tokens) ∧
    ∀ (source source' : String) (run : ListingRun source) (run' : ListingRun source'), run.stdout = run'.stdout →
      (scan source).tokens = (scan source').tokens := by
  refine ⟨fun t => ?_, fun _ _ => Token.listing_injective, fun source run herrors => ?_,
    fun _ _ run run' => run.tokens_eq_of_stdout_eq run'⟩
  · exact ⟨fun h => (t.onOneLine_listing _ h).1 rfl, fun h => (t.onOneLine_listing _ h).2 rfl⟩
  · rw [run.stdout_eq, lexicalErrors, herrors]
    exact String.append_empty

/-- A run on a script, which traces nothing. -/
def ListingRun.onScript (source : String) : ListingRun source where
  tree := scriptTree source.toUTF8 false
  invocation := _
  script := ⟨"script"⟩
  asked := (UntracedRun.onScript ["tokens", "script"] rfl rfl source.toUTF8 false).asked
  sees := (UntracedRun.onScript ["tokens", "script"] rfl rfl source.toUTF8 false).sees

/-- **A text that looks like another field** is listed otherwise than this field.  Spaces and comments are not listed:
two texts that differ in them print the same and have the same tokens. -/
theorem listing_lossless_quotes :
    Token.listing ⟨.string, "a\" \"a", none, 3⟩ ≠ Token.listing ⟨.string, "a", some (.str "a"), 3⟩ ∧
    (ListingRun.onScript "1+2").stdout = (ListingRun.onScript " 1 + 2 // sum").stdout ∧
    (scan "1+2").tokens = (scan " 1 + 2 // sum").tokens := by
  have hprinted : (ListingRun.onScript "1+2").stdout = (ListingRun.onScript " 1 + 2 // sum").stdout := by
    rw [ListingRun.stdout_eq, ListingRun.stdout_eq]
    decide +kernel
  refine ⟨fun h => ?_, hprinted, listing_lossless.2.2.2 _ _ _ _ hprinted⟩
  exact absurd (listing_lossless.2.1 _ _ h) (by decide)

end LoxCalc
