import LoxCalc.Settings
import LoxCalc.Proofs.Json.Written

/-!
# LoxCalc.Proofs.Settings — the settings that an object describes

* `Describes members s`: the members of an object, in any order and among members of other names, give each field its
  value in `s`, or leave it out where `s` has its default.
* An object spells the settings it describes and no others (`ofJson?_object_iff`), so a text of it is refused where it
  describes none.
* Settings are written as a text of an object that describes them, and read back.
-/

namespace LoxCalc.Settings

/-! ## What the members of an object say -/

/-- The members of an object, as they are read. -/
abbrev Members := List (Option String × Json.Read)

/-- No member has the name. -/
def Lacks (members : Members) (name : String) : Prop := ∀ m ∈ members, m.1 ≠ some name

instance (members : Members) (name : String) : Decidable (Lacks members name) :=
  inferInstanceAs (Decidable (∀ m ∈ members, m.1 ≠ some name))

/-- What the members give the field of the name: nothing, or the value of the one member that has it. -/
inductive Gives (members : Members) (name : String) : Option Json.Read → Prop
  | nothing (h : Lacks members name) : Gives members name none
  | value {before after : Members} {value : Json.Read} (hmembers : members = before ++ (some name, value) :: after)
      (hbefore : Lacks before name) (hafter : Lacks after name) : Gives members name (some value)

/-- The fields of settings with their values. -/
def fields (s : Settings) : List (String × Json.Read) :=
  [("env_name", .string (some s.envName)), ("prompt", .string (some s.prompt)), ("debug", .bool s.debug),
    ("print_ast", .bool s.printAst)]

/-- The fields that may be left out, with their defaults. -/
def defaultFields : List (String × Json.Read) :=
  [("prompt", .string (some "> ")), ("debug", .bool false), ("print_ast", .bool false)]

/-- The members describe the settings.  Members of other names say nothing. -/
structure Describes (members : Members) (s : Settings) : Prop where
  names : ∀ m ∈ members, m.1.isSome = true
  fields : ∀ f ∈ s.fields, Gives members f.1 (some f.2) ∨ Gives members f.1 none ∧ f ∈ defaultFields

section Members

variable {members : Members} {name : String} {s : Settings}

theorem filter_eq_nil_iff_lacks : members.filter (·.1 == some name) = [] ↔ Lacks members name := by
  simp only [List.filter_eq_nil_iff, beq_iff_eq]
  exact Iff.rfl

/-- At most one member has the name, with the value given. -/
theorem Gives.filter_eq {given : Option Json.Read} (h : Gives members name given) :
    members.filter (·.1 == some name) = (given.map fun value => (some name, value)).toList := by
  cases h with
  | nothing h => exact filter_eq_nil_iff_lacks.2 h
  | @value before after value hmembers hbefore hafter =>
    rw [hmembers, List.filter_append, filter_eq_nil_iff_lacks.2 hbefore, List.filter_cons,
      if_pos (beq_self_eq_true (some name)), filter_eq_nil_iff_lacks.2 hafter]
    rfl

/-- **A member is looked up** by its name. -/
theorem member?_eq_some_iff {given : Option Json.Read} :
    member? name members = some given ↔ Gives members name given := by
  constructor
  · intro h
    unfold member? at h
    split at h
    · rename_i hnil
      cases h
      exact .nothing (filter_eq_nil_iff_lacks.1 hnil)
    · rename_i m hone
      cases h
      obtain ⟨before, after, hmembers, hbefore, hm, hafter⟩ := List.filter_eq_cons_iff.1 hone
      rw [beq_iff_eq] at hm
      have hbefore' : Lacks before name := fun m' hm' => by simpa only [beq_iff_eq] using hbefore m' hm'
      exact .value (hm ▸ hmembers) hbefore' (filter_eq_nil_iff_lacks.1 hafter)
    · cases h
  · intro h
    rw [member?, h.filter_eq]
    cases given <;> rfl

theorem Gives.countP_le {given : Option Json.Read} (h : Gives members name given) :
    members.countP (·.1 == some name) ≤ 1 := by
  rw [List.countP_eq_length_filter, h.filter_eq]
  cases given with
  | none => exact Nat.zero_le 1
  | some value => exact Nat.le_refl 1

theorem Gives.eq_of_mem {given : Option Json.Read} {value : Json.Read} (h : Gives members name given)
    (hmem : (some name, value) ∈ members) : given = some value := by
  cases h with
  | nothing h => exact absurd rfl (h _ hmem)
  | value hmembers hbefore hafter =>
    rw [hmembers, List.mem_append, List.mem_cons] at hmem
    obtain hmem | heq | hmem := hmem
    · exact absurd rfl (hbefore _ hmem)
    · rw [(Prod.mk.inj heq).2]
    · exact absurd rfl (hafter _ hmem)

namespace Describes

theorem countP_le (h : Describes members s) {f : String × Json.Read} (hf : f ∈ s.fields) :
    members.countP (·.1 == some f.1) ≤ 1 := by
  obtain hgives | ⟨hgives, -⟩ := h.fields f hf
  · exact hgives.countP_le
  · exact hgives.countP_le

theorem eq_of_mem (h : Describes members s) {value value' : Json.Read} (hf : (name, value) ∈ s.fields)
    (hmem : (some name, value') ∈ members) : value' = value := by
  obtain hgives | ⟨hgives, -⟩ := h.fields _ hf
  · exact (Option.some.inj (hgives.eq_of_mem hmem)).symm
  · cases hgives.eq_of_mem hmem

theorem not_lacks_envName (h : Describes members s) : ¬ Lacks members "env_name" := by
  intro hlacks
  obtain hgives | ⟨-, hdefault⟩ := h.fields ("env_name", .string (some s.envName)) List.mem_cons_self
  · cases hgives with
    | value hmembers _ _ => exact hlacks _ (by rw [hmembers]; exact List.mem_append_right _ List.mem_cons_self) rfl
  · simp [defaultFields] at hdefault

end Describes

end Members

/-! ## Settings from an object -/

theorem textOf?_eq_some_iff (value : Json.Read) (t : String) : textOf? value = some t ↔ value = .string (some t) := by
  unfold textOf?
  split
  · rw [Json.string.injEq]
  · rename_i hno
    exact ⟨nofun, fun h => absurd h (hno _)⟩

theorem boolOf?_eq_some_iff (value : Json.Read) (b : Bool) : boolOf? value = some b ↔ value = .bool b := by
  unfold boolOf?
  split
  · rw [Json.bool.injEq, Option.some.injEq]
  · rename_i hno
    exact ⟨nofun, fun h => absurd h (hno _)⟩

/-- What is given for a field is its value, or nothing where it has its default. -/
def Fits (given : Option Json.Read) (f : String × Json.Read) : Prop :=
  given = some f.2 ∨ given = none ∧ f ∈ defaultFields

/-- A field is what its value decodes to, or its default if it is left out. -/
theorem field?_eq_some_iff {α : Type} {decode : Json.Read → Option α} {encode : α → Json.Read}
    (hdecode : ∀ value a, decode value = some a ↔ value = encode a) {name : String} {default : Option α}
    (hdefault : ∀ a, default = some a ↔ (name, encode a) ∈ defaultFields) {given : Option Json.Read} {a : α} :
    field? decode default given = some a ↔ Fits given (name, encode a) := by
  cases given with
  | none => simp [field?, Fits, hdefault]
  | some value => simp [field?, Fits, hdecode]

theorem ofFields?_eq_some_iff {envName prompt debug printAst : Option Json.Read} {s : Settings} :
    ofFields? envName prompt debug printAst = some s ↔
      Fits envName ("env_name", .string (some s.envName)) ∧ Fits prompt ("prompt", .string (some s.prompt)) ∧
        Fits debug ("debug", .bool s.debug) ∧ Fits printAst ("print_ast", .bool s.printAst) := by
  have henvName (t : String) :
      field? textOf? none envName = some t ↔ Fits envName ("env_name", .string (some t)) :=
    field?_eq_some_iff textOf?_eq_some_iff (by simp [defaultFields])
  have hprompt (t : String) :
      field? textOf? (some "> ") prompt = some t ↔ Fits prompt ("prompt", .string (some t)) :=
    field?_eq_some_iff textOf?_eq_some_iff (by simp [defaultFields, eq_comm])
  have hdebug (b : Bool) : field? boolOf? (some false) debug = some b ↔ Fits debug ("debug", .bool b) :=
    field?_eq_some_iff boolOf?_eq_some_iff (by simp [defaultFields])
  have hprintAst (b : Bool) :
      field? boolOf? (some false) printAst = some b ↔ Fits printAst ("print_ast", .bool b) :=
    field?_eq_some_iff boolOf?_eq_some_iff (by simp [defaultFields])
  simp only [ofFields?, Option.bind_eq_bind, Option.bind_eq_some_iff, henvName, hprompt, hdebug, hprintAst,
    Option.some.injEq]
  constructor
  · rintro ⟨_, he, _, hp, _, hd, _, ha, rfl⟩
    exact ⟨he, hp, hd, ha⟩
  · rintro ⟨he, hp, hd, ha⟩
    exact ⟨_, he, _, hp, _, hd, _, ha, rfl⟩

section Objects

variable {members : Members} {s : Settings}

theorem exists_gives_fits_iff {f : String × Json.Read} : (∃ given, Gives members f.1 given ∧ Fits given f) ↔
    Gives members f.1 (some f.2) ∨ Gives members f.1 none ∧ f ∈ defaultFields := by
  constructor
  · rintro ⟨given, hgives, rfl | ⟨rfl, hdefault⟩⟩
    · exact .inl hgives
    · exact .inr ⟨hgives, hdefault⟩
  · rintro (hgives | ⟨hgives, hdefault⟩)
    · exact ⟨_, hgives, .inl rfl⟩
    · exact ⟨_, hgives, .inr ⟨rfl, hdefault⟩⟩

/-- **An object** spells the settings that it describes, and no others. -/
theorem ofJson?_object_iff : ofJson? (.object members) = some s ↔ Describes members s := by
  have hdescribes : Describes members s ↔ (∀ m ∈ members, m.1.isSome = true) ∧
      ∀ f ∈ s.fields, ∃ given, Gives members f.1 given ∧ Fits given f := by
    simp only [exists_gives_fits_iff]
    exact ⟨fun h => ⟨h.names, h.fields⟩, fun h => ⟨h.1, h.2⟩⟩
  simp only [hdescribes, ofJson?, Option.ite_none_right_eq_some, List.all_eq_true, Option.bind_eq_bind,
    Option.bind_eq_some_iff, member?_eq_some_iff, ofFields?_eq_some_iff, fields, List.forall_mem_cons]
  refine and_congr_right fun _ => ?_
  constructor
  · rintro ⟨_, he, _, hp, _, hd, _, ha, hfits⟩
    exact ⟨⟨_, he, hfits.1⟩, ⟨_, hp, hfits.2.1⟩, ⟨_, hd, hfits.2.2.1⟩, ⟨_, ha, hfits.2.2.2⟩, List.forall_mem_nil _⟩
  · rintro ⟨⟨_, he, hfe⟩, ⟨_, hp, hfp⟩, ⟨_, hd, hfd⟩, ⟨_, ha, hfa⟩, -⟩
    exact ⟨_, he, _, hp, _, hd, _, ha, hfe, hfp, hfd, hfa⟩

variable {text : String}

theorem ofText?_eq_some_iff (htext : Json.IsText text.toList (.object members)) :
    ofText? text = some s ↔ Describes members s := by
  rw [ofText?, Json.read?_of_isText htext]
  exact ofJson?_object_iff

theorem ofText?_eq_none (htext : Json.IsText text.toList (.object members)) (h : ∀ s, ¬ Describes members s) :
    ofText? text = none :=
  Option.eq_none_iff_forall_ne_some.2 fun s hs => h s ((ofText?_eq_some_iff htext).1 hs)

theorem exists_text_mem_fields {name : String} (h : name ∈ ["env_name", "prompt"]) (s : Settings) :
    ∃ t, (name, .string (some t)) ∈ s.fields := by
  simp only [List.mem_cons, List.not_mem_nil, or_false] at h
  obtain rfl | rfl := h
  · exact ⟨s.envName, by simp [fields]⟩
  · exact ⟨s.prompt, by simp [fields]⟩

theorem exists_bool_mem_fields {name : String} (h : name ∈ ["debug", "print_ast"]) (s : Settings) :
    ∃ b, (name, .bool b) ∈ s.fields := by
  simp only [List.mem_cons, List.not_mem_nil, or_false] at h
  obtain rfl | rfl := h
  · exact ⟨s.debug, by simp [fields]⟩
  · exact ⟨s.printAst, by simp [fields]⟩

/-- **Settings from an object.**  A text of an object spells the settings that its members describe, in whatever order
and among whatever other members they stand.  Without a name of an environment it spells none, nor with a field given
twice, nor with a value of another type for a field, nor with more than blanks behind the object. -/
theorem settings_of_object (htext : Json.IsText text.toList (.object members)) :
    (∀ s, ofText? text = some s ↔ Describes members s) ∧
    (Lacks members "env_name" → ofText? text = none) ∧
    (∀ name ∈ ["env_name", "prompt", "debug", "print_ast"], 2 ≤ members.countP (·.1 == some name) →
      ofText? text = none) ∧
    (∀ name ∈ ["env_name", "prompt"], ∀ value, (some name, value) ∈ members → (∀ t, value ≠ .string (some t)) →
      ofText? text = none) ∧
    (∀ name ∈ ["debug", "print_ast"], ∀ value, (some name, value) ∈ members → (∀ b, value ≠ .bool b) →
      ofText? text = none) ∧
    ∀ rest : String, (∃ c ∈ rest.toList, Json.isBlank c = false) → ofText? (text ++ rest) = none := by
  refine ⟨fun s => ofText?_eq_some_iff htext, fun hlacks => ?_, fun name hname htwice => ?_,
    fun name hname value hmem hvalue => ?_, fun name hname value hmem hvalue => ?_, fun rest hrest => ?_⟩
  · exact ofText?_eq_none htext fun s h => h.not_lacks_envName hlacks
  · refine ofText?_eq_none htext fun s h => ?_
    have hfield : name ∈ s.fields.map Prod.fst := hname
    obtain ⟨f, hf, rfl⟩ := List.mem_map.1 hfield
    exact absurd (h.countP_le hf) (by omega)
  · refine ofText?_eq_none htext fun s h => ?_
    obtain ⟨t, ht⟩ := exists_text_mem_fields hname s
    exact hvalue t (h.eq_of_mem ht hmem)
  · refine ofText?_eq_none htext fun s h => ?_
    obtain ⟨b, hb⟩ := exists_bool_mem_fields hname s
    exact hvalue b (h.eq_of_mem hb hmem)
  · rw [ofText?, Json.read?_append_eq_none htext hrest]
    rfl

end Objects

/-- An object with an escaped name, a member of another name, and the rest left out. -/
def sparseText : String := "\x7b\"\\u0064ebug\":true, \"x\":[\x7b\x7d],\"env_name\": \"ci\"\n\x7d"

def sparseMembers : Members :=
  [(some "debug", .bool true), (some "x", .array [.object []]), (some "env_name", .string (some "ci"))]

theorem isQuoted_escaped : Json.IsQuoted "\"\\u0064ebug\"".toList (some "debug") := by
  have hdigit (n : Nat) (hn : n < 16) : Json.IsHexDigit (Nat.digitChar n) n := ⟨hn, .inl rfl⟩
  have hunit : Json.Unit16.IsSpelling (.unit 0x64) ['\\', 'u', '0', '0', '6', '4'] :=
    .digits (hdigit 0 (by decide)) (hdigit 0 (by decide)) (hdigit 6 (by decide)) (hdigit 4 (by decide))
  have hletters : Json.AreSpelled [.char 'e', .char 'b', .char 'u', .char 'g'] ['e', 'b', 'u', 'g'] :=
    .cons (.raw (by decide) (by decide) (by decide)) (.cons (.raw (by decide) (by decide) (by decide))
      (.cons (.raw (by decide) (by decide) (by decide)) (.cons (.raw (by decide) (by decide) (by decide)) .nil)))
  exact Json.isQuoted_of_areSpelled (.cons hunit hletters)

theorem isMember_escaped : Json.IsMember "\"\\u0064ebug\":true".toList (some "debug", .bool true) :=
  .mk Json.areBlanks_nil isQuoted_escaped Json.areBlanks_nil (.mk Json.areBlanks_nil .true Json.areBlanks_nil)

theorem isMember_envName :
    Json.IsMember "\"env_name\": \"ci\"\n".toList (some "env_name", .string (some "ci")) :=
  .mk Json.areBlanks_nil (Json.isQuoted_quote "env_name") Json.areBlanks_nil
    (.mk Json.areBlanks_space (.string (Json.isQuoted_quote "ci")) (List.forall_mem_singleton.2 rfl))

theorem isText_sparseText : Json.IsText sparseText.toList (.object sparseMembers) := by
  have hnone := Json.areBlanks_nil
  have hitems : Json.AreItems "\x7b\x7d".toList (.object []) [] := .one (.mk hnone (.emptyObject hnone) hnone)
  have hx : Json.IsMember " \"x\":[\x7b\x7d]".toList (some "x", .array [.object []]) :=
    .mk Json.areBlanks_space (Json.isQuoted_quote "x") hnone (.mk hnone (.array hitems) hnone)
  exact .mk hnone (.object (.more isMember_escaped (.more hx (.one isMember_envName)))) hnone

/-- An object that gives a field twice, once by an escaped name. -/
def repeatedText : String := "\x7b\"debug\":true,\"\\u0064ebug\":true,\"env_name\": \"ci\"\n\x7d"

def repeatedMembers : Members :=
  [(some "debug", .bool true), (some "debug", .bool true), (some "env_name", .string (some "ci"))]

theorem isText_repeatedText : Json.IsText repeatedText.toList (.object repeatedMembers) := by
  have hnone := Json.areBlanks_nil
  have hdebug : Json.IsMember "\"debug\":true".toList (some "debug", .bool true) :=
    .mk hnone (Json.isQuoted_quote "debug") hnone (.mk hnone .true hnone)
  exact .mk hnone (.object (.more hdebug (.more isMember_escaped (.one isMember_envName)))) hnone

/-- **An escaped name** is the name of its field, and what is left out is at its default. -/
theorem settings_of_sparseText :
    (Json.IsText sparseText.toList (.object sparseMembers) ∧
      ofText? sparseText = some { envName := "ci", debug := true } ∧ ofText? (sparseText ++ " x") = none) ∧
    Json.IsText repeatedText.toList (.object repeatedMembers) ∧ ofText? repeatedText = none := by
  obtain ⟨hdescribes, -, -, -, -, hrest⟩ := settings_of_object isText_sparseText
  obtain ⟨-, -, hrepeated, -, -, -⟩ := settings_of_object isText_repeatedText
  refine ⟨⟨isText_sparseText, (hdescribes _).2 ⟨by decide, ?_⟩, hrest " x" ⟨'x', by decide, rfl⟩⟩,
    isText_repeatedText, hrepeated "debug" (by decide) (by decide)⟩
  have henvName : Gives sparseMembers "env_name" (some (.string (some "ci"))) :=
    .value (show sparseMembers = sparseMembers.take 2 ++ _ :: [] from rfl) (by decide) (by decide)
  have hdebug : Gives sparseMembers "debug" (some (.bool true)) :=
    .value (show sparseMembers = [] ++ _ :: sparseMembers.drop 1 from rfl) (by decide) (by decide)
  intro f hf
  simp only [fields, List.mem_cons, List.not_mem_nil, or_false] at hf
  obtain rfl | rfl | rfl | rfl := hf
  · exact .inl henvName
  · exact .inr ⟨.nothing (by decide), by simp [defaultFields]⟩
  · exact .inl hdebug
  · exact .inr ⟨.nothing (by decide), by simp [defaultFields]⟩

/-! ## Settings as they are written -/

theorem hasNumerals_toJson (s : Settings) : s.toJson.HasNumerals := ⟨trivial, trivial, trivial, trivial, trivial⟩

theorem ofJson?_toJson (s : Settings) : ofJson? s.toJson.asRead = some s := rfl

/-- **Settings survive their JSON form.**  They are written as a text of the object of their fields, which spells
them. -/
theorem settings_survive (s : Settings) :
    Json.IsText s.toText.toList (.object (s.fields.map fun f => (some f.1, f.2))) ∧ ofText? s.toText = some s := by
  have htext : Json.IsText s.toText.toList s.toJson.asRead := Json.isText_pretty _ s.hasNumerals_toJson
  refine ⟨htext, ?_⟩
  rw [ofText?, Json.read?_of_isText htext]
  exact s.ofJson?_toJson

end LoxCalc.Settings
