import LoxCalc.Proofs.CommandLine.Files
import LoxCalc.Proofs.Settings

/-!
# LoxCalc.Proofs.CommandLine.SavedSettings — new settings are what later runs load

A new settings file holds the defaults of its environment, whatever the overrides were when it was written.  Its text
reads back (`ofJson?_toJson`, `read?_pretty`), so a later run that looks for the file in the same place has these
settings with its own overrides (`settings_of_untouched`).

The variables that say where the file is may give a relative path.  Then a run in another directory looks for another
file, and does not load these settings (`strayRun_loads_others`).
-/

namespace LoxCalc

/-! ## Settings from a file -/

namespace Environment

theorem override_eq (env : Environment) (s : Settings) : env.override s =
    { s with
      prompt := (variableText? env.loxPrompt).getD s.prompt
      debug := ((variableText? env.loxDebug).map isOn).getD s.debug } := by
  unfold override
  cases variableText? env.loxDebug <;> cases variableText? env.loxPrompt <;>
    simp only [Option.map_none, Option.map_some, Option.getD_none, Option.getD_some]

/-- **Saved settings** are in force again, but for the overrides. -/
theorem settings_toText (env : Environment) (s : Settings) : env.settings (some s.toText.toUTF8) = env.override s := by
  have htext : Settings.ofText? s.toText = some s := by
    rw [Settings.ofText?, Settings.toText, Json.read?_pretty _ s.hasNumerals_toJson]
    exact s.ofJson?_toJson
  rw [settings, Option.bind_some, fromUTF8?_toUTF8, Option.bind_some, htext, Option.getD_some]

/-- A file that holds the defaults, or none at all, gives the defaults. -/
theorem settings_of_defaults (env : Environment) {file : Option ByteArray}
    (h : ∀ content, file = some content → content = env.defaults.toText.toUTF8) :
    env.settings file = env.override env.defaults := by
  cases file with
  | none => rfl
  | some content => rw [h content rfl, settings_toText]

theorem defaults_congr {env env' : Environment} (h : env'.loxEnv = env.loxEnv) : env'.defaults = env.defaults := by
  rw [defaults, defaults, name, name, h]

theorem settingsPath_congr {env env' : Environment} (hhome : env'.home = env.home) (henv : env'.loxEnv = env.loxEnv) :
    env'.settingsPath = env.settingsPath := by
  rw [settingsPath, settingsPath, name, name, hhome, henv]

end Environment

/-! ## A later run -/

/-- A run that looks for its settings where another does: the variables that say where they are agree, and a path that
depends on the working directory is seen from the same one. -/
structure Invocation.SharesSettings (i j : Invocation) : Prop where
  home : j.environment.home = i.environment.home
  loxEnv : j.environment.loxEnv = i.environment.loxEnv
  origin : i.environment.settingsPath.isAbsolute = true ∨ j.workingDirectory = i.workingDirectory

namespace FileTree

variable {t u : FileTree} {i j : Invocation}

theorem settingsPlace_of_sharesSettings (h : i.SharesSettings j) : j.settingsPlace = i.settingsPlace := by
  have horigin : origin j.workingDirectory i.environment.settingsPath =
      origin i.workingDirectory i.environment.settingsPath := by
    rcases h.origin with habs | hwd
    · rw [origin, origin, if_pos habs, if_pos habs]
    · rw [hwd]
  rw [Invocation.settingsPlace, Invocation.settingsPlace, Environment.settingsPath_congr h.home h.loxEnv, destination,
    destination, horigin]

/-- **The settings of a later run** are the new ones with its own overrides. -/
theorem settings_of_untouched (h : i.SharesSettings j)
    (huntouched : u.at? i.settingsPlace = some (.file i.newSettings)) :
    u.settings j = j.environment.override i.environment.defaults := by
  rw [settings, j.environment.settings_of_defaults ?_, Environment.defaults_congr h.loxEnv]
  intro content hcontent
  cases hseen : u.sight j.workingDirectory j.environment.settingsPath with
  | nothing => rw [hseen] at hcontent; cases hcontent
  | directory => rw [hseen] at hcontent; cases hcontent
  | file seen =>
    have hat := at?_of_sight hseen
    rw [hseen] at hcontent
    obtain rfl := Option.some.inj hcontent
    rw [← Invocation.settingsPlace, settingsPlace_of_sharesSettings h, huntouched] at hat
    cases hat
    rw [Invocation.newSettings, Environment.defaults_congr h.loxEnv]

/-- A run that says it has written the settings has done so. -/
theorem creates_of_said (hasked : Request.ofArguments i.arguments = .run .initSettings)
    (hsaid : "Initialized new config file at: ".toList <+: (t.invoke i).2.stdout.toList) : t.Creates i := by
  by_cases hup : t.SetsUp i
  · refine ⟨hup, ?_⟩
    cases hwritten : (t.writeSettings i).2 with
    | ok => rfl
    | error error =>
      rw [(invoke_of_setsUp hup).2, hwritten, Settings.stdout_trace_andThen] at hsaid
      exact absurd (List.prefix_nil.1 hsaid) (by decide)
  · -- the file is seen, and what is said begins with another letter
    obtain ⟨first, hfirst⟩ := hsaid
    have hexists : (t.invoke i).2.stdout =
        "Config file already exists at: " ++ i.environment.settingsPath.text ++ "\n" := by
      rw [invoke_of_run hasked]
      simp only [runCommand, seenBy, Command.looksAt]
      cases hseen : t.sight i.workingDirectory i.environment.settingsPath with
      | nothing => exact absurd ⟨hasked, hseen⟩ hup
      | directory => exact Settings.stdout_trace_andThen _ _
      | file content => exact Settings.stdout_trace_andThen _ _
    rw [hexists, String.append_assoc, String.toList_append] at hfirst
    have hhead : some 'I' = some 'C' := congrArg List.head? hfirst
    exact absurd hhead (by decide)

theorem said_of_creates (h : t.Creates i) :
    "Initialized new config file at: ".toList <+: (t.invoke i).2.stdout.toList := by
  rw [h.outcome.1, String.append_assoc, String.toList_append]
  exact List.prefix_append _ _

/-- Settings are created where their path leads nowhere yet, no file is in the way to their directory, and no directory
stands in their place. -/
theorem creates_of_missing {p : Path} {names : List String} {l l' : Place}
    (hasked : Request.ofArguments i.arguments = .run .initSettings) (hpath : i.environment.settingsPath = p)
    (hnames : p.steps = names) (horigin : origin i.workingDirectory p = l)
    (hfollow : t.follow l names = .error .missing)
    (hmade : (t.makeDirectories false l (names.dropLast.filter (· ≠ "."))).2 = .ok l')
    (hfree : (t.makeDirectories false l (names.dropLast.filter (· ≠ "."))).1.at? (names.foldl step l) ≠
      some .directory) : t.Creates i := by
  refine ⟨⟨hasked, ?_⟩, writeSettings_ok_iff.2 ⟨?_, ?_⟩⟩
  · rw [hpath, FileTree.sight, hnames, horigin, hfollow]
    exact ite_self _
  · rw [hpath, leading, hnames, horigin]
    exact ((makeDirectories_ok_iff t false l _).1 hmade).1
  · rw [Invocation.settingsPlace, hpath, leading, destination, hnames, horigin]
    exact hfree

/-- Showing settings that do not ask for tracing writes their text and nothing else. -/
theorem invoke_showSettings {s : Settings} (hasked : Request.ofArguments j.arguments = .run .showSettings)
    (hs : u.settings j = s) (hdebug : s.debug = false) : u.invoke j = (u, { stdout := s.toText ++ "\n" }) := by
  rw [invoke_of_run hasked, runCommand_of_finish rfl, hs, s.trace_of_not_debug hdebug, Outcome.empty_andThen]
  rfl

/-- **New settings are what later runs load.**  A run that says it has written the settings file has written the
defaults of its environment, whatever its overrides were, and sees them there.  A later run that shares the place of the
file and finds it untouched has these settings with its own overrides; without overrides it shows the text of the file
and one line feed. -/
theorem saved_settings_load (t : FileTree) (i : Invocation)
    (hasked : Request.ofArguments i.arguments = .run .initSettings)
    (hsaid : "Initialized new config file at: ".toList <+: (t.invoke i).2.stdout.toList) :
    ∃ saved : Settings,
      saved = { envName := i.environment.name, prompt := "> ", debug := false, printAst := false } ∧
      (t.invoke i).1.at? i.settingsPlace = some (.file saved.toText.toUTF8) ∧
      (t.at? i.workingDirectory = some .directory →
        (t.invoke i).1.sight i.workingDirectory i.environment.settingsPath = .file saved.toText.toUTF8) ∧
      ∀ (u : FileTree) (j : Invocation), i.SharesSettings j →
        u.at? i.settingsPlace = some (.file saved.toText.toUTF8) →
        u.settings j = { saved with
          debug := ((variableText? j.environment.loxDebug).map isOn).getD saved.debug
          prompt := (variableText? j.environment.loxPrompt).getD saved.prompt } ∧
        (Request.ofArguments j.arguments = .run .showSettings → variableText? j.environment.loxDebug = none →
          variableText? j.environment.loxPrompt = none →
          u.invoke j = (u, { stdout := saved.toText ++ "\n" })) := by
  have hcreates := creates_of_said hasked hsaid
  have hnew : i.newSettings = i.environment.defaults.toText.toUTF8 := rfl
  refine ⟨i.environment.defaults, rfl, ?_, fun hwd => ?_, fun u j hshares huntouched => ?_⟩
  · rw [hcreates.file_invoke, if_pos rfl, hnew]
  · rw [hcreates.sight hwd, hnew]
  · rw [← hnew] at huntouched
    have hsettings := settings_of_untouched hshares huntouched
    rw [Environment.override_eq] at hsettings
    refine ⟨hsettings, fun hshow hdebug hprompt => ?_⟩
    rw [hdebug, hprompt] at hsettings
    exact invoke_showSettings hshow hsettings rfl

/-- A run that is to write settings for an environment with an unusual name, with overrides. -/
def quotedRun : Invocation where
  arguments := ["config", "init"]
  environment :=
    { home := some "/h".toUTF8, loxEnv := some "say \"x\\y\"\n\x01 é".toUTF8, loxDebug := some "on".toUTF8,
      loxPrompt := some "? ".toUTF8 }

theorem creates_quotedRun : (FileTree.mk []).Creates quotedRun := by
  have hpath : quotedRun.environment.settingsPath = ⟨"/h/.lox/say \"x\\y\"\n\x01 é/config.json"⟩ := by decide +kernel
  have hsteps : (⟨"/h/.lox/say \"x\\y\"\n\x01 é/config.json"⟩ : Path).steps =
      ["h", ".lox", "say \"x\\y\"\n\x01 é", "config.json"] := by decide +kernel
  have horigin : origin quotedRun.workingDirectory ⟨"/h/.lox/say \"x\\y\"\n\x01 é/config.json"⟩ = [] := by
    decide +kernel
  exact creates_of_missing (by decide +kernel) hpath hsteps horigin rfl rfl (by rintro ⟨⟩)

/-- A later run from elsewhere that is to show these settings, without overrides. -/
def showingRun : Invocation where
  arguments := ["config", "show"]
  environment := { home := some "/h".toUTF8, loxEnv := some "say \"x\\y\"\n\x01 é".toUTF8 }
  workingDirectory := ["elsewhere"]

/-- **Settings with an unusual name** are shown as they were written. -/
theorem quotedRun_settings_load :
    (Request.ofArguments quotedRun.arguments = .run .initSettings ∧
      "Initialized new config file at: ".toList <+: ((FileTree.mk []).invoke quotedRun).2.stdout.toList) ∧
    ((FileTree.mk []).invoke quotedRun).1.invoke showingRun =
      (((FileTree.mk []).invoke quotedRun).1,
        { stdout := "\x7b\n  \"env_name\": \"say \\\"x\\\\y\\\"\\n\\u0001 é\",\n  \"prompt\": \"> \",\n" ++
            "  \"debug\": false,\n  \"print_ast\": false\n\x7d\n" }) := by
  have hasked : Request.ofArguments quotedRun.arguments = .run .initSettings := by decide +kernel
  have hsaid := said_of_creates creates_quotedRun
  have hshares : quotedRun.SharesSettings showingRun := ⟨rfl, rfl, .inl (by decide +kernel)⟩
  have hname : quotedRun.environment.name = "say \"x\\y\"\n\x01 é" := by decide +kernel
  obtain ⟨saved, hsaved, hfile, -, hlater⟩ := saved_settings_load _ quotedRun hasked hsaid
  refine ⟨⟨hasked, hsaid⟩, ?_⟩
  rw [(hlater _ _ hshares hfile).2 (by decide +kernel) rfl rfl, hsaved, hname]
  congr 2

/-- Settings in a directory of their own. -/
def othersTree : FileTree :=
  ⟨[(["config.json", "default", ".lox", "elsewhere"], .file "\x7b\"env_name\":\"others\"\x7d".toUTF8),
    (["default", ".lox", "elsewhere"], .directory), ([".lox", "elsewhere"], .directory), (["elsewhere"], .directory)]⟩

/-- A run that is to write settings, without a home directory. -/
def homelessRun : Invocation where
  arguments := ["config", "init"]

/-- A later run with the same variables in another directory. -/
def strayRun : Invocation where
  arguments := ["config", "show"]
  workingDirectory := ["elsewhere"]

/-- A later run in the same directory, with a prompt that is no text. -/
def wordlessRun : Invocation where
  arguments := ["config", "show"]
  environment := { loxPrompt := some ⟨#[0xFF]⟩ }

section Homeless

theorem settingsPath_homelessRun : homelessRun.environment.settingsPath = ⟨"./.lox/default/config.json"⟩ := by
  decide +kernel

theorem steps_homelessRun :
    (⟨"./.lox/default/config.json"⟩ : Path).steps = [".", ".lox", "default", "config.json"] := by
  decide +kernel

theorem origin_homelessRun (wd : Place) : origin wd ⟨"./.lox/default/config.json"⟩ = wd :=
  if_neg (by decide)

theorem creates_homelessRun : othersTree.Creates homelessRun :=
  creates_of_missing (by decide +kernel) settingsPath_homelessRun steps_homelessRun (origin_homelessRun _) rfl rfl
    (by rintro ⟨⟩)

/-- The new settings do not hide those in the other directory. -/
theorem sight_strayRun : (othersTree.invoke homelessRun).1.sight strayRun.workingDirectory
    strayRun.environment.settingsPath = .file "\x7b\"env_name\":\"others\"\x7d".toUTF8 := by
  have hpath : strayRun.environment.settingsPath = ⟨"./.lox/default/config.json"⟩ := settingsPath_homelessRun
  rw [(invoke_of_setsUp creates_homelessRun.toSetsUp).1, writeSettings, hpath, settingsPath_homelessRun, write, leading,
    steps_homelessRun, origin_homelessRun]
  generalize homelessRun.newSettings = content
  unfold FileTree.sight
  rw [steps_homelessRun, origin_homelessRun]
  rfl

end Homeless

/-- **Settings that a later run does not load.**  The new settings are in their file, untouched.  A run with the same
variables in another directory loads the settings that it finds there; a run in the same directory that sets the prompt
to what is no text keeps the prompt of the file. -/
theorem strayRun_loads_others :
    (Request.ofArguments homelessRun.arguments = .run .initSettings ∧
      "Initialized new config file at: ".toList <+: (othersTree.invoke homelessRun).2.stdout.toList) ∧
    (othersTree.invoke homelessRun).1.at? homelessRun.settingsPlace = some (.file homelessRun.newSettings) ∧
    (strayRun.environment = homelessRun.environment ∧
      (othersTree.invoke homelessRun).1.settings strayRun ≠
        strayRun.environment.override homelessRun.environment.defaults) ∧
    (wordlessRun.environment.home = homelessRun.environment.home ∧
      wordlessRun.environment.loxEnv = homelessRun.environment.loxEnv ∧
      ∀ prompt, wordlessRun.environment.loxPrompt = some prompt →
        ((othersTree.invoke homelessRun).1.settings wordlessRun).prompt.toUTF8 ≠ prompt) := by
  have hcreates := creates_homelessRun
  have hfile : (othersTree.invoke homelessRun).1.at? homelessRun.settingsPlace =
      some (.file homelessRun.newSettings) := by
    rw [hcreates.file_invoke, if_pos rfl]
  refine ⟨⟨by decide +kernel, said_of_creates hcreates⟩, hfile, ⟨rfl, fun hloaded => ?_⟩, rfl, rfl, ?_⟩
  · rw [settings, sight_strayRun] at hloaded
    exact absurd (congrArg Settings.envName hloaded) (by decide +kernel)
  · rintro _ ⟨⟩
    have hshares : homelessRun.SharesSettings wordlessRun := ⟨rfl, rfl, .inr rfl⟩
    rw [settings_of_untouched hshares hfile]
    intro hprompt
    exact absurd (congrArg ByteArray.size hprompt) (by decide +kernel)

end FileTree

end LoxCalc
