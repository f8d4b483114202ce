import LoxCalc.CommandLine.Invocation
import LoxCalc.Proofs.FileTree.Rooted

/-!
# LoxCalc.Proofs.CommandLine.Files — what runs do to the files

Only one kind of run changes a tree: one that is to write the settings file and does not see it (`SetsUp`).  It
ends well iff no file is in the way and no directory at the destination, and then the settings file is all that is
new (`file_invoke`).

Whether the file is there is asked before the directories on its way are made.  A name `..` behind a directory that is
missing leads nowhere before, and afterwards to a place where a file may stand that is then overwritten (`Overwrites`).
This is the only way to lose a file (`invocations_keep_files`), and without such names there is none
(`not_overwrites_of_no_parent`).
-/

namespace LoxCalc

/-- The place of the settings file if all the directories on its way are there. -/
def Invocation.settingsPlace (i : Invocation) : Place :=
  FileTree.destination i.workingDirectory i.environment.settingsPath

/-- What is written into a new settings file. -/
def Invocation.newSettings (i : Invocation) : ByteArray := i.environment.defaults.toText.toUTF8

/-! ## The path of the settings file -/

namespace Path

/-- Joining puts something in front of a relative path that ends in a slash, or nothing. -/
theorem exists_text_join (p : Path) {q : Path} (hq : q.isAbsolute = false) :
    ∃ front, (p.join q).text.toList = front ++ q.text.toList ∧ (front = [] ∨ ∃ cs, front = cs ++ ['/']) := by
  unfold join
  rw [hq, if_neg Bool.false_ne_true]
  split
  · rename_i hend
    refine ⟨p.text.toList, String.toList_append, ?_⟩
    rcases Bool.or_eq_true_iff.1 hend with hempty | hslash
    · exact .inl (by rw [String.isEmpty_iff.1 hempty]; rfl)
    · exact .inr (List.getLast?_eq_some_iff.1 (beq_iff_eq.1 hslash))
  · exact ⟨p.text.toList ++ ['/'], by simp [String.toList_append], .inr ⟨_, rfl⟩⟩

variable {name : String}

/-- **The last step of a path joined with a name** is the name. -/
theorem steps_join (p : Path) (hslash : '/' ∉ name.toList) (hne : name ≠ "") :
    ∃ names, (p.join ⟨name⟩).steps = names ++ [name] := by
  have hrel : (⟨name⟩ : Path).isAbsolute = false := by
    rw [isAbsolute, beq_eq_false_iff_ne]
    exact fun h => hslash (List.mem_of_mem_head? h)
  obtain ⟨front, htext, hfront⟩ := p.exists_text_join hrel
  have hpieces : ∃ pieces, (front ++ name.toList).splitOn '/' = pieces ++ [name.toList] := by
    rcases hfront with rfl | ⟨cs, rfl⟩
    · exact ⟨[], List.splitOn_eq_singleton hslash⟩
    · rw [List.append_assoc, List.singleton_append, List.splitOn_append_cons_self, List.splitOn_eq_singleton hslash]
      exact ⟨_, rfl⟩
  have hlast : (front ++ name.toList).getLast? ≠ some '/' := by
    rw [List.getLast?_append, Option.or_of_isSome (by simpa using hne)]
    exact fun h => hslash (List.mem_of_getLast? h)
  obtain ⟨pieces, hpieces⟩ := hpieces
  refine ⟨(pieces.map String.ofList).filter (· ≠ ""), ?_⟩
  rw [steps, htext, hpieces, if_neg (by rw [beq_iff_eq]; exact hlast)]
  simp [hne]

theorem text_join (p : Path) (hslash : '/' ∉ name.toList) (hne : name ≠ "") : (p.join ⟨name⟩).text ≠ "" := by
  intro h
  obtain ⟨names, hnames⟩ := p.steps_join hslash hne
  have hsteps : (p.join ⟨name⟩).steps = [] := by rw [steps, h]; rfl
  rw [hsteps] at hnames
  exact absurd hnames.symm (List.concat_ne_nil _ _)

end Path

theorem Environment.steps_settingsPath (env : Environment) :
    ∃ names, env.settingsPath.steps = names ++ ["config.json"] := Path.steps_join _ (by decide) (by decide)

theorem Environment.text_settingsPath (env : Environment) : env.settingsPath.text ≠ "" :=
  Path.text_join _ (by decide) (by decide)

namespace FileTree

variable {t t' : FileTree} {i : Invocation} {l : Place} {c : ByteArray}

/-! ## Runs of commands -/

theorem invoke_of_run {command : Command} (hasked : Request.ofArguments i.arguments = .run command) :
    t.invoke i = t.runCommand i command := by
  unfold invoke
  simp only [hasked]

/-- A command that only ends traces its environment and ends. -/
theorem runCommand_of_finish {command : Command} {o : Outcome}
    (hreply : command.reply i.environment (t.settings i) (t.seenBy i command) = .finish o) :
    t.runCommand i command = (t, (t.settings i).trace.andThen o) := by
  unfold runCommand
  simp only [hreply]

/-! ## Runs that write the settings file -/

/-- The run is to write the settings file and does not see it. -/
structure SetsUp (t : FileTree) (i : Invocation) : Prop where
  asked : Request.ofArguments i.arguments = .run .initSettings
  unseen : t.sight i.workingDirectory i.environment.settingsPath = .nothing

/-- The attempt of a run to write the settings file. -/
def writeSettings (t : FileTree) (i : Invocation) : FileTree × Except AccessError Unit :=
  t.write i.workingDirectory i.environment.settingsPath i.newSettings

theorem invoke_of_setsUp (h : t.SetsUp i) : (t.invoke i).1 = (t.writeSettings i).1 ∧ (t.invoke i).2 =
    (t.settings i).trace.andThen (.ofCreation i.environment.settingsPath (t.writeSettings i).2) := by
  rw [invoke_of_run h.asked]
  simp only [runCommand, seenBy, Command.looksAt, h.unseen, Command.reply]
  exact ⟨rfl, rfl⟩

/-- **Any other run** leaves the tree as it is. -/
theorem invoke_of_not_setsUp (h : ¬ t.SetsUp i) : (t.invoke i).1 = t := by
  unfold invoke
  split
  · rfl
  · rfl
  · rfl
  · rename_i command hcommand
    unfold runCommand
    cases command with
    | initSettings =>
      cases hseen : t.sight i.workingDirectory i.environment.settingsPath with
      | nothing => exact absurd ⟨hcommand, hseen⟩ h
      | directory => simp only [seenBy, Command.looksAt, hseen, Command.reply]
      | file content => simp only [seenBy, Command.looksAt, hseen, Command.reply]
    | _ => rfl

theorem writeSettings_ok_iff : (t.writeSettings i).2 = .ok () ↔
    t.IsOpen (origin i.workingDirectory i.environment.settingsPath) (leading i.environment.settingsPath) ∧
      (t.makeDirectories false (origin i.workingDirectory i.environment.settingsPath)
        (leading i.environment.settingsPath)).1.at? i.settingsPlace ≠ some .directory := by
  rw [writeSettings, write_ok_iff, Invocation.settingsPlace]

/-- The run writes the settings file. -/
structure Creates (t : FileTree) (i : Invocation) : Prop extends t.SetsUp i where
  written : (t.writeSettings i).2 = .ok ()

theorem Creates.writeSettings_eq (h : t.Creates i) : t.writeSettings i = ((t.invoke i).1, .ok ()) := by
  rw [(invoke_of_setsUp h.toSetsUp).1, ← h.written]

/-- A run that writes the settings file says so and ends well. -/
theorem Creates.outcome (h : t.Creates i) :
    (t.invoke i).2.stdout = "Initialized new config file at: " ++ i.environment.settingsPath.text ++ "\n" ∧
      (t.invoke i).2.exitStatus = 0 := by
  rw [(invoke_of_setsUp h.toSetsUp).2, h.written]
  exact ⟨Settings.stdout_trace_andThen _ _, rfl⟩

/-- **The files after the settings file was written**: it and all others as they were. -/
theorem Creates.file_invoke (h : t.Creates i) : (t.invoke i).1.at? l = some (.file c) ↔
    if l = i.settingsPlace then i.newSettings = c else t.at? l = some (.file c) :=
  file_write h.writeSettings_eq

/-- **Any other run** leaves the files as they are. -/
theorem file_invoke_of_not_creates (h : ¬ t.Creates i) :
    (t.invoke i).1.at? l = some (.file c) ↔ t.at? l = some (.file c) := by
  by_cases hup : t.SetsUp i
  · cases hwritten : (t.writeSettings i).2 with
    | ok => exact absurd ⟨hup, hwritten⟩ h
    | error error =>
      rw [(invoke_of_setsUp hup).1]
      exact (addsDirectories_of_write_error hwritten).file_iff
  · rw [invoke_of_not_setsUp hup]

/-! ## Overwriting -/

/-- The run is to write the settings file and does not see it; no file is in the way of the directories it makes, but
one stands where they lead. -/
structure Overwrites (t : FileTree) (i : Invocation) (c : ByteArray) : Prop extends t.SetsUp i where
  isOpen : t.IsOpen (origin i.workingDirectory i.environment.settingsPath) (leading i.environment.settingsPath)
  file : t.at? i.settingsPlace = some (.file c)

theorem overwrites_iff : t.Overwrites i c ↔ t.Creates i ∧ t.at? i.settingsPlace = some (.file c) := by
  constructor
  · intro h
    refine ⟨⟨h.toSetsUp, writeSettings_ok_iff.2 ⟨h.isOpen, ?_⟩⟩, h.file⟩
    rw [(addsDirectories_makeDirectories t _ _ _).file_iff.2 h.file]
    rintro ⟨⟩
  · rintro ⟨hcreates, hfile⟩
    exact ⟨hcreates.toSetsUp, (writeSettings_ok_iff.1 hcreates.written).1, hfile⟩

/-- **A run keeps every file** iff it overwrites none with another content. -/
theorem keeps_files_iff :
    (∀ l c, t.at? l = some (.file c) → (t.invoke i).1.at? l = some (.file c)) ↔
      ∀ c, t.Overwrites i c → c = i.newSettings := by
  by_cases hcreates : t.Creates i
  · constructor
    · intro h c hover
      have hkept := h _ _ hover.file
      rw [hcreates.file_invoke, if_pos rfl] at hkept
      exact hkept.symm
    · intro h l c hfile
      rw [hcreates.file_invoke]
      split
      · rename_i hl
        rw [hl] at hfile
        exact (h c (overwrites_iff.2 ⟨hcreates, hfile⟩)).symm
      · exact hfile
  · constructor
    · exact fun _ c hover => absurd (overwrites_iff.1 hover).1 hcreates
    · exact fun _ l c hfile => (file_invoke_of_not_creates hcreates).2 hfile

/-! ## Sequences of runs -/

/-- The tree after some runs, one after the other. -/
def after (t : FileTree) (is : List Invocation) : FileTree := is.foldl (fun t i => (t.invoke i).1) t

theorem after_concat (t : FileTree) (is : List Invocation) (i : Invocation) :
    t.after (is ++ [i]) = ((t.after is).invoke i).1 := by
  rw [after, List.foldl_append]
  rfl

/-- A run that made a file: it was to write the settings file, the file is the one that the path of the settings
denotes and holds the defaults, and the run said so and ended well. -/
structure Makes (t : FileTree) (i : Invocation) (l : Place) (c : ByteArray) : Prop where
  asked : Request.ofArguments i.arguments = .run .initSettings
  place : l = i.settingsPlace
  content : c = i.newSettings
  denoted : t.at? i.workingDirectory = some .directory →
    (t.invoke i).1.sight i.workingDirectory i.environment.settingsPath = .file c
  stdout : (t.invoke i).2.stdout =
    "Initialized new config file at: " ++ i.environment.settingsPath.text ++ "\n"
  exitStatus : (t.invoke i).2.exitStatus = 0

theorem Creates.sight (h : t.Creates i) (hwd : t.at? i.workingDirectory = some .directory) :
    (t.invoke i).1.sight i.workingDirectory i.environment.settingsPath = .file i.newSettings :=
  sight_write hwd i.environment.text_settingsPath h.writeSettings_eq

/-- **A file that was not there** was made. -/
theorem makes_of_file (h : (t.invoke i).1.at? l = some (.file c)) (hnew : t.at? l ≠ some (.file c)) :
    t.Makes i l c := by
  by_cases hcreates : t.Creates i
  · rw [hcreates.file_invoke] at h
    split at h
    · rename_i hl
      exact ⟨hcreates.asked, hl, h.symm, fun hwd => by rw [← h, hcreates.sight hwd], hcreates.outcome.1,
        hcreates.outcome.2⟩
    · exact absurd h hnew
  · exact absurd ((file_invoke_of_not_creates hcreates).1 h) hnew

/-- Files are kept from the beginning to the end if every run keeps them. -/
theorem file_after {is : List Invocation}
    (h : ∀ before i rest c, is = before ++ i :: rest → (t.after before).Overwrites i c → c = i.newSettings)
    (hfile : t.at? l = some (.file c)) : (t.after is).at? l = some (.file c) := by
  induction is generalizing t with
  | nil => exact hfile
  | cons i is ih =>
    refine ih (t := (t.invoke i).1) (fun before j rest c heq => ?_) ?_
    · exact h (i :: before) j rest c (congrArg (List.cons i) heq)
    · exact keeps_files_iff.2 (fun c => h [] i is c rfl) l c hfile

/-! ## Paths that do not climb -/

/-- **Without `..` in the path of the settings** nothing is overwritten: what stands at the destination is seen. -/
theorem not_overwrites_of_no_parent (hr : t.Rooted) (hup : ".." ∉ i.environment.settingsPath.steps) :
    ¬ t.Overwrites i c := by
  intro h
  obtain ⟨names, hnames⟩ := i.environment.steps_settingsPath
  have hfile := h.file
  rw [Invocation.settingsPlace] at hfile
  have hseen := sight_of_follow i.environment.text_settingsPath
    (hr.follow hnames (by decide) hup (by rw [hfile]; rfl)) hfile
  rw [h.unseen] at hseen
  cases hseen

theorem directory_invoke (i : Invocation) (hl : t.at? l = some .directory) :
    (t.invoke i).1.at? l = some .directory := by
  by_cases hup : t.SetsUp i
  · rw [(invoke_of_setsUp hup).1, writeSettings]
    exact directory_write _ _ _ hl
  · rw [invoke_of_not_setsUp hup]
    exact hl

/-- Runs from directories that exist leave every entry in a directory. -/
theorem rooted_after {is : List Invocation} (hr : t.Rooted)
    (hwd : ∀ i ∈ is, t.at? i.workingDirectory = some .directory) : (t.after is).Rooted := by
  induction is generalizing t with
  | nil => exact hr
  | cons i is ih =>
    refine ih (t := (t.invoke i).1) ?_ (fun j hj => directory_invoke i (hwd j (List.mem_cons_of_mem _ hj)))
    by_cases hup : t.SetsUp i
    · rw [(invoke_of_setsUp hup).1, writeSettings]
      exact hr.write (hwd i List.mem_cons_self) _ _
    · rw [invoke_of_not_setsUp hup]
      exact hr

/-! ## What is kept -/

/-- **What runs do to the files.**  Each of them keeps every file, its content included, iff it does not overwrite one
with another content; a file that is new was made by a run that was to write the settings file, at the place that their
path denotes, and that said so.  So a file is there in the end if no run overwrites it, as is the case where no path of
the settings climbs. -/
theorem invocations_keep_files (t : FileTree) (is : List Invocation) :
    (∀ before i rest, is = before ++ i :: rest →
      ((∀ l c, (t.after before).at? l = some (.file c) → (t.after (before ++ [i])).at? l = some (.file c)) ↔
        ∀ c, (t.after before).Overwrites i c → c = i.newSettings) ∧
      ∀ l c, (t.after (before ++ [i])).at? l = some (.file c) → (t.after before).at? l ≠ some (.file c) →
        (t.after before).Makes i l c) ∧
    ((∀ before i rest c, is = before ++ i :: rest → (t.after before).Overwrites i c → c = i.newSettings) →
      ∀ l c, t.at? l = some (.file c) → (t.after is).at? l = some (.file c)) ∧
    (t.Rooted →
      (∀ i ∈ is, t.at? i.workingDirectory = some .directory ∧ ".." ∉ i.environment.settingsPath.steps) →
      ∀ l c, t.at? l = some (.file c) → (t.after is).at? l = some (.file c)) := by
  refine ⟨fun before i rest _ => ?_, fun h l c => file_after h, fun hr h l c => file_after ?_⟩
  · rw [after_concat]
    exact ⟨keeps_files_iff, fun l c => makes_of_file⟩
  · intro before i rest c heq hover
    rw [heq] at h
    have hrooted : (t.after before).Rooted := rooted_after hr fun j hj => (h j (List.mem_append_left _ hj)).1
    exact absurd hover (not_overwrites_of_no_parent hrooted (h i (by simp)).2)

/-- The settings of the environment `ci` below the home directory. -/
def ciTree : FileTree :=
  ⟨[(["config.json", "ci", ".lox", "home", "work"], .file "\x7b\"env_name\":\"mine\"\x7d".toUTF8),
    (["ci", ".lox", "home", "work"], .directory), ([".lox", "home", "work"], .directory),
    (["home", "work"], .directory), (["work"], .directory)]⟩

/-- A run that is to write settings, in an environment whose name climbs out of a directory that is missing. -/
def climbingRun : Invocation where
  arguments := ["config", "init"]
  environment := { home := some "home".toUTF8, loxEnv := some "new/../ci".toUTF8 }
  workingDirectory := ["work"]

/-- **A file that is overwritten**: the settings are not seen through the missing directory, and lost after it was
made. -/
theorem climbingRun_loses_file :
    ciTree.at? ["config.json", "ci", ".lox", "home", "work"] =
        some (.file "\x7b\"env_name\":\"mine\"\x7d".toUTF8) ∧
      (ciTree.invoke climbingRun).1.at? ["config.json", "ci", ".lox", "home", "work"] ≠
        some (.file "\x7b\"env_name\":\"mine\"\x7d".toUTF8) := by
  have hpath : climbingRun.environment.settingsPath = ⟨"home/.lox/new/../ci/config.json"⟩ := by decide +kernel
  have hsteps : (⟨"home/.lox/new/../ci/config.json"⟩ : Path).steps =
      ["home", ".lox", "new", "..", "ci", "config.json"] := by decide +kernel
  have horigin : origin climbingRun.workingDirectory ⟨"home/.lox/new/../ci/config.json"⟩ = ["work"] := by
    decide +kernel
  have hplace : climbingRun.settingsPlace = ["config.json", "ci", ".lox", "home", "work"] := by
    rw [Invocation.settingsPlace, hpath, destination, hsteps, horigin]
    rfl
  have hover : ciTree.Overwrites climbingRun "\x7b\"env_name\":\"mine\"\x7d".toUTF8 := by
    refine ⟨⟨by decide +kernel, ?_⟩, ?_, ?_⟩
    · rw [hpath]
      unfold FileTree.sight
      rw [hsteps]
      rfl
    · rw [hpath, leading, hsteps, horigin]
      exact ((makeDirectories_ok_iff ciTree false ["work"] _).1 rfl).1
    · rw [hplace]
      rfl
  refine ⟨rfl, fun hkept => ?_⟩
  have hnew := (overwrites_iff.1 hover).1.file_invoke.1 hkept
  rw [hplace, if_pos rfl, Invocation.newSettings] at hnew
  have htext := congrArg String.fromUTF8? hnew
  rw [fromUTF8?_toUTF8, fromUTF8?_toUTF8, Option.some.injEq] at htext
  exact absurd htext (by decide +kernel)

end FileTree

end LoxCalc
