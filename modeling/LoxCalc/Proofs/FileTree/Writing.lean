import LoxCalc.FileTree.Basic

/-!
# LoxCalc.Proofs.FileTree.Writing — what is at a place after a path was written

Where a path leads depends on the directories on its way: followed, it leads to its `destination` or nowhere
(`follow_eq_ok`).  Making the directories adds directories where there was nothing and changes nothing else
(`AddsDirectories`); it succeeds iff no file is in the way (`makeDirectories_ok_iff`).  So after a write there are the
same files as before, except for the one at the destination (`file_write`), and the path shows it (`sight_write`).
-/

namespace LoxCalc.FileTree

variable {t t' : FileTree} {l l' wd : Place} {p : Path} {e : Entry} {names : List String} {c content : ByteArray}

/-! ## Places -/

/-- Where a path leads from a working directory if all the directories on its way are there. -/
def destination (wd : Place) (p : Path) : Place := p.steps.foldl step (origin wd p)

theorem step_dot (l : Place) : step l "." = l := if_pos rfl

/-- Names that stay where they are do not matter. -/
theorem foldl_step_filter (l : Place) (names : List String) :
    (names.filter (· ≠ ".")).foldl step l = names.foldl step l := by
  induction names generalizing l with
  | nil => rfl
  | cons name names ih =>
    by_cases h : name = "."
    · rw [List.filter_cons_of_neg (by simp [h]), List.foldl_cons, h, step_dot, ih]
    · rw [List.filter_cons_of_pos (by simp [h]), List.foldl_cons, List.foldl_cons, ih]

/-- The last name leads from where the directories before it lead. -/
theorem step_getLast (wd : Place) (p : Path) :
    step ((leading p).foldl step (origin wd p)) (p.steps.getLast?.getD ".") = destination wd p := by
  rw [leading, foldl_step_filter, destination]
  cases hsteps : p.steps.getLast? with
  | none =>
    rw [List.getLast?_eq_none_iff.1 hsteps]
    exact step_dot _
  | some name =>
    obtain ⟨names, hnames⟩ := List.getLast?_eq_some_iff.1 hsteps
    rw [hnames, List.dropLast_concat, List.foldl_append]
    rfl

/-! ## Entries -/

@[simp] theorem at?_nil (t : FileTree) : t.at? [] = some .directory := rfl

theorem at?_of_ne_nil (t : FileTree) (h : l ≠ []) : t.at? l = t.entries.lookup l := by
  cases l with
  | nil => exact absurd rfl h
  | cons name l => rfl

theorem lookup_filter_of_ne (entries : List (Place × Entry)) (h : l' ≠ l) :
    (entries.filter (·.1 != l)).lookup l' = entries.lookup l' := by
  induction entries with
  | nil => rfl
  | cons entry entries ih =>
    obtain ⟨k, e⟩ := entry
    by_cases hk : k = l
    · have hl' : (l' == k) = false := beq_eq_false_iff_ne.2 (hk ▸ h)
      rw [List.filter_cons_of_neg (by simp [hk]), ih, List.lookup_cons, hl']
    · rw [List.filter_cons_of_pos (by simp [hk]), List.lookup_cons, List.lookup_cons, ih]

/-- An entry is put at its place, and nothing else changes. -/
theorem at?_put (t : FileTree) (e : Entry) (hl : l ≠ []) (l' : Place) :
    (t.put l e).at? l' = if l' = l then some e else t.at? l' := by
  by_cases hl' : l' = []
  · subst hl'
    rw [if_neg hl.symm, at?_nil, at?_nil]
  · rw [at?_of_ne_nil _ hl', at?_of_ne_nil _ hl', put]
    by_cases h : l' = l
    · rw [if_pos h, h, List.lookup_cons_self]
    · rw [if_neg h, List.lookup_cons, beq_eq_false_iff_ne.2 h]
      exact lookup_filter_of_ne _ h

/-! ## Following -/

/-- Names that can be followed lead where they say. -/
theorem follow_eq_ok (h : t.follow l names = .ok l') : l' = names.foldl step l := by
  induction names generalizing l with
  | nil => cases h; rfl
  | cons name names ih =>
    rw [follow] at h
    split at h
    · cases h
    · cases h
    · split at h
      · exact ih h
      · cases h

theorem follow_cons (name : String) (hl : t.at? l = some .directory) (hstep : (t.at? (step l name)).isSome) :
    t.follow l (name :: names) = t.follow (step l name) names := by
  rw [follow, hl]
  exact if_pos hstep

theorem follow_append (xs ys : List String) (h : t.follow l xs = .ok l') :
    t.follow l (xs ++ ys) = t.follow l' ys := by
  induction xs generalizing l with
  | nil => cases h; rfl
  | cons name xs ih =>
    rw [List.cons_append]
    rw [follow] at h ⊢
    split at h
    · cases h
    · cases h
    · split at h
      · rename_i hstep
        exact (if_pos hstep).trans (ih h)
      · cases h

/-- What can be followed still can where no entry is missing and the directories are directories still. -/
theorem follow_mono (hdir : ∀ l, t.at? l = some .directory → t'.at? l = some .directory)
    (hsome : ∀ l, (t.at? l).isSome → (t'.at? l).isSome) (h : t.follow l names = .ok l') :
    t'.follow l names = .ok l' := by
  induction names generalizing l with
  | nil => exact h
  | cons name names ih =>
    rw [follow] at h
    split at h
    · cases h
    · cases h
    · rename_i hl
      split at h
      · rename_i hstep
        rw [follow_cons name (hdir l hl) (hsome _ hstep)]
        exact ih h
      · cases h

/-- **A path that shows a file** shows the one at its destination. -/
theorem at?_of_sight (h : t.sight wd p = .file content) : t.at? (destination wd p) = some (.file content) := by
  unfold sight at h
  split at h
  · cases h
  · split at h
    · cases h
    · rename_i hfollow
      rw [destination, ← follow_eq_ok hfollow]
      split at h
      · cases h
      · cases h
      · cases h
        assumption

theorem sight_of_follow (hp : p.text ≠ "") (hfollow : t.follow (origin wd p) p.steps = .ok l)
    (hfile : t.at? l = some (.file content)) : t.sight wd p = .file content := by
  unfold sight
  rw [if_neg (by rw [String.isEmpty_iff]; exact hp), hfollow]
  simp only [hfile]

/-! ## Making directories -/

/-- The second tree is the first with more directories. -/
def AddsDirectories (t t' : FileTree) : Prop :=
  ∀ l, t'.at? l = t.at? l ∨ t.at? l = none ∧ t'.at? l = some .directory

namespace AddsDirectories

theorem refl (t : FileTree) : t.AddsDirectories t := fun _ => .inl rfl

theorem trans {t'' : FileTree} (h : t.AddsDirectories t') (h' : t'.AddsDirectories t'') : t.AddsDirectories t'' := by
  intro l
  rcases h l with heq | ⟨hnone, hdir⟩
  · rw [← heq]
    exact h' l
  · refine .inr ⟨hnone, ?_⟩
    rcases h' l with heq | ⟨hnone', -⟩
    · rw [heq, hdir]
    · rw [hdir] at hnone'
      cases hnone'

theorem directory (h : t.AddsDirectories t') (hl : t.at? l = some .directory) : t'.at? l = some .directory := by
  rcases h l with heq | ⟨-, hdir⟩
  · rw [heq, hl]
  · exact hdir

theorem isSome (h : t.AddsDirectories t') (hl : (t.at? l).isSome) : (t'.at? l).isSome := by
  rcases h l with heq | ⟨-, hdir⟩
  · rw [heq, hl]
  · rw [hdir]
    rfl

theorem file_iff (h : t.AddsDirectories t') : t'.at? l = some (.file c) ↔ t.at? l = some (.file c) := by
  rcases h l with heq | ⟨hnone, hdir⟩
  · rw [heq]
  · rw [hnone, hdir]
    constructor <;> rintro ⟨⟩

end AddsDirectories

theorem addsDirectories_put (hl : t.at? l = none) : t.AddsDirectories (t.put l .directory) := by
  have hne : l ≠ [] := by
    rintro rfl
    cases hl
  intro l'
  rw [at?_put t _ hne]
  split
  · rename_i heq
    exact .inr ⟨heq ▸ hl, rfl⟩
  · exact .inl rfl

/-- Making directories adds directories and nothing else, also when it fails. -/
theorem addsDirectories_makeDirectories (t : FileTree) (made : Bool) (l : Place) (names : List String) :
    t.AddsDirectories (t.makeDirectories made l names).1 := by
  induction names generalizing t made l with
  | nil => exact .refl t
  | cons name names ih =>
    rw [makeDirectories]
    split
    · exact ih t made _
    · exact .refl t
    · rename_i hnone
      exact (addsDirectories_put hnone).trans (ih _ true _)

/-- No file is in the way of the directories that names lead through from a place. -/
def IsOpen (t : FileTree) (l : Place) (names : List String) : Prop :=
  ∀ front, front ≠ [] → front <+: names → ∀ c, t.at? (front.foldl step l) ≠ some (.file c)

theorem isOpen_nil (t : FileTree) (l : Place) : t.IsOpen l [] := fun _ hne hfront _ =>
  absurd (List.prefix_nil.1 hfront) hne

theorem isOpen_cons_iff (name : String) :
    t.IsOpen l (name :: names) ↔ (∀ c, t.at? (step l name) ≠ some (.file c)) ∧ t.IsOpen (step l name) names := by
  constructor
  · intro h
    refine ⟨h [name] (List.cons_ne_nil _ _) (by simp), fun front _ hfront => ?_⟩
    exact h (name :: front) (List.cons_ne_nil _ _) ((List.prefix_cons_inj name).2 hfront)
  · rintro ⟨hname, h⟩ front hne hfront
    cases front with
    | nil => exact absurd rfl hne
    | cons other front =>
      obtain ⟨rfl, hrest⟩ := List.cons_prefix_cons.1 hfront
      cases front with
      | nil => exact hname
      | cons next front => exact h _ (List.cons_ne_nil _ _) hrest

theorem AddsDirectories.isOpen_iff (h : t.AddsDirectories t') : t'.IsOpen l names ↔ t.IsOpen l names := by
  simp only [IsOpen, ne_eq, h.file_iff]

/-- **Directories can be made** iff no file is in the way, and then the names lead where they say. -/
theorem makeDirectories_ok_iff (t : FileTree) (made : Bool) (l : Place) (names : List String) :
    (t.makeDirectories made l names).2 = .ok l' ↔ t.IsOpen l names ∧ l' = names.foldl step l := by
  induction names generalizing t made l with
  | nil =>
    rw [makeDirectories, List.foldl_nil, Except.ok.injEq, eq_comm]
    exact (and_iff_right (isOpen_nil t l)).symm
  | cons name names ih =>
    rw [makeDirectories, isOpen_cons_iff, List.foldl_cons]
    split
    · rename_i hdir
      rw [ih, and_assoc, hdir]
      exact (and_iff_right (fun c => by rintro ⟨⟩)).symm
    · rename_i c hfile
      constructor
      · rintro ⟨⟩
      · exact fun h => absurd hfile (h.1.1 c)
    · rename_i hnone
      -- the directory that is made here is no file in the way of the others
      rw [ih, (addsDirectories_put hnone).isOpen_iff, and_assoc, hnone]
      exact (and_iff_right (fun c => by rintro ⟨⟩)).symm

/-- Directories that were made can be followed. -/
theorem follow_makeDirectories {made : Bool} (hl : t.at? l = some .directory)
    (h : t.makeDirectories made l (names.filter (· ≠ ".")) = (t', .ok l')) :
    t'.follow l names = .ok l' ∧ t'.at? l' = some .directory := by
  induction names generalizing t made l with
  | nil =>
    cases h
    exact ⟨rfl, hl⟩
  | cons name names ih =>
    -- the way is followed in the tree at the end, where nothing that was passed has gone
    have hadds := addsDirectories_makeDirectories t made l ((name :: names).filter (· ≠ "."))
    rw [h] at hadds
    have hl' := hadds.directory hl
    by_cases hdot : name = "."
    · rw [List.filter_cons_of_neg (by simp [hdot])] at h
      rw [hdot, follow_cons "." hl' (by rw [step_dot, hl']; rfl), step_dot]
      exact ih hl h
    · rw [List.filter_cons_of_pos (by simp [hdot]), makeDirectories] at h
      split at h
      · rename_i hdir
        rw [follow_cons name hl' (hadds.isSome (by rw [hdir]; rfl))]
        exact ih hdir h
      · cases h
      · rename_i hnone
        have hne : step l name ≠ [] := by
          intro heq
          rw [heq] at hnone
          cases hnone
        have hput : (t.put (step l name) .directory).at? (step l name) = some .directory := by
          rw [at?_put t _ hne, if_pos rfl]
        have hmade := addsDirectories_makeDirectories (t.put (step l name) .directory) true (step l name)
          (names.filter (· ≠ "."))
        rw [h] at hmade
        rw [follow_cons name hl' (hmade.isSome (by rw [hput]; rfl))]
        exact ih hput h

theorem directory_origin (p : Path) (hwd : t.at? wd = some .directory) : t.at? (origin wd p) = some .directory := by
  unfold origin
  split
  · rfl
  · exact hwd

/-- The directories on the way of a path can be followed after they were made. -/
theorem follow_leading (hwd : t.at? wd = some .directory) (hopen : t.IsOpen (origin wd p) (leading p))
    (h : t' = (t.makeDirectories false (origin wd p) (leading p)).1) :
    t'.follow (origin wd p) p.steps.dropLast = .ok ((leading p).foldl step (origin wd p)) ∧
      t'.at? ((leading p).foldl step (origin wd p)) = some .directory :=
  follow_makeDirectories (directory_origin p hwd)
    (Prod.ext h.symm ((makeDirectories_ok_iff t false _ _).2 ⟨hopen, rfl⟩))

/-! ## Writing -/

theorem write_of_made (h : t.makeDirectories false (origin wd p) (leading p) = (t', .ok l)) :
    t.write wd p content = t'.writeIn l (p.steps.getLast?.getD ".") content := by
  rw [write, h]

theorem write_of_not_made {error : AccessError}
    (h : t.makeDirectories false (origin wd p) (leading p) = (t', .error error)) :
    t.write wd p content = (t', .error error) := by
  rw [write, h]

theorem writeIn_of_directory {name : String} (h : t.at? (step l name) = some .directory) :
    t.writeIn l name content = (t, .error .isADirectory) := by
  rw [writeIn, h]

theorem writeIn_of_no_directory {name : String} (h : t.at? (step l name) ≠ some .directory) :
    t.writeIn l name content = (t.put (step l name) (.file content), .ok ()) := by
  unfold writeIn
  split
  · contradiction
  · rfl

/-- **What a write does**: it adds directories, and then it puts the file at the destination of the path, unless a
directory is there. -/
theorem write_cases (t : FileTree) (wd : Place) (p : Path) (content : ByteArray) :
    ∃ made, made = (t.makeDirectories false (origin wd p) (leading p)).1 ∧ t.AddsDirectories made ∧
      (t.IsOpen (origin wd p) (leading p) ∧ made.at? (destination wd p) ≠ some .directory ∧
          t.write wd p content = (made.put (destination wd p) (.file content), .ok ()) ∨
        ¬ (t.IsOpen (origin wd p) (leading p) ∧ made.at? (destination wd p) ≠ some .directory) ∧
          ∃ error, t.write wd p content = (made, .error error)) := by
  refine ⟨_, rfl, addsDirectories_makeDirectories _ _ _ _, ?_⟩
  rcases hmade : t.makeDirectories false (origin wd p) (leading p) with ⟨made, error | l⟩
  · refine .inr ⟨fun h => ?_, error, write_of_not_made hmade⟩
    have hok := (makeDirectories_ok_iff t false _ _).2 ⟨h.1, rfl⟩
    rw [hmade] at hok
    cases hok
  · obtain ⟨hopen, rfl⟩ := (makeDirectories_ok_iff t false _ _).1 (congrArg Prod.snd hmade)
    rw [write_of_made hmade, ← step_getLast]
    by_cases hdir : made.at? (step ((leading p).foldl step (origin wd p)) (p.steps.getLast?.getD ".")) =
        some .directory
    · exact .inr ⟨fun h => h.2 hdir, _, writeIn_of_directory hdir⟩
    · exact .inl ⟨hopen, hdir, writeIn_of_no_directory hdir⟩

theorem write_eq_ok (h : t.write wd p content = (t', .ok ())) :
    t.IsOpen (origin wd p) (leading p) ∧ ∃ made, made = (t.makeDirectories false (origin wd p) (leading p)).1 ∧
      t.AddsDirectories made ∧ made.at? (destination wd p) ≠ some .directory ∧
      t' = made.put (destination wd p) (.file content) := by
  obtain ⟨made, hmade, hadds, ⟨hopen, hne, hwrite⟩ | ⟨-, error, hwrite⟩⟩ := write_cases t wd p content
  · rw [h] at hwrite
    exact ⟨hopen, made, hmade, hadds, hne, congrArg Prod.fst hwrite⟩
  · rw [h] at hwrite
    cases hwrite

/-- A write that fails adds directories at most. -/
theorem addsDirectories_of_write_error {error : AccessError} (h : (t.write wd p content).2 = .error error) :
    t.AddsDirectories (t.write wd p content).1 := by
  obtain ⟨made, -, hadds, ⟨-, -, hwrite⟩ | ⟨-, error, hwrite⟩⟩ := write_cases t wd p content
  · rw [hwrite] at h
    cases h
  · rw [hwrite]
    exact hadds

/-- **A path can be written** iff no file is in the way and no directory at the destination. -/
theorem write_ok_iff (t : FileTree) (wd : Place) (p : Path) (content : ByteArray) :
    (t.write wd p content).2 = .ok () ↔ t.IsOpen (origin wd p) (leading p) ∧
      (t.makeDirectories false (origin wd p) (leading p)).1.at? (destination wd p) ≠ some .directory := by
  obtain ⟨made, rfl, -, ⟨hopen, hne, hwrite⟩ | ⟨hno, error, hwrite⟩⟩ := write_cases t wd p content
  · rw [hwrite]
    exact iff_of_true rfl ⟨hopen, hne⟩
  · rw [hwrite]
    exact iff_of_false (by rintro ⟨⟩) hno

theorem destination_ne_nil (h : t.at? (destination wd p) ≠ some .directory) : destination wd p ≠ [] := by
  intro heq
  rw [heq] at h
  exact h rfl

/-- **The files after a write**: those that were there, and the one that was written in the place of whatever stood at
its destination. -/
theorem file_write (h : t.write wd p content = (t', .ok ())) :
    t'.at? l = some (.file c) ↔
      if l = destination wd p then content = c else t.at? l = some (.file c) := by
  obtain ⟨-, made, -, hadds, hne, rfl⟩ := write_eq_ok h
  rw [at?_put made _ (destination_ne_nil hne)]
  split
  · rw [Option.some.injEq, Entry.file.injEq]
  · exact hadds.file_iff

/-- A file does not stand in the way of what led through directories. -/
theorem follow_put_file (hl : t.at? l ≠ some .directory) {k : Place} (h : t.follow k names = .ok l') :
    (t.put l (.file content)).follow k names = .ok l' := by
  have hne : l ≠ [] := by
    rintro rfl
    exact hl rfl
  refine follow_mono (fun k hk => ?_) (fun k hk => ?_) h
  · rw [at?_put t _ hne, if_neg ?_]
    · exact hk
    · rintro rfl
      exact hl hk
  · rw [at?_put t _ hne]
    split
    · rfl
    · exact hk

/-- A path leads to its destination if the directory before it can be reached and the destination exists. -/
theorem follow_destination (hsteps : p.steps ≠ []) (hway : t.follow (origin wd p) p.steps.dropLast = .ok l)
    (hl : t.at? l = some .directory) (hdest : (t.at? (destination wd p)).isSome) :
    t.follow (origin wd p) p.steps = .ok (destination wd p) := by
  obtain ⟨names, name, hnames⟩ : ∃ names name, p.steps = names ++ [name] :=
    ⟨_, _, (List.dropLast_concat_getLast hsteps).symm⟩
  rw [hnames, List.dropLast_concat] at hway
  have hlast : destination wd p = step l name := by
    rw [destination, hnames, List.foldl_append, ← follow_eq_ok hway]
    rfl
  rw [hlast] at hdest ⊢
  rw [hnames, follow_append _ _ hway, follow_cons _ hl hdest]
  rfl

/-- A write leaves every directory where it is. -/
theorem directory_write (wd : Place) (p : Path) (content : ByteArray) (hl : t.at? l = some .directory) :
    (t.write wd p content).1.at? l = some .directory := by
  obtain ⟨made, -, hadds, ⟨-, hne, hwrite⟩ | ⟨-, error, hwrite⟩⟩ := write_cases t wd p content
  · rw [hwrite, at?_put made _ (destination_ne_nil hne), if_neg ?_]
    · exact hadds.directory hl
    · rintro rfl
      exact hne (hadds.directory hl)
  · rw [hwrite]
    exact hadds.directory hl

/-- **A path that was written shows the file**, seen from a working directory that exists. -/
theorem sight_write (hwd : t.at? wd = some .directory) (hp : p.text ≠ "")
    (h : t.write wd p content = (t', .ok ())) : t'.sight wd p = .file content := by
  obtain ⟨hopen, made, hmade, hadds, hne, rfl⟩ := write_eq_ok h
  have hsteps : p.steps ≠ [] := by
    intro hnil
    rw [destination, hnil] at hne
    exact hne (hadds.directory (directory_origin p hwd))
  have hat : (made.put (destination wd p) (.file content)).at? (destination wd p) = some (.file content) := by
    rw [at?_put made _ (destination_ne_nil hne), if_pos rfl]
  obtain ⟨hway, hend⟩ := follow_leading hwd hopen hmade
  refine sight_of_follow hp (follow_destination hsteps (follow_put_file hne hway) ?_ (by rw [hat]; rfl)) hat
  rw [at?_put made _ (destination_ne_nil hne), if_neg ?_]
  · exact hend
  · intro heq
    exact hne (heq ▸ hend)

end LoxCalc.FileTree
