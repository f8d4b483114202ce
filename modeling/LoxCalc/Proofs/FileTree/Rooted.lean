import LoxCalc.Proofs.FileTree.Writing

/-!
# LoxCalc.Proofs.FileTree.Rooted — trees in which every entry stands in a directory

Such a tree stays one under writing (`Rooted.write`).  In it, a path without `..` can be followed to whatever stands at
its destination (`Rooted.follow`): nothing is at a place that its names do not lead to.
-/

namespace LoxCalc.FileTree

/-- Every entry stands in a directory. -/
def Rooted (t : FileTree) : Prop := ∀ name l, (t.at? (name :: l)).isSome → t.at? l = some .directory

namespace Rooted

variable {t t' : FileTree} {l wd : Place} {p : Path} {e : Entry} {name : String} {names : List String}
  {content : ByteArray}

theorem parent (h : t.Rooted) (hl : (t.at? l).isSome) : t.at? l.tail = some .directory := by
  cases l with
  | nil => rfl
  | cons name l => exact h name l hl

/-- A name that leads from a directory to no directory is a name in it. -/
theorem step_eq_cons (h : t.Rooted) (hl : t.at? l = some .directory) (hstep : t.at? (step l name) ≠ some .directory) :
    step l name = name :: l := by
  unfold step at hstep ⊢
  split
  · rename_i hdot
    rw [if_pos hdot] at hstep
    exact absurd hl hstep
  · rename_i hdot
    rw [if_neg hdot] at hstep
    split
    · rename_i hup
      rw [if_pos hup] at hstep
      exact absurd (h.parent (by rw [hl]; rfl)) hstep
    · rfl

/-! ## Writing -/

theorem put (h : t.Rooted) (hl : t.at? l = some .directory)
    (hne : t.at? (name :: l) ≠ some .directory) : (t.put (name :: l) e).Rooted := by
  intro other k hk
  -- a directory is not where the entry was put
  have hkept {k : Place} (hk : t.at? k = some .directory) : (t.put (name :: l) e).at? k = some .directory := by
    rw [at?_put t e (List.cons_ne_nil _ _), if_neg ?_]
    · exact hk
    · rintro rfl
      exact hne hk
  rw [at?_put t e (List.cons_ne_nil _ _)] at hk
  split at hk
  · rename_i heq
    obtain ⟨-, rfl⟩ := List.cons.inj heq
    exact hkept hl
  · exact hkept (h other k hk)

theorem makeDirectories (h : t.Rooted) (made : Bool) (hl : t.at? l = some .directory) (names : List String) :
    (t.makeDirectories made l names).1.Rooted := by
  induction names generalizing t made l with
  | nil => exact h
  | cons name names ih =>
    rw [FileTree.makeDirectories]
    split
    · rename_i hdir
      exact ih h made hdir
    · exact h
    · rename_i hnone
      have hne : t.at? (step l name) ≠ some .directory := by
        rw [hnone]
        rintro ⟨⟩
      have heq := h.step_eq_cons hl hne
      rw [heq] at hne ⊢
      exact ih (h.put hl hne) true (by rw [at?_put t _ (List.cons_ne_nil _ _), if_pos rfl])

theorem write (h : t.Rooted) (hwd : t.at? wd = some .directory) (p : Path) (content : ByteArray) :
    (t.write wd p content).1.Rooted := by
  obtain ⟨made, hmade, -, ⟨hopen, hne, hwrite⟩ | ⟨-, error, hwrite⟩⟩ := write_cases t wd p content
  all_goals
    have hrooted : made.Rooted := hmade ▸ h.makeDirectories false (directory_origin p hwd) _
    rw [hwrite]
  · have hend := (follow_leading hwd hopen hmade).2
    rw [← step_getLast] at hne ⊢
    have heq := hrooted.step_eq_cons hend hne
    rw [heq] at hne ⊢
    exact hrooted.put hend hne
  · exact hrooted

/-! ## Following -/

/-- What leads to a directory without `..` begins in a directory. -/
theorem directory_of_foldl (h : t.Rooted) (hup : ".." ∉ names)
    (hend : t.at? (names.foldl step l) = some .directory) : t.at? l = some .directory := by
  induction names generalizing l with
  | nil => exact hend
  | cons name names ih =>
    obtain ⟨hname, hnames⟩ := not_or.1 (mt List.mem_cons.2 hup)
    have hstep := ih hnames hend
    unfold step at hstep
    rw [if_neg (Ne.symm hname)] at hstep
    split at hstep
    · exact hstep
    · exact h name l (by rw [hstep]; rfl)

/-- **Names without `..`** that lead to a directory can be followed. -/
theorem follow_directory (h : t.Rooted) (hup : ".." ∉ names)
    (hend : t.at? (names.foldl step l) = some .directory) : t.follow l names = .ok (names.foldl step l) := by
  induction names generalizing l with
  | nil => rfl
  | cons name names ih =>
    have hnames := (not_or.1 (mt List.mem_cons.2 hup)).2
    have hstep : t.at? (step l name) = some .directory := h.directory_of_foldl hnames hend
    rw [follow_cons name (h.directory_of_foldl hup hend) (by rw [hstep]; rfl)]
    exact ih hnames hend

/-- **A path without `..`** that does not end in `.` can be followed to whatever stands at its destination. -/
theorem follow (h : t.Rooted) (hsteps : p.steps = names ++ [name]) (hdot : name ≠ ".") (hup : ".." ∉ p.steps)
    (hdest : (t.at? (destination wd p)).isSome) :
    t.follow (origin wd p) p.steps = .ok (destination wd p) := by
  rw [hsteps, List.mem_append, List.mem_singleton, not_or] at hup
  have hlast : destination wd p = name :: names.foldl step (origin wd p) := by
    rw [destination, hsteps, List.foldl_append, List.foldl_cons, List.foldl_nil, step, if_neg hdot,
      if_neg (Ne.symm hup.2)]
  have hdir : t.at? (names.foldl step (origin wd p)) = some .directory := by
    rw [hlast] at hdest
    exact h _ _ hdest
  refine follow_destination (by simp [hsteps]) ?_ hdir hdest
  rw [hsteps, List.dropLast_concat]
  exact h.follow_directory hup.1 hdir

end Rooted

end LoxCalc.FileTree
