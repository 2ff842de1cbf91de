import ImportAtlas.Proofs.Place

/-!
Trees without links.

A path that leads anywhere in such a tree leads to the place that its steps spell, and all places
on the way are directories. So it leads to the same place in every tree that has these directories
too, whatever else was put there.
-/

namespace ImportAtlas

namespace Location

/-- The place behind a step, if no link is on the way. -/
def after (l : Location) : Step → Location
  | .down name => l.child name
  | .up => l.parent
  | .stay _ | .broken => l

lemma child_ne_root {l : Location} {n : FileName} : l.child n ≠ .root := by simp [child, root]

lemma child_ne {l : Location} {m n : FileName} (h : m ≠ n) : l.child m ≠ l.child n := by
  simp [child, h]

end Location

def Path.start (here : Location) (p : Path) : Location := if p.isAbsolute then .root else here

lemma Path.place_eq (here : Location) (p : Path) :
    p.place here = p.steps.foldl Location.after (p.start here) := rfl

namespace FileTree

def LinkFree (t : FileTree) : Prop := ∀ l target, t.entry? l ≠ some (.link target)

variable {t t' : FileTree} {here l : Location} {p : Path} {step : Step} {steps rest : List Step}
variable {isNew isNew' : Bool} {k : ℕ} {n : FileName}

lemma linkFree_of_entries (h : ∀ e ∈ t.table.entries, ∀ target, e.2 ≠ .link target) :
    t.LinkFree := by
  intro l target hentry
  have hroot : l ≠ .root := by
    rintro rfl
    cases hentry
  rw [entry?_eq_find? hroot] at hentry
  exact h _ (OrderedMap.find?_eq_some_iff.mp hentry) target rfl

/-! ### Directories -/

lemma entry?_root : t.entry? .root = some .directory := rfl

lemma entry?_parent {e : Entry} (h : t.entry? l = some e) :
    t.entry? l.parent = some .directory := by
  by_cases hl : l = .root
  · subst hl
    exact entry?_root
  · exact (t.isRooted l (mem_keys_of_entry h hl)).2

/-! ### Steps -/

/-- Where a step leads to: an entry, or a new name at the end of the path. -/
lemma follow_cons_ok (ht : t.LinkFree) (h : t.follow isNew k here (step :: steps) = .ok l) :
    t.entry? here = some .directory ∧
      ((∃ e, t.entry? (here.after step) = some e) ∧
          t.follow isNew k (here.after step) steps = .ok l ∨
        isNew = true ∧ steps = [] ∧ ∃ n, step = .down n ∧ l = here.child n) := by
  rw [follow.eq_def] at h
  dsimp only at h
  split at h
  · cases h
  · rename_i hdir
    rw [not_not] at hdir
    refine ⟨hdir, ?_⟩
    cases step with
    | broken => cases h
    | stay isSlash => exact .inl ⟨⟨_, hdir⟩, h⟩
    | up => exact .inl ⟨⟨_, entry?_parent hdir⟩, h⟩
    | down n =>
      dsimp only at h
      split at h
      · cases h
      · split at h
        · split at h
          · rename_i hlast
            rw [Bool.and_eq_true, List.isEmpty_iff] at hlast
            -- nothing stands there, and the last name may be new
            exact .inr ⟨hlast.1, hlast.2, n, rfl, (Except.ok.inj h).symm⟩
          · cases h
        · rename_i target hentry
          exact absurd hentry (ht _ target)
        · rename_i e _ hentry
          exact .inl ⟨⟨e, hentry⟩, h⟩

/-- Without links a path leads to the place that its steps spell. -/
lemma follow_eq_foldl (ht : t.LinkFree) (h : t.follow isNew k here steps = .ok l) :
    l = steps.foldl Location.after here := by
  induction steps generalizing here with
  | nil => simpa [follow] using h.symm
  | cons step steps ih =>
    rcases (follow_cons_ok ht h).2 with ⟨-, hrest⟩ | ⟨-, rfl, n, rfl, rfl⟩
    · exact ih hrest
    · rfl

/-- A path leads to an entry, or to a new name in a directory if it may. -/
lemma follow_entry (ht : t.LinkFree) (hhere : steps = [] → ∃ e, t.entry? here = some e)
    (h : t.follow isNew k here steps = .ok l) :
    (∃ e, t.entry? l = some e) ∨
      isNew = true ∧ l ≠ .root ∧ t.entry? l.parent = some .directory := by
  induction steps generalizing here with
  | nil =>
    obtain rfl : here = l := by simpa [follow] using h
    exact .inl (hhere rfl)
  | cons step steps ih =>
    obtain ⟨hdir, ⟨hafter, hrest⟩ | ⟨hnew, -, n, -, rfl⟩⟩ := follow_cons_ok ht h
    · exact ih (fun _ => hafter) hrest
    · exact .inr ⟨hnew, Location.child_ne_root, by rwa [Location.parent_child]⟩

lemma follow_child (ht : t.LinkFree)
    (h : t.follow isNew k here (.down n :: steps) = .ok l) :
    t.entry? (here.child n) = some .directory ∨ steps = [] ∧ l = here.child n := by
  rcases (follow_cons_ok ht h).2 with ⟨-, hrest⟩ | ⟨-, rfl, -⟩
  · cases steps with
    | nil => exact .inr ⟨rfl, follow_eq_foldl ht hrest⟩
    | cons step steps => exact .inl (follow_cons_ok ht hrest).1
  · exact .inr ⟨rfl, follow_eq_foldl ht h⟩

/-- A path through directories that another tree has too leads to the same place there. -/
lemma follow_keeps (ht : t.LinkFree)
    (hdir : ∀ x, t.entry? x = some .directory → t'.entry? x = some .directory)
    (hl : ∀ target, t'.entry? l ≠ some (.link target)) (hnew : isNew' = true → isNew = true)
    (hentry : isNew' = true ∨ ∃ e, t'.entry? l = some e)
    (h : t.follow isNew k here steps = .ok l) : t'.follow isNew' k here steps = .ok l := by
  induction steps generalizing here with
  | nil => simpa [follow] using h
  | cons step steps ih =>
    have hstep := follow_cons_ok ht h
    have hhere := hdir _ hstep.1
    cases step with
    | broken =>
      rw [follow, if_neg (not_not.mpr hstep.1)] at h
      cases h
    | stay isSlash =>
      rw [follow, if_neg (not_not.mpr hstep.1)] at h
      rw [follow, if_neg (not_not.mpr hhere)]
      exact ih h
    | up =>
      rw [follow, if_neg (not_not.mpr hstep.1)] at h
      rw [follow, if_neg (not_not.mpr hhere)]
      exact ih h
    | down n =>
      have hchild := follow_child ht h
      rw [follow, if_neg (not_not.mpr hstep.1)] at h
      rw [follow, if_neg (not_not.mpr hhere)]
      dsimp only at h ⊢
      split at h
      · cases h
      rename_i hblocked
      -- if the name may be new here, it may be new there too
      have hfree : ¬(isNew' && !steps.isEmpty && steps.all (· = .stay true)) = true := by
        rw [Bool.and_eq_true, Bool.and_eq_true] at hblocked ⊢
        exact fun hnone => hblocked ⟨⟨hnew hnone.1.1, hnone.1.2⟩, hnone.2⟩
      rw [if_neg hfree]
      rcases hchild with hchild | ⟨rfl, rfl⟩
      · rw [hchild] at h
        rw [hdir _ hchild]
        exact ih h
      · -- the last name is new, or something stands there
        cases hchild : t'.entry? (here.child n) with
        | none =>
          have hisNew : isNew' = true := hentry.resolve_right (by simp [hchild])
          simp [hisNew]
        | some e =>
          cases e with
          | link target => exact absurd hchild (hl target)
          | directory => simp [follow]
          | file content => simp [follow]

/-- A path that ends with another step than a name leads to a directory. -/
lemma follow_last_directory (ht : t.LinkFree) (hstep : ∀ n, step ≠ .down n)
    (h : t.follow isNew k here (steps ++ [step]) = .ok l) : t.entry? l = some .directory := by
  induction steps generalizing here with
  | nil =>
    obtain ⟨hdir, ⟨-, hafter⟩ | ⟨-, -, n, hn, -⟩⟩ := follow_cons_ok ht h
    · obtain rfl := follow_eq_foldl ht hafter
      cases step with
      | down n => exact absurd rfl (hstep n)
      | up => exact entry?_parent hdir
      | stay => exact hdir
      | broken => exact hdir
    · exact absurd hn (hstep n)
  | cons s steps ih =>
    rcases (follow_cons_ok ht h).2 with ⟨-, hrest⟩ | ⟨-, hlast, -⟩
    · exact ih hrest
    · simp at hlast

/-! ### Paths -/

lemma resolve_eq_ok_iff :
    t.resolve here p isNew = .ok l ↔
      p.steps.contains .broken = false ∧ (p.steps = [] → p.isAbsolute = true) ∧
        t.follow isNew 40 (p.start here) p.steps = .ok l := by
  unfold resolve Path.start
  cases hbroken : p.steps.contains .broken with
  | true => simp
  | false =>
    cases habsolute : p.isAbsolute with
    | true => simp
    | false => cases hsteps : p.steps <;> simp

lemma resolve_eq_place (ht : t.LinkFree) (h : t.resolve here p isNew = .ok l) :
    l = p.place here := by
  rw [Path.place_eq]
  exact follow_eq_foldl ht (resolve_eq_ok_iff.mp h).2.2

lemma resolve_entry (ht : t.LinkFree) (h : t.resolve here p isNew = .ok l) :
    (∃ e, t.entry? l = some e) ∨
      isNew = true ∧ l ≠ .root ∧ t.entry? l.parent = some .directory := by
  obtain ⟨-, hempty, hfollow⟩ := resolve_eq_ok_iff.mp h
  refine follow_entry ht (fun hsteps => ⟨.directory, ?_⟩) hfollow
  rw [Path.start, if_pos (hempty hsteps)]
  exact entry?_root

lemma resolve_keeps (ht : t.LinkFree)
    (hdir : ∀ x, t.entry? x = some .directory → t'.entry? x = some .directory)
    (hl : ∀ target, t'.entry? l ≠ some (.link target)) (hnew : isNew' = true → isNew = true)
    (hentry : isNew' = true ∨ ∃ e, t'.entry? l = some e)
    (h : t.resolve here p isNew = .ok l) : t'.resolve here p isNew' = .ok l := by
  obtain ⟨hbroken, hempty, hfollow⟩ := resolve_eq_ok_iff.mp h
  exact resolve_eq_ok_iff.mpr ⟨hbroken, hempty, follow_keeps ht hdir hl hnew hentry hfollow⟩

/-- What is no directory is reached by a name at the end of the path. -/
lemma resolve_last_down (ht : t.LinkFree) (hl : t.entry? l ≠ some .directory)
    (h : t.resolve here p isNew = .ok l) : ∃ steps n, p.steps = steps ++ [.down n] := by
  obtain ⟨-, hempty, hfollow⟩ := resolve_eq_ok_iff.mp h
  rcases List.eq_nil_or_concat p.steps with hsteps | ⟨steps, step, hsteps⟩
  · rw [hsteps, Path.start, if_pos (hempty hsteps), follow] at hfollow
    obtain rfl := Except.ok.inj hfollow
    exact absurd entry?_root hl
  · by_cases hstep : ∃ n, step = .down n
    · obtain ⟨n, rfl⟩ := hstep
      exact ⟨steps, n, by rw [hsteps, List.concat_eq_append]⟩
    · rw [hsteps, List.concat_eq_append] at hfollow
      exact absurd (follow_last_directory ht (not_exists.mp hstep) hfollow) hl

end FileTree

end ImportAtlas
