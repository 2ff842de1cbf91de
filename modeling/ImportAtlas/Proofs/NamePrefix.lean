import ImportAtlas.ModuleFilter
import ImportAtlas.Proofs.SplitText

/-!
Names within names.

A name lies within another one exactly if the segments of the other one begin its own. This holds
for every text, also for those that no module is called by: the empty text has one empty segment,
and a dot at either end of a text has an empty segment behind or in front of it.
-/

namespace ImportAtlas

variable {name top rest : String} {tops : List String}

def dottedSegments (name : String) : List (List Char) := ModulePath.split '.' name.toList

lemma isWithin_iff : isWithin name top = true ↔ name = top ∨ ∃ rest, name = top ++ "." ++ rest := by
  unfold isWithin
  rw [Bool.or_eq_true, beq_iff_eq, List.isPrefixOf_iff_prefix]
  refine or_congr_right ⟨?_, ?_⟩
  · rintro ⟨rest, hrest⟩
    exact ⟨String.ofList rest, by rw [← String.toList_inj]; simp [← hrest]⟩
  · rintro ⟨rest, rfl⟩
    exact ⟨rest.toList, by simp⟩

lemma dottedSegments_below :
    dottedSegments (top ++ "." ++ rest) = dottedSegments top ++ dottedSegments rest := by
  have hdot : (top ++ "." ++ rest).toList = top.toList ++ '.' :: rest.toList := by simp
  rw [dottedSegments, hdot, ModulePath.split_append_mark]
  rfl

lemma join_dottedSegments (name : String) :
    String.ofList (ModulePath.join '.' (dottedSegments name)) = name := by
  rw [dottedSegments, ModulePath.join_split, String.ofList_toList]

lemma dottedSegments_ne_nil (name : String) : dottedSegments name ≠ [] :=
  ModulePath.split_ne_nil _ _

lemma isWithin_iff_segments :
    isWithin name top = true ↔ dottedSegments top <+: dottedSegments name := by
  rw [isWithin_iff]
  constructor
  · rintro (rfl | ⟨rest, rfl⟩)
    · exact List.prefix_refl _
    · rw [dottedSegments_below]
      exact List.prefix_append ..
  · rintro ⟨others, hname⟩
    cases others with
    | nil =>
      rw [List.append_nil] at hname
      exact .inl (by rw [← join_dottedSegments name, ← hname, join_dottedSegments])
    | cons other others =>
      -- the segments that are left are what stands behind the dot
      refine .inr ⟨String.ofList (ModulePath.join '.' (other :: others)), ?_⟩
      calc
        name = String.ofList (ModulePath.join '.' (dottedSegments name)) :=
          (join_dottedSegments name).symm
        _ = String.ofList (ModulePath.join '.' (dottedSegments top) ++
              '.' :: ModulePath.join '.' (other :: others)) := by
          rw [← hname, ModulePath.join_append (dottedSegments_ne_nil top) (List.cons_ne_nil _ _)]
        _ = top ++ "." ++ String.ofList (ModulePath.join '.' (other :: others)) := by
          rw [String.ofList_append, join_dottedSegments, ← List.singleton_append,
            String.ofList_append, String.append_assoc]

lemma isWithinAny_iff_segments :
    isWithinAny name tops = true ↔ ∃ top ∈ tops, dottedSegments top <+: dottedSegments name := by
  simp only [isWithinAny, List.any_eq_true, isWithin_iff_segments]

/-- What lies below a name lies within all that the name lies within. -/
lemma isWithinAny_below (h : isWithinAny name tops = true) :
    isWithinAny (name ++ "." ++ rest) tops = true := by
  obtain ⟨top, htop, hprefix⟩ := isWithinAny_iff_segments.mp h
  refine isWithinAny_iff_segments.mpr ⟨top, htop, hprefix.trans ?_⟩
  rw [dottedSegments_below]
  exact List.prefix_append ..

namespace ModuleFilter

variable {F : ModuleFilter}

lemma isKept_iff :
    F.isKept name = true ↔
      ∀ tops ∈ F.kept, ∃ top ∈ tops, dottedSegments top <+: dottedSegments name := by
  unfold isKept
  cases F.kept with
  | none => simp
  | some tops => simp [isWithinAny_iff_segments, OrderedSet.mem_def]

lemma isDropped_iff :
    F.isDropped name = true ↔
      ∃ tops ∈ F.dropped, ∃ top ∈ tops, dottedSegments top <+: dottedSegments name := by
  unfold isDropped
  cases F.dropped with
  | none => simp
  | some tops => simp [isWithinAny_iff_segments, OrderedSet.mem_def]

lemma isKept_below (h : F.isKept name = true) : F.isKept (name ++ "." ++ rest) = true := by
  unfold isKept at h ⊢
  cases hkept : F.kept with
  | none => rfl
  | some tops =>
    rw [hkept] at h
    exact isWithinAny_below h

lemma isDropped_below (h : F.isDropped name = true) :
    F.isDropped (name ++ "." ++ rest) = true := by
  unfold isDropped at h ⊢
  cases hdropped : F.dropped with
  | none =>
    rw [hdropped] at h
    cases h
  | some tops =>
    rw [hdropped] at h
    exact isWithinAny_below h

end ModuleFilter

/-- **Names within names.** A name lies within one of a list exactly if the segments of that one
begin its own. So a filter lets a name pass exactly if there is no first list or the segments of one
of its names begin those of the name, and those of no name in the second list do. All that lies
below a dropped name is dropped, and all that lies below a kept one is kept. -/
theorem allows_iff_segments :
    (∀ name tops, isWithinAny name tops = true ↔
      ∃ top ∈ tops, dottedSegments top <+: dottedSegments name) ∧
    ∀ (F : ModuleFilter) (name : String),
      (F.allows name = true ↔
        (∀ tops ∈ F.kept, ∃ top ∈ tops, dottedSegments top <+: dottedSegments name) ∧
        ∀ tops ∈ F.dropped, ∀ top ∈ tops, ¬dottedSegments top <+: dottedSegments name) ∧
      (F.isDropped name = true → ∀ rest, F.isDropped (name ++ "." ++ rest) = true) ∧
      (F.isKept name = true → ∀ rest, F.isKept (name ++ "." ++ rest) = true) := by
  refine ⟨fun name tops => isWithinAny_iff_segments, fun F name => ⟨?_, ?_, ?_⟩⟩
  · rw [ModuleFilter.allows, Bool.and_eq_true, ModuleFilter.isKept_iff, Bool.not_eq_true',
      ← Bool.not_eq_true, ModuleFilter.isDropped_iff]
    push Not
    rfl
  · exact fun h rest => ModuleFilter.isDropped_below h
  · exact fun h rest => ModuleFilter.isKept_below h

/-- The filter that keeps what has an empty first segment, but not `.a` and what lies below it. -/
def unnamedTop : ModuleFilter := { kept := some (.ofList [""]), dropped := some (.ofList [".a"]) }

theorem allows_unnamedTop :
    unnamedTop.isKept ("" ++ "." ++ "b.") = true ∧
    unnamedTop.isDropped (".a" ++ "." ++ "b") = true := by
  obtain ⟨-, hkept⟩ := (allows_iff_segments.2 unnamedTop "").2
  obtain ⟨hdropped, -⟩ := (allows_iff_segments.2 unnamedTop ".a").2
  exact ⟨hkept (by decide +kernel) "b.", hdropped (by decide +kernel) "b"⟩

end ImportAtlas
