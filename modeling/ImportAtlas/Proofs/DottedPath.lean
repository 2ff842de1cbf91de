import ImportAtlas.Proofs.SplitText

/-!
Paths and their dotted names.

A name is read as the path that spells it. A path is read back from its name, unless it is a single
empty segment, which is written like the path without segments, or has a dot in a segment, which
is read as one between two segments.
-/

namespace ImportAtlas.ModulePath

variable {p q : ModulePath} {n : ℕ}

@[simp] lemma text_ofDotted (name : String) : (ofDotted name).text = name := by
  unfold ofDotted
  split
  · next h => rw [h]; rfl
  · simp [text, Function.comp_def, join_split]

/-- Without a name are the path without segments and the single empty segment. -/
lemma nameless_iff : p.text = "" ↔ p = .empty ∨ p = ⟨[""]⟩ := by
  obtain ⟨ss⟩ := p
  rw [text, ← String.toList_eq_nil_iff, String.toList_ofList]
  match ss with
  | [] => simp [join, empty]
  | [s] => simp [join, empty]
  | s :: s' :: ss => simp [join, empty]

lemma segments_ne_nil (h : p ≠ .empty) : p.segments ≠ [] := fun hnil =>
  h (congrArg ModulePath.mk hnil)

lemma ofDotted_text_iff :
    ofDotted p.text = p ↔ p ≠ ⟨[""]⟩ ∧ ∀ s ∈ p.segments, '.' ∉ s.toList := by
  by_cases hname : p.text = ""
  · rw [hname]
    rcases nameless_iff.mp hname with rfl | rfl
    · simp [ofDotted, empty]
    · simp [ofDotted, empty]
  · rw [nameless_iff, not_or] at hname
    have hsegments := segments_ne_nil hname.1
    have hpieces : (ofDotted p.text).segments.map String.toList =
        split '.' (join '.' (p.segments.map String.toList)) := by
      rw [ofDotted, if_neg (mt nameless_iff.mp (not_or.mpr hname)), text, String.toList_ofList]
      simp [Function.comp_def]
    -- to read the path back is to cut what its segments were put together to
    have hread : ofDotted p.text = p ↔
        split '.' (join '.' (p.segments.map String.toList)) = p.segments.map String.toList := by
      rw [← hpieces, (List.map_injective_iff.mpr fun _ _ => String.toList_inj.mp).eq_iff]
      exact ⟨congrArg segments, congrArg mk⟩
    rw [hread, split_join_eq_self_iff (mt List.map_eq_nil_iff.mp hsegments),
      List.forall_mem_map, and_iff_right hname.2]

lemma text_append (hp : p ≠ .empty) (hq : q ≠ .empty) :
    (p ++ q).text = p.text ++ "." ++ q.text := by
  rw [← String.toList_inj, text, segments_append, List.map_append,
    join_append (mt List.map_eq_nil_iff.mp (segments_ne_nil hp))
      (mt List.map_eq_nil_iff.mp (segments_ne_nil hq))]
  simp [text]

/-- To come back to a path one climbs what was put behind it. -/
lemma ancestor?_append_iff : (p ++ q).ancestor? n = some p ↔ n = q.length := by
  have hlength : (p ++ q).length = p.length + q.length := List.length_append
  constructor
  · intro h
    obtain ⟨hn, h⟩ := Option.ite_none_right_eq_some.mp h
    have hkept := congrArg length (Option.some.inj h)
    rw [length, List.length_take] at hkept
    change min _ (p ++ q).length = _ at hkept
    omega
  · rintro rfl
    rw [ancestor?, if_pos (hlength ▸ Nat.le_add_left ..), hlength, Nat.add_sub_cancel]
    exact congrArg (some ∘ mk) List.take_left

/-- **Dotted names.** Every text is the name of the path that it is read as. A path is read back
from its name exactly if it is not the single empty segment and no segment of it has a dot in it.
The name of a path behind another one goes on behind a dot, and by climbing one comes back to the
other one exactly if one climbs as far as the path behind it goes. -/
theorem dotted_names :
    (∀ name, (ofDotted name).text = name) ∧
    (∀ p : ModulePath,
      ofDotted p.text = p ↔ p ≠ ⟨[""]⟩ ∧ ∀ s ∈ p.segments, '.' ∉ s.toList) ∧
    (∀ p q : ModulePath, p ≠ .empty → q ≠ .empty → (p ++ q).text = p.text ++ "." ++ q.text) ∧
    ∀ (p q : ModulePath) (n : ℕ), (p ++ q).ancestor? n = some p ↔ n = q.length :=
  ⟨text_ofDotted, fun _ => ofDotted_text_iff, fun _ _ => text_append,
    fun _ _ _ => ancestor?_append_iff⟩

/-- An empty segment and one with a dot in it between two paths. -/
theorem dotted_names_behind :
    let p : ModulePath := ⟨["a", ""]⟩
    let q : ModulePath := ⟨["b.c"]⟩
    p ≠ .empty ∧ q ≠ .empty ∧ (p ++ q).text = p.text ++ "." ++ q.text ∧
      (p ++ q).ancestor? 1 = some p ∧ ofDotted (p ++ q).text ≠ p ++ q := by
  intro p q
  have hp : p ≠ .empty := by decide
  have hq : q ≠ .empty := by decide
  obtain ⟨-, hread, hbehind, hclimb⟩ := dotted_names
  refine ⟨hp, hq, hbehind p q hp hq, (hclimb p q 1).mpr rfl, fun h => ?_⟩
  exact ((hread _).mp h).2 "b.c" (by decide) (by decide)

end ImportAtlas.ModulePath
