import ImportAtlas.Proofs.GraphNames
import ImportAtlas.Proofs.JsonRecord
import ImportAtlas.Proofs.PageTemplate

/-!
The end of a script in the page of a graph.

What is put into the template has no slash in it, and neither begins nor ends like a part of an end
tag. So the page has as many end tags of scripts as the template: nothing in a package can end the
script that it is put into.
-/

namespace ImportAtlas

namespace Export

/-- The text begins like the end tag of a script, in letters of either case. -/
def closesScript : List Char → Bool
  | '<' :: '/' :: rest => "script".toList.isPrefixOf (rest.map Char.toLower)
  | _ => false

/-- The number of places where a text goes on like the end tag of a script. -/
def closings : List Char → ℕ
  | [] => 0
  | c :: cs => (closesScript (c :: cs)).toNat + closings cs

variable {c x : Char} {a b m s old new : List Char}

/-! ### Texts that keep end tags apart -/

/-- No end tag goes on into the text, begins in it or goes on out of it. -/
structure Barrier (m : List Char) : Prop where
  begins : ∃ x rest, m = x :: rest ∧ x.toLower ∉ "script".toList
  slash : '/' ∉ m
  ends : m.getLast? ≠ some '<'

lemma closesScript_cons_cons {d : Char} :
    closesScript (c :: d :: s) =
      (c == '<' && d == '/' && "script".toList.isPrefixOf (s.map Char.toLower)) := by
  unfold closesScript
  split
  · rename_i heq
    have hfirst := List.cons.inj heq
    have hsecond := List.cons.inj hfirst.2
    rw [hfirst.1, hsecond.1, hsecond.2]
    rfl
  · rename_i hne
    by_cases hc : c = '<'
    · by_cases hd : d = '/'
      · exact absurd (by rw [hc, hd]) (hne s)
      · simp [hd]
    · simp [hc]

lemma closesScript_singleton : closesScript [c] = false := by
  unfold closesScript
  split
  · rename_i heq
    cases (List.cons.inj heq).2
  · rfl

/-- What stands in front of a barrier begins with an end tag on its own or not at all. -/
lemma closesScript_append (hm : Barrier m) (ha : a ≠ []) :
    closesScript (a ++ m ++ b) = closesScript a := by
  obtain ⟨⟨x, rest, rfl, hx⟩, hslash, -⟩ := hm
  rw [List.mem_cons, not_or] at hslash
  cases a with
  | nil => exact absurd rfl ha
  | cons c a =>
    cases a with
    | nil =>
      have hne : (x == '/') = false := beq_false_of_ne (Ne.symm hslash.1)
      show closesScript (c :: x :: (rest ++ b)) = _
      rw [closesScript_cons_cons, closesScript_singleton, hne, Bool.and_false, Bool.false_and]
    | cons d a =>
      show closesScript (c :: d :: (a ++ x :: rest ++ b)) = _
      rw [closesScript_cons_cons, closesScript_cons_cons, List.append_assoc, List.cons_append,
        List.map_append, List.map_cons, isPrefixOf_append_cons hx]

lemma closings_append (hslash : '/' ∉ m) (hends : m.getLast? ≠ some '<') :
    closings (m ++ b) = closings b := by
  induction m with
  | nil => rfl
  | cons c m ih =>
    rw [List.mem_cons, not_or] at hslash
    cases m with
    | nil =>
      have hc : closesScript (c :: b) = false := by
        cases b with
        | nil => exact closesScript_singleton
        | cons d b =>
          have hne : (c == '<') = false := by simpa using hends
          rw [closesScript_cons_cons, hne, Bool.false_and, Bool.false_and]
      rw [List.singleton_append, closings, hc]
      exact Nat.zero_add _
    | cons d m =>
      -- an end tag needs a slash behind its first character
      have hne : (d == '/') = false := by
        refine beq_false_of_ne ?_
        rintro rfl
        exact hslash.2 (List.mem_cons_self ..)
      rw [List.cons_append, closings, List.cons_append, closesScript_cons_cons, hne, Bool.and_false,
        Bool.false_and, ← List.cons_append, ih hslash.2 (by simpa using hends)]
      exact Nat.zero_add _

/-- End tags are counted apart on either side of a barrier. -/
lemma closings_barrier (hm : Barrier m) :
    closings (a ++ m ++ b) = closings a + closings b := by
  induction a with
  | nil => exact (closings_append hm.slash hm.ends).trans (Nat.zero_add _).symm
  | cons c a ih =>
    have hclose := closesScript_append (b := b) hm (List.cons_ne_nil c a)
    simp only [List.cons_append] at hclose ih ⊢
    rw [closings, closings, hclose, ih, Nat.add_assoc]

lemma Barrier.ne_nil (hm : Barrier m) : m ≠ [] := by
  obtain ⟨⟨x, rest, rfl, -⟩, -, -⟩ := hm
  exact List.cons_ne_nil x rest

lemma closings_append_replaceAll (hold : Barrier old) (hnew : Barrier new) :
    closings (a ++ replaceAll old new s) = closings (a ++ s) := by
  induction s using replaced_induction old hold.ne_nil generalizing a with
  | nil => rw [replaceAll_nil]
  | found s ih =>
    have hsame := ih (a := [])
    rw [List.nil_append, List.nil_append] at hsame
    rw [replaceAll_found hold.ne_nil, ← List.append_assoc, closings_barrier hnew, hsame,
      ← List.append_assoc, closings_barrier hold]
  | passed c s hfound ih =>
    rw [replaceAll_passed hfound, List.append_cons, List.append_cons a c s]
    exact ih

lemma closings_replaceAll (hold : Barrier old) (hnew : Barrier new) :
    closings (replaceAll old new s) = closings s :=
  closings_append_replaceAll (a := []) hold hnew

lemma barrier_recordsPlace : Barrier recordsPlace.toList := by
  rw [toList_recordsPlace]
  exact ⟨⟨'v', _, rfl, by decide⟩, by decide, by decide⟩

lemma barrier_diameterPlace : Barrier diameterPlace.toList := by
  rw [toList_diameterPlace]
  exact ⟨⟨'v', _, rfl, by decide⟩, by decide, by decide⟩

end Export

open Export

namespace ImportGraph

variable {g : ImportGraph}

/-- The records have no slash in them if the names of the graph have none. -/
lemma slash_not_mem_json (h : ∀ x ∈ g.nodes, '/' ∉ x.toList) : '/' ∉ g.json.toList := by
  have hname : ∀ x ∈ g.nodes, Json.ImportRecord.Unwritten '/' x := by
    intro x hx c hc
    refine Json.ImportRecord.slash_not_mem_escaped ?_
    rintro rfl
    exact h x hx hc
  have hmarks : '/' ∉ Json.ImportRecord.marks := by
    rw [Json.ImportRecord.marks_eq]
    decide
  refine Json.ImportRecord.not_mem_writeAll hmarks fun r hr => ?_
  obtain ⟨⟨k, names⟩, hentry, rfl⟩ := List.mem_map.mp hr
  have hfind := OrderedMap.find?_eq_some_iff.mpr hentry
  refine ⟨hname k (mem_nodes_iff.mpr (.inl (OrderedMap.mem_keys_iff.mpr ⟨names, hfind⟩))), ?_⟩
  exact fun v hv => hname v (mem_nodes_iff.mpr (.inr ⟨k, names, hfind, hv⟩))

lemma barrier_records (h : ∀ x ∈ g.nodes, '/' ∉ x.toList) :
    Barrier ("var classes = " ++ g.json).toList := by
  have hslash := slash_not_mem_json h
  have hlast : g.json.toList.getLast? = some ']' := by
    rw [json, Json.ImportRecord.writeAll, String.toList_ofList, List.getLast?_concat]
  have hne : g.json.toList ≠ [] := by
    intro hnil
    rw [hnil] at hlast
    cases hlast
  show Barrier (recordsSetting g.json).toList
  rw [toList_recordsSetting]
  refine ⟨⟨'v', _, rfl, by decide⟩, ?_, ?_⟩
  · rw [List.mem_append, not_or]
    exact ⟨by decide, hslash⟩
  · rw [List.getLast?_append_of_ne_nil _ hne, hlast]
    decide

lemma barrier_diameter : Barrier ("var diameter = " ++ toString g.diameter).toList := by
  have hdigit : ∀ c ∈ Nat.toDigits 10 g.diameter, c.isDigit := fun c hc =>
    Nat.isDigit_of_mem_toDigits (by decide) (by decide) hc
  show Barrier (diameterSetting g.diameter).toList
  rw [toList_diameterSetting]
  refine ⟨⟨'v', _, rfl, by decide⟩, ?_, ?_⟩
  · rw [List.mem_append, not_or]
    exact ⟨by decide, fun hmem => absurd (hdigit _ hmem) (by decide)⟩
  · rw [List.getLast?_append_of_ne_nil _ Nat.toDigits_ne_nil]
    exact fun hlast => absurd (hdigit _ (List.mem_of_getLast? hlast)) (by decide)

end ImportGraph

/-- **Names and the script of a page.** No name in the graph of a package has a slash in it, links
or not, and the page of the graph goes on like the end tag of a script in as many places as the
template does, in letters of either case. -/
theorem importGraph_page (t : FileTree) (here : Location) (path : Path) (F : ModuleFilter)
    {g : ImportGraph} (hg : t.importGraph here path F = .ok g) :
    (∀ k ∈ g.importers, '/' ∉ k.toList) ∧
      (∀ k v, g.Imports k v → '/' ∉ k.toList ∧ '/' ∉ v.toList) ∧
      (∀ x ∈ g.nodes, '/' ∉ x.toList) ∧
      closings g.page.toList = closings template.toList := by
  have hnodes : ∀ x ∈ g.nodes, '/' ∉ x.toList := fun x => FileTree.slash_not_mem_nodes hg
  refine ⟨fun k hk => ?_, fun k v h => ⟨?_, ?_⟩, hnodes, ?_⟩
  · exact hnodes k (ImportGraph.mem_nodes_iff.mpr (.inl hk))
  · exact hnodes k (ImportGraph.mem_nodes_iff.mpr (.inl (ImportGraph.mem_importers_of_imports h)))
  · exact hnodes v (ImportGraph.mem_nodes_iff.mpr (.inr ⟨k, h⟩))
  · rw [ImportGraph.page, String.toList_ofList,
      closings_replaceAll barrier_diameterPlace ImportGraph.barrier_diameter,
      closings_replaceAll barrier_recordsPlace (ImportGraph.barrier_records hnodes)]

open FileTree in
theorem importGraph_page_lone :
    ∃ g, (loneTree "import os\n".toUTF8.data).importGraph .root lone.path .all = .ok g ∧
      (∀ x ∈ g.nodes, '/' ∉ x.toList) ∧ closings g.page.toList = closings template.toList := by
  obtain ⟨imports, hg⟩ := exists_importGraph_lone_import
  obtain ⟨-, -, hnodes, hclosings⟩ := importGraph_page _ _ _ _ hg
  exact ⟨_, hg, hnodes, hclosings⟩

end ImportAtlas
