import ImportAtlas.Proofs.ImportCycles

/-!
Layers of a package.

Where there is no cycle a module reaches all that is reached by a module that it imports, and that
module besides. So an importer reaches more than what it imports does, and the modules that reach
more can be listed before those that reach less. Where every importer comes before its imports, no
path of imports leads back, so there is such a list only if there is no cycle.
-/

namespace ImportAtlas.ImportGraph

variable {g : ImportGraph} {order : List String} {m n : String}

/-- The list has every module of the graph once, and each before the modules that it imports. -/
structure IsLayering (g : ImportGraph) (order : List String) : Prop where
  nodup : order.Nodup
  mem_iff : ∀ m, m ∈ order ↔ m ∈ g.nodes
  before : ∀ m n, g.Imports m n → order.idxOf m < order.idxOf n

lemma IsLayering.reaches_before (h : g.IsLayering order) (hmn : g.Reaches m n) :
    order.idxOf m < order.idxOf n := by
  induction hmn with
  | single hstep => exact h.before _ _ hstep
  | tail _ hstep ih => exact ih.trans (h.before _ _ hstep)

/-! ### Layers by what is reached -/

open Classical in
noncomputable def height (g : ImportGraph) (m : String) : ℕ :=
  (g.nodes.toList.toFinset.filter (g.Reaches m)).card

lemma height_lt (hn : ¬g.Reaches n n) (h : g.Imports m n) : g.height n < g.height m := by
  classical
  have hmem : n ∈ g.nodes.toList.toFinset := List.mem_toFinset.mpr (mem_nodes_of_imports h).2
  refine Finset.card_lt_card (Finset.ssubset_iff_subset_ne.mpr ⟨fun x hx => ?_, fun heq => ?_⟩)
  · obtain ⟨hx, hnx⟩ := Finset.mem_filter.mp hx
    exact Finset.mem_filter.mpr ⟨hx, .head h hnx⟩
  · have hself : n ∈ g.nodes.toList.toFinset.filter (g.Reaches m) :=
      Finset.mem_filter.mpr ⟨hmem, .single h⟩
    rw [← heq] at hself
    exact hn (Finset.mem_filter.mp hself).2

/-- The modules of the graph, those that reach more before those that reach less. -/
noncomputable def layering (g : ImportGraph) : List String :=
  g.nodes.toList.mergeSort fun m n => g.height n ≤ g.height m

lemma layering_perm (g : ImportGraph) : g.layering.Perm g.nodes.toList := List.mergeSort_perm ..

lemma layering_pairwise (g : ImportGraph) :
    g.layering.Pairwise fun m n => g.height n ≤ g.height m := by
  have hsorted : g.layering.Pairwise fun m n => decide (g.height n ≤ g.height m) = true := by
    refine List.pairwise_mergeSort (fun a b c hab hbc => ?_) (fun a b => ?_) g.nodes.toList
    · rw [decide_eq_true_eq] at hab hbc ⊢
      exact hbc.trans hab
    · rw [Bool.or_eq_true, decide_eq_true_eq, decide_eq_true_eq]
      exact Nat.le_total ..
  exact hsorted.imp fun h => of_decide_eq_true h

/-- What reaches more comes first. -/
lemma idxOf_layering_lt (hm : m ∈ g.layering) (hn : n ∈ g.layering) (h : g.height n < g.height m) :
    g.layering.idxOf m < g.layering.idxOf n := by
  have hmlt := List.idxOf_lt_length_of_mem hm
  have hnlt := List.idxOf_lt_length_of_mem hn
  by_contra hnot
  rcases Nat.lt_or_eq_of_le (Nat.le_of_not_lt hnot) with hlt | heq
  · have hle := List.pairwise_iff_getElem.mp g.layering_pairwise _ _ hnlt hmlt hlt
    rw [List.getElem_idxOf, List.getElem_idxOf] at hle
    exact absurd h (Nat.not_lt.mpr hle)
  · obtain rfl : n = m := (List.idxOf_inj hn).mp heq
    exact Nat.lt_irrefl _ h

lemma isLayering_layering (h : ∀ m, ¬g.Reaches m m) : g.IsLayering g.layering where
  nodup := g.layering_perm.nodup_iff.mpr g.nodes_nodup
  mem_iff m := g.layering_perm.mem_iff
  before m n himport := by
    obtain ⟨hm, hn⟩ := mem_nodes_of_imports himport
    exact idxOf_layering_lt (g.layering_perm.mem_iff.mpr hm) (g.layering_perm.mem_iff.mpr hn)
      (height_lt (h n) himport)

/-- **Layers.** A graph has no cycles exactly if its modules can be listed without repetition so
that every importer comes before all that it imports. -/
theorem cycles_eq_nil_iff_layering (g : ImportGraph) :
    g.cycles = [] ↔ ∃ order, g.IsLayering order := by
  rw [cycles_eq_nil_iff]
  constructor
  · exact fun h => ⟨g.layering, isLayering_layering h⟩
  · rintro ⟨order, horder⟩ m hm
    exact Nat.lt_irrefl _ (horder.reaches_before hm)

end ImportAtlas.ImportGraph
