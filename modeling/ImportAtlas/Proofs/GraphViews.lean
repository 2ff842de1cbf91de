import ImportAtlas.Proofs.DrawnModules
import Mathlib.Algebra.Order.BigOperators.Ring.Finset

/-!
The views of an import graph.

There is one relation behind them, that one module imports another one. It is listed pair by pair,
asked from either end, drawn as a graph with numbered nodes and counted. Each import leads to one
node of the graph, so the nodes have as many importers together as there are imports.
-/

namespace ImportAtlas.ImportGraph

variable {g : ImportGraph} {m n x : String}

/-! ### Asked from the other end -/

lemma mem_importersOf_iff : m ∈ g.importersOf n ↔ g.Imports m n := by
  unfold Imports ImportTable.Lists importersOf
  simp only [List.mem_map, List.mem_filter, List.contains_iff_mem, OrderedMap.find?_eq_some_iff]
  constructor
  · rintro ⟨⟨k, names⟩, ⟨hentry, hn⟩, rfl⟩
    exact ⟨names, hentry, hn⟩
  · rintro ⟨names, hentry, hn⟩
    exact ⟨(m, names), ⟨hentry, hn⟩, rfl⟩

lemma importersOf_pairwise (g : ImportGraph) (n : String) : (g.importersOf n).Pairwise (· < ·) :=
  List.pairwise_map.mpr (g.table.ascending.filter _)

/-- The importers of a module, read off the list of all imports. -/
lemma importersOf_eq (g : ImportGraph) (n : String) :
    g.importersOf n = (g.pairs.filter (·.2 = n)).map (·.1) := by
  have hantisymm : Std.Antisymm fun a b : String => a < b :=
    ⟨fun a _ hab hba => absurd (String.lt_trans hab hba) (String.lt_irrefl a)⟩
  have hascending : ((g.pairs.filter (·.2 = n)).map (·.1)).Pairwise (· < ·) := by
    refine List.pairwise_map.mpr ?_
    refine (g.pairs_pairwise.filter _).imp_of_mem fun ha hb hlt => ?_
    -- imports of one module differ in their importers
    have heq := (of_decide_eq_true (List.mem_filter.mp ha).2).trans
      (of_decide_eq_true (List.mem_filter.mp hb).2).symm
    refine hlt.resolve_right fun hlast => String.lt_irrefl _ (heq ▸ hlast.2)
  refine (g.importersOf_pairwise n).eq_of_mem_iff hascending fun m => ?_
  simp [mem_importersOf_iff, mem_pairs_iff]

lemma contains_iff : g.contains n = true ↔ n ∈ g.importers ∨ g.importersOf n ≠ [] := by
  unfold contains
  rw [List.contains_iff_mem, ← OrderedSet.mem_def, mem_nodes_iff]
  simp only [← mem_importersOf_iff]
  exact or_congr_right ⟨fun ⟨_, hk⟩ => List.ne_nil_of_mem hk, List.exists_mem_of_ne_nil _⟩

/-! ### With numbered nodes -/

lemma ends_subset_nodes (g : ImportGraph) :
    (g.pairs.flatMap fun pair => [pair.1, pair.2]) ⊆ g.nodes.toList := by
  intro x hx
  obtain ⟨⟨k, v⟩, hpair, hx⟩ := List.mem_flatMap.mp hx
  obtain ⟨hk, hv⟩ := mem_nodes_of_imports (mem_pairs_iff.mp hpair)
  simp only [List.mem_cons, List.not_mem_nil, or_false] at hx
  rcases hx with rfl | rfl
  · exact hk
  · exact hv

lemma nodes_moduleGraph (g : ImportGraph) : g.moduleGraph.nodes = g.nodes.toList := by
  rw [g.moduleGraph_records.nodes, List.eraseDups_append, eraseDups_of_nodup g.nodes_nodup]
  have hnone : (g.pairs.flatMap fun pair => [pair.1, pair.2]).removeAll g.nodes.toList = [] := by
    refine List.filter_eq_nil_iff.mpr fun x hx => ?_
    simp [g.ends_subset_nodes hx]
  rw [hnone, List.eraseDups_nil, List.append_nil]

/-! ### Counted -/

lemma edgeCount_eq_sum_size (g : ImportGraph) :
    g.edgeCount = (g.table.values.map OrderedSet.size).sum := by
  unfold edgeCount pairs OrderedMap.values
  rw [List.length_flatMap, List.map_map]
  simp [Function.comp_def, OrderedSet.size]

/-- Every import is counted at the node that it leads to. -/
lemma edgeCount_eq_sum_importersOf (g : ImportGraph) :
    g.edgeCount = (g.nodes.toList.map fun n => (g.importersOf n).length).sum := by
  -- the imports are counted by the node that they lead to
  have htarget : ∀ pair ∈ g.pairs.toFinset, pair.2 ∈ g.nodes.toList.toFinset := by
    intro pair hpair
    rw [List.mem_toFinset] at hpair ⊢
    exact g.ends_subset_nodes (List.mem_flatMap.mpr ⟨pair, hpair, by simp⟩)
  have hcount : ∀ n, (g.importersOf n).length = (g.pairs.toFinset.filter (·.2 = n)).card := by
    intro n
    have hfilter : (g.pairs.filter (·.2 = n)).toFinset = g.pairs.toFinset.filter (·.2 = n) := by
      ext pair
      simp
    rw [g.importersOf_eq, List.length_map, ← hfilter,
      List.toFinset_card_of_nodup (g.nodup_pairs.filter _)]
  calc
    g.edgeCount = g.pairs.toFinset.card := (List.toFinset_card_of_nodup g.nodup_pairs).symm
    _ = ∑ n ∈ g.nodes.toList.toFinset, (g.pairs.toFinset.filter (·.2 = n)).card :=
      Finset.card_eq_sum_card_fiberwise htarget
    _ = ∑ n ∈ g.nodes.toList.toFinset, (g.importersOf n).length := by simp only [hcount]
    _ = (g.nodes.toList.map fun n => (g.importersOf n).length).sum :=
      List.sum_toFinset _ g.nodes_nodup

lemma length_edges_moduleGraph (g : ImportGraph) :
    g.moduleGraph.edges.length = g.pairs.length := by
  rw [← IndexedGraph.length_arrows, arrows_moduleGraph, List.length_map]

/-- **The views of a graph.** The numbered graph has the nodes of the graph in ascending order, and
one edge for each import, in the order of the importers and then of what they import. A module is an
importer of another one exactly if that is among its imports, and importers are listed in ascending
order. There are as many imports as edges, as there are in the sets of the importers together, and
as the nodes have importers together; there are as many nodes as numbered ones. A name is in the
graph exactly if it is that of an importer or has importers. -/
theorem views_agree (g : ImportGraph) :
    g.moduleGraph.nodes = g.nodes.toList ∧ g.nodes.toList.Pairwise (· < ·) ∧
    g.moduleGraph.arrows = g.pairs.map (fun pair => (some pair.1, some pair.2)) ∧
    g.moduleGraph.edges.Nodup ∧
    g.pairs.Pairwise (fun a b => a.1 < b.1 ∨ a.1 = b.1 ∧ a.2 < b.2) ∧
    (∀ m n, (m, n) ∈ g.pairs ↔ ∃ names, g.importsOf? m = some names ∧ n ∈ names) ∧
    (∀ m n, m ∈ g.importersOf n ↔ ∃ names, g.importsOf? m = some names ∧ n ∈ names) ∧
    (∀ n, (g.importersOf n).Pairwise (· < ·)) ∧
    g.edgeCount = g.moduleGraph.edges.length ∧
    g.edgeCount = (g.table.values.map OrderedSet.size).sum ∧
    g.edgeCount = (g.nodes.toList.map fun n => (g.importersOf n).length).sum ∧
    g.nodeCount = g.moduleGraph.nodes.length ∧
    ∀ n, g.contains n = true ↔ n ∈ g.importers ∨ g.importersOf n ≠ [] := by
  refine ⟨g.nodes_moduleGraph, g.nodes.ascending, g.arrows_moduleGraph,
    g.moduleGraph_records.nodup_edges, g.pairs_pairwise, fun m n => mem_pairs_iff,
    fun m n => mem_importersOf_iff, g.importersOf_pairwise, g.length_edges_moduleGraph.symm,
    g.edgeCount_eq_sum_size, g.edgeCount_eq_sum_importersOf, ?_, fun n => contains_iff⟩
  rw [g.nodes_moduleGraph]
  rfl

end ImportAtlas.ImportGraph
