import ImportAtlas.Proofs.Components
import ImportAtlas.Proofs.GraphViews
import Mathlib

/-!
The cycles of an import graph.

Two modules are companions if each reaches the other by one or more imports. Companions have the
same companions, so those of the modules that reach themselves are groups, each listed at its first
module. The nodes of the numbered graph are connected as the modules of the graph are; so a
component of it is a cycle exactly if its modules reach themselves, and then they are the companions
of each of them. Sorted, the cycles that are found are these groups.
-/

namespace ImportAtlas.ImportGraph

variable {g : ImportGraph} {k m n x y : String} {i j : ℕ} {c : List ℕ}

def Reaches (g : ImportGraph) : String → String → Prop := Relation.TransGen g.Imports

lemma mem_importers_of_reaches (h : g.Reaches m n) : m ∈ g.importers := by
  obtain ⟨x, hx, -⟩ := Relation.TransGen.head'_iff.mp h
  exact mem_importers_of_imports hx

lemma mem_nodes_of_reaches (h : g.Reaches m n) : m ∈ g.nodes ∧ n ∈ g.nodes := by
  obtain ⟨x, hx, -⟩ := Relation.TransGen.head'_iff.mp h
  obtain ⟨y, -, hy⟩ := Relation.TransGen.tail'_iff.mp h
  exact ⟨(mem_nodes_of_imports hx).1, (mem_nodes_of_imports hy).2⟩

/-! ### Companions -/

open Classical in
/-- The modules that a module reaches and that reach it, in ascending order. -/
noncomputable def companions (g : ImportGraph) (m : String) : List String :=
  g.importers.filter fun n => g.Reaches m n ∧ g.Reaches n m

lemma mem_companions_iff : n ∈ g.companions m ↔ g.Reaches m n ∧ g.Reaches n m := by
  classical
  rw [companions, List.mem_filter, decide_eq_true_eq, and_iff_right_iff_imp]
  exact fun h => mem_importers_of_reaches h.2

lemma companions_pairwise (g : ImportGraph) (m : String) : (g.companions m).Pairwise (· < ·) :=
  (OrderedMap.keys_pairwise g.table).filter _

lemma companions_eq (h : n ∈ g.companions m) : g.companions n = g.companions m := by
  obtain ⟨hmn, hnm⟩ := mem_companions_iff.mp h
  refine List.filter_congr fun x _ => ?_
  rw [decide_eq_decide]
  constructor
  · rintro ⟨hnx, hxn⟩
    exact ⟨hmn.trans hnx, hxn.trans hnm⟩
  · rintro ⟨hmx, hxm⟩
    exact ⟨hnm.trans hmx, hxm.trans hmn⟩

open Classical in
/-- The companions of the modules that reach themselves, listed at the first of them. -/
noncomputable def groups (g : ImportGraph) : List ImportCycle :=
  g.importers.filterMap fun m =>
    if (g.companions m).head? = some m then some ⟨g.companions m⟩ else none

lemma mem_groups_iff {c : ImportCycle} :
    c ∈ g.groups ↔ ∃ m, g.Reaches m m ∧ c = ⟨g.companions m⟩ := by
  rw [groups, List.mem_filterMap]
  constructor
  · rintro ⟨m, -, h⟩
    split at h
    · next hhead =>
      exact ⟨m, (mem_companions_iff.mp (List.mem_of_mem_head? hhead)).1, (Option.some.inj h).symm⟩
    · cases h
  · rintro ⟨m, hm, rfl⟩
    obtain ⟨k, ks, hlist⟩ := List.exists_cons_of_ne_nil
      (List.ne_nil_of_mem (mem_companions_iff.mpr ⟨hm, hm⟩))
    have hk : k ∈ g.companions m := hlist ▸ List.mem_cons_self ..
    exact ⟨k, mem_importers_of_reaches (mem_companions_iff.mp hk).2,
      by rw [companions_eq hk, hlist, List.head?_cons, if_pos rfl]⟩

/-- Of two modules that come first among their companions, the companions are different, and the
lists of companions are in the order of the modules. -/
lemma companions_lt (hm : (g.companions m).head? = some m) (hn : (g.companions n).head? = some n)
    (h : m < n) :
    g.companions m < g.companions n ∧ (g.companions m).Disjoint (g.companions n) := by
  constructor
  · obtain ⟨ms, hms⟩ := List.head?_eq_some_iff.mp hm
    obtain ⟨ns, hns⟩ := List.head?_eq_some_iff.mp hn
    rw [hms, hns]
    exact List.cons_lt_cons_iff.mpr (.inl h)
  · intro x hxm hxn
    have hsame : g.companions m = g.companions n :=
      (companions_eq hxm).symm.trans (companions_eq hxn)
    rw [hsame, hn] at hm
    exact absurd (Option.some.inj hm ▸ h : m < m) (String.lt_irrefl m)

lemma groups_pairwise (g : ImportGraph) :
    g.groups.Pairwise fun c d => c.modules < d.modules ∧ c.modules.Disjoint d.modules := by
  rw [groups, List.pairwise_filterMap]
  refine (OrderedMap.keys_pairwise g.table).imp fun {m n} hlt c hc d hd => ?_
  split at hc
  · next hm =>
    split at hd
    · next hn =>
      cases hc
      cases hd
      exact companions_lt hm hn hlt
    · cases hd
  · cases hc

/-! ### Numbers of modules -/

lemma mem_successors_iff {graph : IndexedGraph} :
    j ∈ graph.successors i ↔ (i, j) ∈ graph.edges := by
  simp [IndexedGraph.successors]

def index (g : ImportGraph) (m : String) : ℕ := g.moduleGraph.index m

lemma getElem?_index (hm : m ∈ g.nodes) : g.moduleGraph.nodes[g.index m]? = some m :=
  List.getElem?_idxOf (g.nodes_moduleGraph ▸ hm)

lemma index_inj (hm : m ∈ g.nodes) : g.index m = g.index n ↔ m = n :=
  List.idxOf_inj (g.nodes_moduleGraph ▸ hm)

lemma exists_index (hi : i < g.moduleGraph.nodes.length) : ∃ m ∈ g.nodes, g.index m = i := by
  refine ⟨g.moduleGraph.nodes[i], ?_, ?_⟩
  · rw [OrderedSet.mem_def, ← g.nodes_moduleGraph]
    exact List.getElem_mem hi
  · exact g.moduleGraph_records.nodup.idxOf_getElem i hi

lemma index_lt (hm : m ∈ g.nodes) : g.index m < g.moduleGraph.nodes.length :=
  List.idxOf_lt_length_iff.mpr (g.nodes_moduleGraph ▸ hm)

lemma mem_edges_iff :
    (i, j) ∈ g.moduleGraph.edges ↔ ∃ m n, g.Imports m n ∧ g.index m = i ∧ g.index n = j := by
  rw [g.moduleGraph_records.edges, List.mem_map]
  simp [mem_pairs_iff, index]

lemma connects_iff (hm : m ∈ g.nodes) (hn : n ∈ g.nodes) :
    ComponentSearch.Connects g.moduleGraph.successors (g.index m) (g.index n) ↔
      Relation.ReflTransGen g.Imports m n := by
  constructor
  · intro h
    -- each edge on the way leads to the number of a module that is imported
    have hpath : ∀ j, ComponentSearch.Connects g.moduleGraph.successors (g.index m) j →
        ∃ x ∈ g.nodes, g.index x = j ∧ Relation.ReflTransGen g.Imports m x := by
      intro j hj
      induction hj with
      | refl => exact ⟨m, hm, rfl, .refl⟩
      | tail _ hstep ih =>
        obtain ⟨x, hx, rfl, hmx⟩ := ih
        obtain ⟨x', y, himport, hindex, rfl⟩ := mem_edges_iff.mp (mem_successors_iff.mp hstep)
        obtain rfl := (index_inj hx).mp hindex.symm
        exact ⟨y, (mem_nodes_of_imports himport).2, rfl, hmx.tail himport⟩
    obtain ⟨x, hx, hindex, hmx⟩ := hpath _ h
    obtain rfl := (index_inj hx).mp hindex
    exact hmx
  · intro h
    exact h.lift g.index fun x y hxy =>
      mem_successors_iff.mpr (mem_edges_iff.mpr ⟨x, y, hxy, rfl, rfl⟩)

/-! ### Components of modules -/

/-- What the search finds, told by the modules of the graph. -/
lemma components_spec (g : ImportGraph) :
    (∀ c ∈ g.moduleGraph.components, ComponentSearch.IsComponent g.moduleGraph.successors c) ∧
      g.moduleGraph.components.flatten.Nodup ∧
        ∀ i, i ∈ g.moduleGraph.components.flatten ↔ i < g.moduleGraph.nodes.length :=
  ComponentSearch.run_spec fun _ _ hj =>
    (g.moduleGraph_records.lt_length (mem_successors_iff.mp hj)).2

lemma lt_of_mem_component (hc : c ∈ g.moduleGraph.components) (hi : i ∈ c) :
    i < g.moduleGraph.nodes.length :=
  (g.components_spec.2.2 i).mp (List.mem_flatten.mpr ⟨c, hc, hi⟩)

/-- A component with a module has those that reach it and are reached by it, or that it is. -/
lemma index_mem_iff (hc : c ∈ g.moduleGraph.components) (hm : m ∈ g.nodes) (hmem : g.index m ∈ c)
    (hn : n ∈ g.nodes) :
    g.index n ∈ c ↔
      Relation.ReflTransGen g.Imports m n ∧ Relation.ReflTransGen g.Imports n m := by
  rw [(g.components_spec.1 c hc).2 _ hmem, connects_iff hm hn, connects_iff hn hm]

lemma exists_ne_of_nodup (h : (i :: j :: c).Nodup) (k : ℕ) : ∃ l ∈ i :: j :: c, l ≠ k := by
  have hij : i ≠ j := by
    rintro rfl
    simp at h
  by_cases hi : i = k
  · exact ⟨j, by simp, hi ▸ hij.symm⟩
  · exact ⟨i, by simp, hi⟩

/-- A component is a cycle if one of its modules reaches itself, and so do all of them. -/
lemma isCycle_iff (hc : c ∈ g.moduleGraph.components) (hm : m ∈ g.nodes) (hmem : g.index m ∈ c) :
    g.moduleGraph.isCycle c = true ↔ g.Reaches m m := by
  have hnodup : c.Nodup := (List.nodup_flatten.mp g.components_spec.2.1).1 c hc
  constructor
  · intro h
    match c, h with
    | [i], h =>
      rw [IndexedGraph.isCycle, List.contains_iff_mem] at h
      obtain ⟨x, y, himport, hx, hy⟩ := mem_edges_iff.mp h
      rw [List.mem_singleton] at hmem
      obtain rfl := (index_inj hm).mp (hmem.trans hx.symm)
      obtain rfl := (index_inj hm).mp (hmem.trans hy.symm)
      exact .single himport
    | i :: j :: c, _ =>
      -- another node of the component is that of another module
      obtain ⟨l, hl, hne⟩ := exists_ne_of_nodup hnodup (g.index m)
      obtain ⟨n, hn, rfl⟩ := exists_index (lt_of_mem_component hc hl)
      obtain ⟨hmn, hnm⟩ := (index_mem_iff hc hm hmem hn).mp hl
      rcases Relation.reflTransGen_iff_eq_or_transGen.mp hmn with rfl | hmn
      · exact absurd rfl hne
      · exact hmn.trans_left hnm
  · intro h
    obtain ⟨n, hmn, hnm⟩ := Relation.TransGen.head'_iff.mp h
    have hn := (mem_nodes_of_imports hmn).2
    have hnmem : g.index n ∈ c := (index_mem_iff hc hm hmem hn).mpr ⟨.single hmn, hnm⟩
    match c, hmem, hnmem with
    | [i], hmem, hnmem =>
      rw [List.mem_singleton] at hmem hnmem
      rw [IndexedGraph.isCycle, List.contains_iff_mem]
      exact mem_edges_iff.mpr ⟨m, n, hmn, hmem, hnmem⟩
    | _ :: _ :: _, _, _ => rfl

lemma mem_names_iff (hc : c ∈ g.moduleGraph.components) :
    x ∈ g.moduleGraph.names c ↔ x ∈ g.nodes ∧ g.index x ∈ c := by
  rw [IndexedGraph.names, List.mem_filterMap]
  constructor
  · rintro ⟨i, hi, hx⟩
    obtain ⟨m, hm, rfl⟩ := exists_index (lt_of_mem_component hc hi)
    rw [getElem?_index hm] at hx
    obtain rfl := Option.some.inj hx
    exact ⟨hm, hi⟩
  · rintro ⟨hx, hi⟩
    exact ⟨_, hi, getElem?_index hx⟩

lemma nodup_names (hc : c ∈ g.moduleGraph.components) : (g.moduleGraph.names c).Nodup := by
  have hnodup : c.Nodup := (List.nodup_flatten.mp g.components_spec.2.1).1 c hc
  refine hnodup.filterMap fun i j m hi hj => ?_
  have hlt : i < g.moduleGraph.nodes.length := (List.getElem?_eq_some_iff.mp hi).1
  exact (List.getElem?_inj hlt g.moduleGraph_records.nodup).mp (hi.trans hj.symm)

/-! ### What is found is sorted -/

/-- Sorting comes to the list that is sorted already. -/
lemma mergeSort_eq {α : Type} {le : α → α → Bool} {l sorted : List α}
    (htrans : ∀ a b c, le a b = true → le b c = true → le a c = true)
    (htotal : ∀ a b, (le a b || le b a) = true)
    (hantisymm : ∀ a b, le a b = true → le b a = true → a = b)
    (hperm : l.Perm sorted) (hsorted : sorted.Pairwise fun a b => le a b = true) :
    l.mergeSort le = sorted :=
  ((List.mergeSort_perm l le).trans hperm).eq_of_pairwise (fun a b _ _ => hantisymm a b)
    (List.pairwise_mergeSort htrans htotal l) hsorted

/-- The modules of a cycle that is found are the companions of each of them. -/
lemma mergeSort_names (hc : c ∈ g.moduleGraph.components) (hm : m ∈ g.nodes)
    (hmem : g.index m ∈ c) (hreach : g.Reaches m m) :
    (g.moduleGraph.names c).mergeSort = g.companions m := by
  have hnodup : (g.companions m).Nodup := (g.companions_pairwise m).imp fun h => String.ne_of_lt h
  refine mergeSort_eq (by simpa using fun _ _ _ => String.le_trans) (by simpa using String.le_total)
    (by simpa using fun _ _ => String.le_antisymm) ?_ ?_
  · rw [List.perm_ext_iff_of_nodup (nodup_names hc) hnodup]
    intro x
    rw [mem_names_iff hc, mem_companions_iff]
    constructor
    · rintro ⟨hx, hxc⟩
      obtain ⟨hmx, hxm⟩ := (index_mem_iff hc hm hmem hx).mp hxc
      exact ⟨hreach.trans_left hmx, hreach.trans_right hxm⟩
    · rintro ⟨hmx, hxm⟩
      have hx := (mem_nodes_of_reaches hmx).2
      exact ⟨hx, (index_mem_iff hc hm hmem hx).mpr ⟨hmx.to_reflTransGen, hxm.to_reflTransGen⟩⟩
  · exact (g.companions_pairwise m).imp fun h =>
      decide_eq_true (String.not_lt.mp (String.lt_asymm h))

lemma mem_foundCycles_iff {d : ImportCycle} : d ∈ g.foundCycles ↔ d ∈ g.groups := by
  unfold foundCycles
  rw [List.mem_map, mem_groups_iff]
  constructor
  · rintro ⟨c, hc, rfl⟩
    obtain ⟨hc, hcycle⟩ := List.mem_filter.mp hc
    obtain ⟨i, hi⟩ := List.exists_mem_of_ne_nil _ (g.components_spec.1 c hc).1
    obtain ⟨m, hm, rfl⟩ := exists_index (lt_of_mem_component hc hi)
    have hreach := (isCycle_iff hc hm hi).mp hcycle
    exact ⟨m, hreach, by rw [mergeSort_names hc hm hi hreach]⟩
  · rintro ⟨m, hreach, rfl⟩
    have hm := (mem_nodes_of_reaches hreach).1
    obtain ⟨c, hc, hi⟩ := List.mem_flatten.mp ((g.components_spec.2.2 _).mpr (index_lt hm))
    exact ⟨c, List.mem_filter.mpr ⟨hc, (isCycle_iff hc hm hi).mpr hreach⟩,
      by rw [mergeSort_names hc hm hi hreach]⟩

lemma nodup_foundCycles (g : ImportGraph) : g.foundCycles.Nodup := by
  have hdisjoint := (List.nodup_flatten.mp g.components_spec.2.1).2
  refine List.pairwise_map.mpr ((hdisjoint.filter _).imp_of_mem fun {c d} hc hd hcd heq => ?_)
  obtain ⟨hc, -⟩ := List.mem_filter.mp hc
  obtain ⟨hd, -⟩ := List.mem_filter.mp hd
  obtain ⟨i, hi⟩ := List.exists_mem_of_ne_nil _ (g.components_spec.1 c hc).1
  obtain ⟨m, hm, rfl⟩ := exists_index (lt_of_mem_component hc hi)
  -- a module of both cycles would have its number in both components
  have hmem : m ∈ (g.moduleGraph.names d).mergeSort := by
    rw [← ImportCycle.mk.inj heq, List.mem_mergeSort]
    exact (mem_names_iff hc).mpr ⟨hm, hi⟩
  exact hcd hi ((mem_names_iff hd).mp (List.mem_mergeSort.mp hmem)).2

/-- **The groups are found**: the cycles are the companions of the modules that reach themselves, in
ascending order. -/
lemma cycles_eq_groups (g : ImportGraph) : g.cycles = g.groups := by
  have hnodup : g.groups.Nodup := g.groups_pairwise.imp fun {c d} h heq => by
    rw [heq] at h
    exact List.lt_irrefl _ h.1
  refine mergeSort_eq (fun a b c hab hbc => ?_) (fun a b => ?_) (fun a b hab hba => ?_)
    ((List.perm_ext_iff_of_nodup g.nodup_foundCycles hnodup).mpr fun d => mem_foundCycles_iff) ?_
  · rw [Bool.not_eq_true', decide_eq_false_iff_not] at hab hbc ⊢
    exact List.le_trans hab hbc
  · rw [Bool.or_eq_true, Bool.not_eq_true', Bool.not_eq_true', decide_eq_false_iff_not,
      decide_eq_false_iff_not, ← not_and_or]
    exact fun h => List.lt_asymm h.1 h.2
  · rw [Bool.not_eq_true', decide_eq_false_iff_not] at hab hba
    exact congrArg ImportCycle.mk (List.le_antisymm hab hba)
  · exact g.groups_pairwise.imp fun h => by simpa using List.lt_asymm h.1

/-! ### The cycles -/

lemma mem_cycles_iff {c : ImportCycle} :
    c ∈ g.cycles ↔ ∃ m, g.Reaches m m ∧ c = ⟨g.companions m⟩ := by
  rw [cycles_eq_groups, mem_groups_iff]

lemma cycles_eq_nil_iff : g.cycles = [] ↔ ∀ m, ¬g.Reaches m m := by
  rw [List.eq_nil_iff_forall_not_mem]
  simp only [mem_cycles_iff]
  constructor
  · exact fun h m hm => h _ ⟨m, hm, rfl⟩
  · rintro h c ⟨m, hm, -⟩
    exact h m hm

lemma eq_of_mem_cycles {c d : ImportCycle} (hc : c ∈ g.cycles) (hd : d ∈ g.cycles)
    (hmc : m ∈ c.modules) (hmd : m ∈ d.modules) : c = d := by
  obtain ⟨k, -, rfl⟩ := mem_cycles_iff.mp hc
  obtain ⟨n, -, rfl⟩ := mem_cycles_iff.mp hd
  exact congrArg ImportCycle.mk ((companions_eq hmc).symm.trans (companions_eq hmd))

lemma share_cycle_iff :
    (∃ c ∈ g.cycles, m ∈ c.modules ∧ n ∈ c.modules) ↔ g.Reaches m n ∧ g.Reaches n m := by
  constructor
  · rintro ⟨c, hc, hm, hn⟩
    obtain ⟨k, -, rfl⟩ := mem_cycles_iff.mp hc
    obtain ⟨hkm, hmk⟩ := mem_companions_iff.mp hm
    obtain ⟨hkn, hnk⟩ := mem_companions_iff.mp hn
    exact ⟨hmk.trans hkn, hnk.trans hkm⟩
  · rintro ⟨hmn, hnm⟩
    have hm : g.Reaches m m := hmn.trans hnm
    exact ⟨⟨g.companions m⟩, mem_cycles_iff.mpr ⟨m, hm, rfl⟩, mem_companions_iff.mpr ⟨hm, hm⟩,
      mem_companions_iff.mpr ⟨hmn, hnm⟩⟩

/-- **Cycles.** The cycles are the components of the modules that reach themselves: two modules
share a cycle if each reaches the other. They are ascending, each within itself and all together,
and no module is in two of them. -/
theorem cycles_are_components (g : ImportGraph) :
    (∀ m, (∃ c ∈ g.cycles, m ∈ c.modules) ↔ g.Reaches m m) ∧
    (∀ m n, (∃ c ∈ g.cycles, m ∈ c.modules ∧ n ∈ c.modules) ↔ g.Reaches m n ∧ g.Reaches n m) ∧
    (∀ c ∈ g.cycles, c.modules ≠ [] ∧ c.modules.Pairwise (· < ·)) ∧
    g.cycles.Pairwise fun c d => c.modules < d.modules ∧ c.modules.Disjoint d.modules := by
  refine ⟨fun m => ?_, fun m n => share_cycle_iff, fun c hc => ?_, ?_⟩
  · have h := share_cycle_iff (g := g) (m := m) (n := m)
    simpa using h
  · obtain ⟨m, hm, rfl⟩ := mem_cycles_iff.mp hc
    exact ⟨List.ne_nil_of_mem (mem_companions_iff.mpr ⟨hm, hm⟩), g.companions_pairwise m⟩
  · rw [cycles_eq_groups]
    exact g.groups_pairwise

/-- Two modules that import each other, and one that imports itself and one of them. -/
def knot : ImportGraph :=
  ofModules "p" .all
    [(⟨["p", "a"]⟩, [⟨["p", "b"]⟩]), (⟨["p", "b"]⟩, [⟨["p", "a"]⟩, ⟨["os"]⟩]),
      (⟨["p", "c"]⟩, [⟨["p", "c"]⟩, ⟨["p", "a"]⟩])]

theorem cycles_knot :
    knot.cycles = [⟨["p.a", "p.b"]⟩, ⟨["p.c"]⟩] ∧ knot.Reaches "p.c" "p.c" ∧
      (knot.Reaches "p.a" "p.b" ∧ knot.Reaches "p.b" "p.a") ∧
      ¬(knot.Reaches "p.a" "p.c" ∧ knot.Reaches "p.c" "p.a") := by
  have hcycles : knot.cycles = [⟨["p.a", "p.b"]⟩, ⟨["p.c"]⟩] := by cbv
  obtain ⟨hself, hshare, -, -⟩ := cycles_are_components knot
  simp only [hcycles] at hself hshare
  refine ⟨hcycles, (hself _).mp (by simp), (hshare _ _).mp (by simp), fun h => ?_⟩
  simpa using (hshare _ _).mpr h

end ImportAtlas.ImportGraph
