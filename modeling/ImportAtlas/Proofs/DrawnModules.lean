import ImportAtlas.Proofs.Assembly
import ImportAtlas.Proofs.FirstMention
import ImportAtlas.Proofs.NamePrefix

/-!
What is drawn of an import graph.

The package comes first, then the modules within it in ascending order, and then what lies outside
of it and imports from it. Each import of a module within the package is one edge, and there are no
others.
-/

namespace ImportAtlas.ImportGraph

variable {g : ImportGraph} {k v x : String}

/-! ### Imports in their order -/

lemma pairs_pairwise (g : ImportGraph) :
    g.pairs.Pairwise fun a b => a.1 < b.1 ∨ a.1 = b.1 ∧ a.2 < b.2 := by
  refine List.pairwise_flatMap.mpr ⟨fun entry _ => ?_, ?_⟩
  · exact List.pairwise_map.mpr (entry.2.ascending.imp fun hlt => .inr ⟨rfl, hlt⟩)
  · refine g.table.ascending.imp fun hlt a ha b hb => ?_
    obtain ⟨-, -, rfl⟩ := List.mem_map.mp ha
    obtain ⟨-, -, rfl⟩ := List.mem_map.mp hb
    exact .inl hlt

/-- The imports that are drawn: those of modules within the package. -/
def drawnPairs (g : ImportGraph) : List (String × String) :=
  g.pairs.filter fun pair => g.isInternal pair.2

lemma drawnPairs_pairwise (g : ImportGraph) :
    g.drawnPairs.Pairwise fun a b => a.1 < b.1 ∨ a.1 = b.1 ∧ a.2 < b.2 :=
  g.pairs_pairwise.filter _

lemma mem_drawnPairs_iff : (k, v) ∈ g.drawnPairs ↔ g.Imports k v ∧ g.isInternal v = true := by
  rw [drawnPairs, List.mem_filter, mem_pairs_iff]

lemma nodup_pairs (g : ImportGraph) : g.pairs.Nodup := by
  refine g.pairs_pairwise.imp ?_
  rintro a _ (hlt | ⟨-, hlt⟩) rfl
  · exact String.lt_irrefl _ hlt
  · exact String.lt_irrefl _ hlt

/-! ### Nodes in their order -/

def imports (g : ImportGraph) (name : String) : List String :=
  ((g.importsOf? name).getD .empty).toList

lemma mem_imports_iff : v ∈ g.imports k ↔ g.Imports k v := by
  unfold imports importsOf? Imports ImportTable.Lists
  cases g.table.find? k with
  | none => simp [OrderedSet.empty]
  | some names => simp [OrderedSet.mem_def]

/-- The modules within the package, itself left out. -/
def inside (g : ImportGraph) : List String :=
  g.nodes.toList.filter fun name => name != g.rootName && g.isInternal name

/-- The importers outside of the package that import a module within it. -/
def outside (g : ImportGraph) : List String :=
  g.importers.filter fun name => !g.isInternal name && (g.imports name).any g.isInternal

lemma isInternal_rootName (g : ImportGraph) : g.isInternal g.rootName = true :=
  isWithin_iff.mpr (.inl rfl)

lemma inside_pairwise (g : ImportGraph) : g.inside.Pairwise (· < ·) := g.nodes.ascending.filter _

lemma outside_pairwise (g : ImportGraph) : g.outside.Pairwise (· < ·) :=
  (OrderedMap.keys_pairwise g.table).filter _

lemma mem_inside_iff : x ∈ g.inside ↔ x ∈ g.nodes ∧ x ≠ g.rootName ∧ g.isInternal x = true := by
  simp [inside, OrderedSet.mem_def]

lemma mem_outside_iff :
    x ∈ g.outside ↔ g.isInternal x = false ∧ ∃ v, g.Imports x v ∧ g.isInternal v = true := by
  rw [outside, List.mem_filter, Bool.and_eq_true, Bool.not_eq_true', List.any_eq_true]
  simp only [mem_imports_iff]
  constructor
  · exact And.right
  · rintro ⟨hx, v, himport, hv⟩
    exact ⟨mem_importers_of_imports himport, hx, v, himport, hv⟩

def drawnEnds (g : ImportGraph) : List String :=
  (g.drawnPairs.map Prod.swap).flatMap fun pair => [pair.1, pair.2]

lemma mem_nodes_of_mem_drawnEnds (h : x ∈ g.drawnEnds) : x ∈ g.nodes := by
  obtain ⟨pair, hpair, hx⟩ := List.mem_flatMap.mp h
  obtain ⟨⟨k, v⟩, hkv, rfl⟩ := List.mem_map.mp hpair
  have himport := (mem_drawnPairs_iff.mp hkv).1
  simp only [Prod.fst_swap, Prod.snd_swap, List.mem_cons, List.not_mem_nil, or_false] at hx
  obtain ⟨hk, hv⟩ := mem_nodes_of_imports himport
  rcases hx with rfl | rfl
  · exact hv
  · exact hk

/-- What lies outside of the package among the ends are importers. -/
lemma filter_drawnEnds (g : ImportGraph) :
    (g.drawnEnds.filter fun name => !g.isInternal name) =
      (g.drawnPairs.map (·.1)).filter fun name => !g.isInternal name := by
  have hinternal : ∀ pair ∈ g.drawnPairs, g.isInternal pair.2 = true := fun pair hpair =>
    (mem_drawnPairs_iff.mp hpair).2
  unfold drawnEnds
  generalize g.drawnPairs = pairs at hinternal ⊢
  induction pairs with
  | nil => rfl
  | cons pair pairs ih =>
    rw [List.forall_mem_cons] at hinternal
    simp [List.filter_cons, hinternal.1, ih hinternal.2]

/-- The ends outside of the package, each at its first mention, come in ascending order. -/
lemma eraseDups_drawnEnds (g : ImportGraph) :
    (g.drawnEnds.filter fun name => !g.isInternal name).eraseDups = g.outside := by
  have hantisymm : Std.Antisymm fun a b : String => a < b :=
    ⟨fun a _ hab hba => absurd (String.lt_trans hab hba) (String.lt_irrefl a)⟩
  rw [filter_drawnEnds]
  set ends := (g.drawnPairs.map (·.1)).filter fun name => !g.isInternal name with hends
  have hsorted : ends.Pairwise fun a b => a < b ∨ a = b :=
    (List.pairwise_map.mpr (g.drawnPairs_pairwise.imp fun h => h.imp_right And.left)).filter _
  have hascending : ends.eraseDups.Pairwise (· < ·) :=
    (hsorted.sublist (eraseDups_sublist _)).imp₂ (fun _ _ => Or.resolve_right) (nodup_eraseDups _)
  refine hascending.eq_of_mem_iff g.outside_pairwise fun x => ?_
  rw [List.mem_eraseDups, mem_outside_iff, hends, List.mem_filter, List.mem_map]
  simp [mem_drawnPairs_iff, and_comm]

/-- The names that were mentioned for the drawing, with the imports that were. -/
lemma drawnGraph_records (g : ImportGraph) :
    g.drawnGraph.Records
      (g.rootName :: (g.nodes.toList.filter g.isInternal ++ g.drawnEnds))
      (g.drawnPairs.map Prod.swap) := by
  have h := GraphBuilder.records_nodes_edges (g.rootName :: g.nodes.toList.filter g.isInternal)
    (g.drawnPairs.map Prod.swap)
  rwa [List.map_map] at h

lemma nodes_drawnGraph (g : ImportGraph) :
    g.drawnGraph.nodes = g.rootName :: (g.inside ++ g.outside) := by
  have hinside : (g.nodes.toList.filter g.isInternal).filter (fun b => !b == g.rootName) =
      g.inside := by
    rw [List.filter_filter]
    rfl
  have hothers : (g.drawnEnds.filter fun b => !b == g.rootName).removeAll g.inside =
      g.drawnEnds.filter fun name => !g.isInternal name := by
    rw [List.removeAll, List.filter_filter]
    refine List.filter_congr fun x hx => ?_
    have hnode := mem_nodes_of_mem_drawnEnds hx
    by_cases hroot : x = g.rootName
    · simp [hroot, isInternal_rootName]
    · cases hinternal : g.isInternal x <;> simp [mem_inside_iff, hnode, hroot, hinternal]
  rw [g.drawnGraph_records.nodes, List.eraseDups_cons, List.filter_append, List.eraseDups_append,
    hinside, hothers, eraseDups_drawnEnds,
    eraseDups_of_nodup (g.inside_pairwise.imp fun h => String.ne_of_lt h)]

/-- The nodes are the package, what is in the graph and within the package, and the importers
outside of it. -/
lemma mem_nodes_drawnGraph :
    x ∈ g.drawnGraph.nodes ↔
      x = g.rootName ∨ (x ∈ g.nodes ∧ g.isInternal x = true) ∨ x ∈ g.outside := by
  rw [nodes_drawnGraph, List.mem_cons, List.mem_append, mem_inside_iff]
  by_cases hroot : x = g.rootName <;> simp [hroot]

/-! ### Edges -/

lemma arrows_drawnGraph (g : ImportGraph) :
    g.drawnGraph.arrows = g.drawnPairs.map fun pair => (some pair.2, some pair.1) := by
  have hnodup : (g.drawnPairs.map Prod.swap).Nodup :=
    (g.nodup_pairs.filter _).map Prod.swap_injective
  rw [g.drawnGraph_records.arrows_eq, eraseDups_of_nodup hnodup, List.map_map]
  rfl

lemma moduleGraph_records (g : ImportGraph) :
    g.moduleGraph.Records (g.nodes.toList ++ g.pairs.flatMap fun pair => [pair.1, pair.2])
      g.pairs :=
  GraphBuilder.records_nodes_edges g.nodes.toList g.pairs

lemma arrows_moduleGraph (g : ImportGraph) :
    g.moduleGraph.arrows = g.pairs.map fun pair => (some pair.1, some pair.2) := by
  rw [g.moduleGraph_records.arrows_eq, eraseDups_of_nodup g.nodup_pairs]

lemma length_edges_drawnGraph (g : ImportGraph) :
    g.drawnGraph.edges.length = g.drawnPairs.length := by
  rw [← IndexedGraph.length_arrows, arrows_drawnGraph, List.length_map]

/-- **The drawing.** The nodes are the package, then the other modules of the graph within it in
ascending order, and then in ascending order the importers outside of it that import a module within
it. No name is there twice. The edges lead to importers from what they import, one for each import
of a module within the package, in the order of the importers and then of what they import. So they
are those edges of the whole graph that lead into the package, turned round, and as many. -/
theorem drawnGraph_spec (g : ImportGraph) :
    g.drawnGraph.nodes = g.rootName :: (g.inside ++ g.outside) ∧
    g.inside.Pairwise (· < ·) ∧ g.outside.Pairwise (· < ·) ∧ g.drawnGraph.nodes.Nodup ∧
    g.drawnGraph.arrows = g.drawnPairs.map (fun pair => (some pair.2, some pair.1)) ∧
    g.drawnPairs.Pairwise (fun a b => a.1 < b.1 ∨ a.1 = b.1 ∧ a.2 < b.2) ∧
    (∀ k v, (k, v) ∈ g.drawnPairs ↔ g.Imports k v ∧ g.isInternal v = true) ∧
    g.drawnGraph.edges.Nodup ∧
    (∀ m n, (some n, some m) ∈ g.drawnGraph.arrows ↔
      (some m, some n) ∈ g.moduleGraph.arrows ∧ g.isInternal n = true) ∧
    g.drawnGraph.edges.length = g.pairs.countP fun pair => g.isInternal pair.2 := by
  refine ⟨g.nodes_drawnGraph, g.inside_pairwise, g.outside_pairwise, g.drawnGraph_records.nodup,
    g.arrows_drawnGraph, g.drawnPairs_pairwise, fun k v => mem_drawnPairs_iff,
    g.drawnGraph_records.nodup_edges, fun m n => ?_, ?_⟩
  · rw [arrows_drawnGraph, arrows_moduleGraph, List.mem_map, List.mem_map]
    simp [mem_drawnPairs_iff, mem_pairs_iff]
  · rw [length_edges_drawnGraph, List.countP_eq_length_filter]
    rfl

/-- An importer outside of the package, between the package and a module that imports itself. -/
example :
    let g := ofModules "p" .all [(⟨["o"]⟩, [⟨["p", "a"]⟩, ⟨["o"]⟩]), (⟨["p", "a"]⟩, [⟨["p", "a"]⟩])]
    g.drawnGraph = ⟨["p", "p.a", "o"], [(1, 2), (1, 1)]⟩ := by
  decide +kernel

end ImportAtlas.ImportGraph
