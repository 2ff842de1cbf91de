import ImportAtlas.Proofs.IndexedGraph
import Mathlib.Data.List.Nodup

/-!
Graphs with numbered nodes as records of what was mentioned.

However nodes and edges are added to a graph, its nodes are the names that were mentioned and its
edges the pairs that were, each once and in the order of their first mention.
-/

namespace ImportAtlas

/-! ### Lists without what was there before -/

section EraseDups

variable {α : Type} [BEq α] [LawfulBEq α] {l : List α} {a : α}

omit [LawfulBEq α] in
lemma eraseDups_sublist : (l : List α) → l.eraseDups.Sublist l
  | [] => List.Sublist.refl _
  | a :: l => by
    rw [List.eraseDups_cons]
    exact ((eraseDups_sublist _).trans List.filter_sublist).cons_cons a
termination_by l => l.length
decreasing_by exact Nat.lt_succ_of_le (List.length_filter_le ..)

lemma nodup_eraseDups : (l : List α) → l.eraseDups.Nodup
  | [] => List.nodup_nil
  | a :: l => by
    rw [List.eraseDups_cons, List.nodup_cons]
    exact ⟨by simp, nodup_eraseDups _⟩
termination_by l => l.length
decreasing_by exact Nat.lt_succ_of_le (List.length_filter_le ..)

lemma eraseDups_of_nodup (h : l.Nodup) : l.eraseDups = l := by
  induction l with
  | nil => rfl
  | cons a l ih =>
    rw [List.nodup_cons] at h
    have hothers : l.filter (fun b => !b == a) = l := by
      refine List.filter_eq_self.mpr fun b hb => ?_
      have hne : b ≠ a := fun heq => h.1 (heq ▸ hb)
      simp [hne]
    rw [List.eraseDups_cons, hothers, ih h.2]

lemma eraseDups_append_old (h : a ∈ l) : (l ++ [a]).eraseDups = l.eraseDups := by
  simp [List.eraseDups_append, List.removeAll, h]

lemma eraseDups_append_new (h : a ∉ l) : (l ++ [a]).eraseDups = l.eraseDups ++ [a] := by
  simp [List.eraseDups_append, List.removeAll, h, eraseDups_of_nodup (List.nodup_singleton a)]

end EraseDups

namespace IndexedGraph

variable {g : IndexedGraph} {names : List String} {pairs : List (String × String)}
variable {a source target : String}

def arrows (g : IndexedGraph) : List (Option String × Option String) :=
  g.edges.map fun edge => (g.nodes[edge.1]?, g.nodes[edge.2]?)

lemma length_arrows (g : IndexedGraph) : g.arrows.length = g.edges.length := List.length_map _

/-- The nodes of the graph are the names of a list and its edges the pairs of another list, in the
order of their first mention. -/
structure Records (g : IndexedGraph) (names : List String) (pairs : List (String × String)) :
    Prop where
  nodes : g.nodes = names.eraseDups
  ends : ∀ p ∈ pairs, p.1 ∈ names ∧ p.2 ∈ names
  edges : g.edges = pairs.eraseDups.map fun p => (g.index p.1, g.index p.2)

lemma records_empty : Records {} [] [] where
  nodes := rfl
  ends := by simp
  edges := rfl

namespace Records

lemma mem_nodes (h : g.Records names pairs) : a ∈ g.nodes ↔ a ∈ names := by
  rw [h.nodes, List.mem_eraseDups]

lemma nodup (h : g.Records names pairs) : g.nodes.Nodup := h.nodes ▸ nodup_eraseDups names

lemma index_inj (h : g.Records names pairs) (ha : a ∈ names) {b : String} :
    g.index a = g.index b ↔ a = b :=
  List.idxOf_inj (h.mem_nodes.mpr ha)

lemma mem_edges (h : g.Records names pairs) (hsource : source ∈ names) (htarget : target ∈ names) :
    (g.index source, g.index target) ∈ g.edges ↔ (source, target) ∈ pairs := by
  rw [h.edges, List.mem_map]
  constructor
  · rintro ⟨p, hp, heq⟩
    obtain ⟨h1, h2⟩ := Prod.mk.inj heq
    obtain rfl := (h.index_inj hsource).mp h1.symm
    obtain rfl := (h.index_inj htarget).mp h2.symm
    exact List.mem_eraseDups.mp hp
  · exact fun hp => ⟨_, List.mem_eraseDups.mpr hp, rfl⟩

/-- The numbers at the ends of the edges are those of the names that were mentioned. -/
lemma arrows_eq (h : g.Records names pairs) :
    g.arrows = pairs.eraseDups.map fun p => (some p.1, some p.2) := by
  rw [arrows, h.edges, List.map_map]
  refine List.map_congr_left fun p hp => ?_
  have hp := h.ends p (List.mem_eraseDups.mp hp)
  exact Prod.ext (List.getElem?_idxOf (h.mem_nodes.mpr hp.1))
    (List.getElem?_idxOf (h.mem_nodes.mpr hp.2))

lemma lt_length (h : g.Records names pairs) {e : ℕ × ℕ} (he : e ∈ g.edges) :
    e.1 < g.nodes.length ∧ e.2 < g.nodes.length := by
  rw [h.edges, List.mem_map] at he
  obtain ⟨p, hp, rfl⟩ := he
  have hp := h.ends p (List.mem_eraseDups.mp hp)
  exact ⟨List.idxOf_lt_length_iff.mpr (h.mem_nodes.mpr hp.1),
    List.idxOf_lt_length_iff.mpr (h.mem_nodes.mpr hp.2)⟩

lemma nodup_edges (h : g.Records names pairs) : g.edges.Nodup := by
  rw [h.edges]
  refine (nodup_eraseDups pairs).map_on fun p hp q hq heq => ?_
  obtain ⟨h1, h2⟩ := Prod.mk.inj heq
  have hp := h.ends p (List.mem_eraseDups.mp hp)
  exact Prod.ext ((h.index_inj hp.1).mp h1) ((h.index_inj hp.2).mp h2)

end Records

end IndexedGraph

/-! ### What was mentioned -/

def Mention.names : Mention → List String
  | node name => [name]
  | edge source target => [source, target]

def Mention.pair? : Mention → Option (String × String)
  | node _ => none
  | edge source target => some (source, target)

namespace GraphBuilder

open IndexedGraph

variable {b : GraphBuilder} {names : List String} {pairs : List (String × String)}

lemma records_node (hb : b.Numbered) (h : b.graph.Records names pairs) (a : String) :
    (b.node a).2.graph.Records (names ++ [a]) pairs where
  nodes := by
    by_cases ha : a ∈ b.graph.nodes
    · rw [hb.nodes_node_old ha, eraseDups_append_old (h.mem_nodes.mp ha)]
      exact h.nodes
    · rw [hb.nodes_node_new ha, eraseDups_append_new fun hmem => ha (h.mem_nodes.mpr hmem),
        ← h.nodes]
  ends p hp :=
    ⟨List.mem_append_left _ (h.ends p hp).1, List.mem_append_left _ (h.ends p hp).2⟩
  edges := by
    rw [edges_node, h.edges]
    refine List.map_congr_left fun p hp => ?_
    have hp := h.ends p (List.mem_eraseDups.mp hp)
    rw [hb.index_node (h.mem_nodes.mpr hp.1), hb.index_node (h.mem_nodes.mpr hp.2)]

lemma records_edge (hb : b.Numbered) (h : b.graph.Records names pairs) (source target : String) :
    (b.edge source target).graph.Records (names ++ [source, target])
      (pairs ++ [(source, target)]) := by
  -- the ends of the edge are mentioned first, and then they have numbers
  have hboth := records_node (hb.node source) (records_node hb h source) target
  rw [List.append_assoc, List.singleton_append] at hboth
  have hsource : source ∈ names ++ [source, target] := by simp
  have htarget : target ∈ names ++ [source, target] := by simp
  have hmem := hboth.mem_edges hsource htarget
  have hends : ∀ p ∈ pairs ++ [(source, target)],
      p.1 ∈ names ++ [source, target] ∧ p.2 ∈ names ++ [source, target] := by
    intro p hp
    rcases List.mem_append.mp hp with hp | hp
    · exact hboth.ends p hp
    · obtain rfl := List.mem_singleton.mp hp
      exact ⟨hsource, htarget⟩
  rw [hb.edge_eq]
  dsimp only
  split
  · rename_i hold
    refine ⟨hboth.nodes, hends, ?_⟩
    rw [eraseDups_append_old (hmem.mp hold)]
    exact hboth.edges
  · rename_i hnew
    refine ⟨hboth.nodes, hends, ?_⟩
    rw [eraseDups_append_new fun hp => hnew (hmem.mpr hp), List.map_append, hboth.edges]
    rfl

lemma records_mention (hb : b.Numbered) (h : b.graph.Records names pairs) (m : Mention) :
    (b.mention m).graph.Records (names ++ m.names) (pairs ++ m.pair?.toList) := by
  cases m with
  | node name =>
    rw [Mention.pair?, Option.toList_none, List.append_nil]
    exact records_node hb h name
  | edge source target => exact records_edge hb h source target

/-- The graph records what was mentioned. -/
lemma records_ofMentions (ms : List Mention) :
    (ofMentions ms).graph.Records (ms.flatMap Mention.names) (ms.filterMap Mention.pair?) := by
  induction ms using List.reverseRecOn with
  | nil => exact records_empty
  | append_singleton ms m ih =>
    have hpairs : [m].filterMap Mention.pair? = m.pair?.toList := by
      cases m <;> rfl
    rw [ofMentions_concat, List.flatMap_append, List.flatMap_singleton, List.filterMap_append,
      hpairs]
    exact records_mention (numbered_ofMentions ms) ih m

/-- If nodes are mentioned before edges, they come first. -/
lemma records_nodes_edges (names : List String) (pairs : List (String × String)) :
    (ofMentions (names.map .node ++ pairs.map fun p => .edge p.1 p.2)).graph.Records
      (names ++ pairs.flatMap fun p => [p.1, p.2]) pairs := by
  have h := records_ofMentions (names.map .node ++ pairs.map fun p => .edge p.1 p.2)
  simpa [List.flatMap_map, List.filterMap_map, Function.comp_def, Mention.names, Mention.pair?]
    using h

/-- **Putting a graph together.** Whatever was mentioned, no two nodes have the same name, and the
table has a number for a name exactly if the node with that number has this name. The nodes are the
names that were mentioned, in the order of their first mention; the edges are the pairs that were,
each once, in the order of their first mention, between nodes that are there. Who mentions a node is
given its number, and a name keeps its number, whatever else is mentioned later. -/
theorem ofMentions_spec (ms : List Mention) :
    let b := ofMentions ms
    b.graph.nodes.Nodup ∧
    (∀ a i, b.numbers.find? a = some i ↔ b.graph.nodes[i]? = some a) ∧
    b.graph.nodes = (ms.flatMap Mention.names).eraseDups ∧
    b.graph.arrows =
      (ms.filterMap Mention.pair?).eraseDups.map (fun p => (some p.1, some p.2)) ∧
    b.graph.edges.Nodup ∧
    (∀ e ∈ b.graph.edges, e.1 < b.graph.nodes.length ∧ e.2 < b.graph.nodes.length) ∧
    (∀ a, (b.node a).2.numbers.find? a = some (b.node a).1) ∧
    ∀ more a i, b.numbers.find? a = some i →
      (ofMentions (ms ++ more)).numbers.find? a = some i := by
  intro b
  have hrecords := records_ofMentions ms
  exact ⟨hrecords.nodup, numbered_ofMentions ms, hrecords.nodes, hrecords.arrows_eq,
    hrecords.nodup_edges, fun e he => hrecords.lt_length he, find?_node b, keeps_ofMentions ms⟩

/-- A loop, a node and an edge that were mentioned before, and a new node behind them. -/
theorem ofMentions_again :
    let ms := [Mention.edge "b" "a", .node "b", .edge "a" "a", .edge "b" "a"]
    (ofMentions ms).graph = ⟨["b", "a"], [(0, 1), (1, 1)]⟩ ∧
    (ofMentions ms).numbers.find? "b" = some 0 ∧
    (ofMentions (ms ++ [.edge "c" "b"])).numbers.find? "b" = some 0 := by
  intro ms
  have hb : (ofMentions ms).numbers.find? "b" = some 0 := by decide +kernel
  obtain ⟨-, -, -, -, -, -, -, hlater⟩ := ofMentions_spec ms
  exact ⟨by decide +kernel, hb, hlater _ _ _ hb⟩

end GraphBuilder

end ImportAtlas
