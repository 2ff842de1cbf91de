import ImportAtlas.IndexedGraph
import ImportAtlas.Proofs.OrderedMap
import Mathlib.Data.List.Induction
import Mathlib.Data.List.Nodup

/-!
The numbers of the nodes while a graph is put together.

The table has the number of each node by its name and knows no other names, so no name comes twice.
Whatever is mentioned, this stays so, and all that is there keeps its number.
-/

namespace ImportAtlas

def IndexedGraph.index (g : IndexedGraph) (name : String) : Nat := g.nodes.idxOf name

namespace GraphBuilder

variable {b c : GraphBuilder} {a x : String} {i : ℕ}

/-- The table has a number for a name exactly if the node with that number has this name. -/
def Numbered (b : GraphBuilder) : Prop :=
  ∀ a i, b.numbers.find? a = some i ↔ b.graph.nodes[i]? = some a

/-- What has a number in the first builder has the same number in the second one. -/
def Keeps (b c : GraphBuilder) : Prop :=
  ∀ a i, b.numbers.find? a = some i → c.numbers.find? a = some i

lemma Keeps.refl (b : GraphBuilder) : b.Keeps b := fun _ _ => id

lemma Keeps.trans {d : GraphBuilder} (hbc : b.Keeps c) (hcd : c.Keeps d) : b.Keeps d :=
  fun a i h => hcd a i (hbc a i h)

lemma numbered_empty : Numbered {} := fun a i => by
  simp [OrderedMap.find?, OrderedMap.empty]

namespace Numbered

lemma mem_iff (h : b.Numbered) : a ∈ b.graph.nodes ↔ ∃ i, b.numbers.find? a = some i := by
  simp only [h a, List.mem_iff_getElem?]

lemma nodup (h : b.Numbered) : b.graph.nodes.Nodup := by
  refine List.nodup_iff_getElem?_ne_getElem?.mpr fun i j hij hj heq => ?_
  obtain ⟨a, ha⟩ : ∃ a, b.graph.nodes[j]? = some a := ⟨_, List.getElem?_eq_getElem hj⟩
  have hi := (h a i).mpr (heq.trans ha)
  rw [(h a j).mpr ha] at hi
  exact hij.ne (Option.some.inj hi).symm

/-- The number in the table is that of the first node with this name. -/
lemma index_eq (h : b.Numbered) (ha : b.numbers.find? a = some i) : b.graph.index a = i := by
  have hnode := (h a i).mp ha
  have hindex : b.graph.nodes[b.graph.index a]? = some a :=
    List.getElem?_idxOf (List.mem_of_getElem? hnode)
  rw [← h a, ha] at hindex
  exact (Option.some.inj hindex).symm

lemma find?_eq (h : b.Numbered) (ha : a ∈ b.graph.nodes) :
    b.numbers.find? a = some (b.graph.index a) := by
  obtain ⟨i, hi⟩ := h.mem_iff.mp ha
  rw [hi, h.index_eq hi]

end Numbered

/-! ### One mention -/

lemma node_old (h : b.numbers.find? a = some i) : b.node a = (i, b) := by
  rw [node, h]

lemma node_new (h : b.numbers.find? a = none) :
    b.node a = (b.graph.nodes.length, ⟨⟨b.graph.nodes ++ [a], b.graph.edges⟩,
      b.numbers.insert a b.graph.nodes.length⟩) := by
  rw [node, h]

/-- The number that is given back is that of the name from now on. -/
lemma find?_node (b : GraphBuilder) (a : String) :
    (b.node a).2.numbers.find? a = some (b.node a).1 := by
  cases h : b.numbers.find? a with
  | some i => rw [node_old h, h]
  | none => rw [node_new h, OrderedMap.find?_insert, if_pos rfl]

lemma edges_node (b : GraphBuilder) (a : String) : (b.node a).2.graph.edges = b.graph.edges := by
  cases h : b.numbers.find? a with
  | some i => rw [node_old h]
  | none => rw [node_new h]

lemma keeps_node (b : GraphBuilder) (a : String) : b.Keeps (b.node a).2 := by
  cases h : b.numbers.find? a with
  | some i =>
    rw [node_old h]
    exact .refl b
  | none =>
    intro x i hx
    have hne : x ≠ a := by
      rintro rfl
      rw [h] at hx
      cases hx
    rw [node_new h, OrderedMap.find?_insert, if_neg hne]
    exact hx

lemma Numbered.node (h : b.Numbered) (a : String) : (b.node a).2.Numbered := by
  cases ha : b.numbers.find? a with
  | some i =>
    rw [node_old ha]
    exact h
  | none =>
    intro x i
    -- the new node is the last one
    have hlast : (b.graph.nodes ++ [a])[i]? = some x ↔
        b.graph.nodes[i]? = some x ∨ x = a ∧ i = b.graph.nodes.length := by
      rcases lt_trichotomy i b.graph.nodes.length with hi | rfl | hi
      · rw [List.getElem?_append_left hi]
        simp [hi.ne]
      · simp [eq_comm]
      · rw [List.getElem?_eq_none (by simpa using Nat.succ_le_of_lt hi),
          List.getElem?_eq_none hi.le]
        simp [hi.ne']
    rw [node_new ha, OrderedMap.find?_insert, hlast, ← h x i]
    by_cases hx : x = a
    · simp [hx, ha, eq_comm]
    · simp [hx]

lemma Numbered.nodes_node_old (h : b.Numbered) (ha : a ∈ b.graph.nodes) :
    (b.node a).2.graph.nodes = b.graph.nodes := by
  rw [node_old (h.find?_eq ha)]

lemma Numbered.nodes_node_new (h : b.Numbered) (ha : a ∉ b.graph.nodes) :
    (b.node a).2.graph.nodes = b.graph.nodes ++ [a] := by
  rw [node_new (Option.eq_none_iff_forall_ne_some.mpr fun i hi => ha (h.mem_iff.mpr ⟨i, hi⟩))]

lemma Numbered.index_node (h : b.Numbered) (hx : x ∈ b.graph.nodes) :
    (b.node a).2.graph.index x = b.graph.index x :=
  (h.node a).index_eq (keeps_node b a _ _ (h.find?_eq hx))

/-- The builder with the nodes of an edge, and the edge as a pair of their numbers. -/
lemma Numbered.edge_eq (h : b.Numbered) (source target : String) :
    b.edge source target =
      let c := ((b.node source).2.node target).2
      let edge := (c.graph.index source, c.graph.index target)
      if edge ∈ c.graph.edges then c
      else { c with graph := { c.graph with edges := c.graph.edges ++ [edge] } } := by
  have hboth := (h.node source).node target
  have hsource : ((b.node source).2.node target).2.graph.index source = (b.node source).1 :=
    hboth.index_eq (keeps_node _ target _ _ (find?_node b source))
  have htarget : ((b.node source).2.node target).2.graph.index target =
      ((b.node source).2.node target).1 := hboth.index_eq (find?_node _ target)
  dsimp only
  rw [hsource, htarget]
  rfl

/-- An edge adds nothing else than the nodes at its ends. -/
lemma edge_ends (b : GraphBuilder) (source target : String) :
    (b.edge source target).numbers = ((b.node source).2.node target).2.numbers ∧
      (b.edge source target).graph.nodes = ((b.node source).2.node target).2.graph.nodes := by
  unfold edge
  dsimp only
  split <;> exact ⟨rfl, rfl⟩

lemma Numbered.edge (h : b.Numbered) (source target : String) :
    (b.edge source target).Numbered := by
  obtain ⟨hnumbers, hnodes⟩ := edge_ends b source target
  intro a i
  rw [hnumbers, hnodes]
  exact (h.node source).node target a i

lemma keeps_edge (b : GraphBuilder) (source target : String) : b.Keeps (b.edge source target) := by
  intro a i ha
  rw [(edge_ends b source target).1]
  exact (keeps_node b source).trans (keeps_node _ target) a i ha

lemma Numbered.mention (h : b.Numbered) (m : Mention) : (b.mention m).Numbered := by
  cases m with
  | node name => exact h.node name
  | edge source target => exact h.edge source target

lemma keeps_mention (b : GraphBuilder) (m : Mention) : b.Keeps (b.mention m) := by
  cases m with
  | node name => exact keeps_node b name
  | edge source target => exact keeps_edge b source target

/-! ### All mentions -/

variable {ms : List Mention}

lemma ofMentions_concat (ms : List Mention) (m : Mention) :
    ofMentions (ms ++ [m]) = (ofMentions ms).mention m := by
  rw [ofMentions, List.foldl_append]
  rfl

lemma numbered_ofMentions (ms : List Mention) : (ofMentions ms).Numbered := by
  induction ms using List.reverseRecOn with
  | nil => exact numbered_empty
  | append_singleton ms m ih =>
    rw [ofMentions_concat]
    exact ih.mention m

lemma keeps_ofMentions (ms more : List Mention) :
    (ofMentions ms).Keeps (ofMentions (ms ++ more)) := by
  induction more using List.reverseRecOn with
  | nil =>
    rw [List.append_nil]
    exact .refl _
  | append_singleton more m ih =>
    rw [← List.append_assoc, ofMentions_concat]
    exact ih.trans (keeps_mention _ m)

end GraphBuilder

end ImportAtlas
