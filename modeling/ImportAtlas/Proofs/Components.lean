import ImportAtlas.ImportCycle
import Mathlib.Data.List.Induction
import Mathlib.Data.List.Nodup
import Mathlib.Data.List.Perm.Subperm
import Mathlib.Logic.Relation

/-!
The search for components is right.

Of two nodes on the stack the lower one leads to the other. While the edges of a node are followed,
everything on the stack leads to that node, and every edge that was followed ends in a component or
on the stack, not below the lowest number found. So if that is the number of the node itself, no
edge leads out of what lies there and above it but into components, and these nodes are one more.
-/

namespace ImportAtlas.ComponentSearch

variable {next : ℕ → List ℕ} {s t : ComponentSearch} {n low low' number : ℕ} {u v w p : ℕ}
variable {l above below added : List ℕ}

def Connects (next : ℕ → List ℕ) : ℕ → ℕ → Prop := Relation.ReflTransGen fun v w => w ∈ next v

lemma mem_of_connects (hclosed : ∀ v ∈ l, ∀ w ∈ next v, w ∈ l) (hv : v ∈ l)
    (hvw : Connects next v w) : w ∈ l := by
  induction hvw with
  | refl => exact hv
  | tail _ hstep ih => exact hclosed _ ih _ hstep

/-! ### Numbers on the stack -/

lemma number?_eq_none_iff : number? l v = none ↔ v ∉ l := by
  induction l with
  | nil => simp [number?]
  | cons top below ih =>
    unfold number?
    split
    · next h => simp [h]
    · next h => simp [ih, Ne.symm h]

lemma mem_of_number? (h : number? l v = some number) : v ∈ l := by
  by_contra hv
  rw [number?_eq_none_iff.mpr hv] at h
  cases h

lemma number?_lt (h : number? l v = some number) : number < l.length := by
  induction l with
  | nil => cases h
  | cons top below ih =>
    unfold number? at h
    split at h
    · cases h
      exact Nat.lt_succ_self _
    · exact Nat.lt_succ_of_lt (ih h)

lemma number?_append_of_notMem (h : v ∉ above) : number? (above ++ below) v = number? below v := by
  induction above with
  | nil => rfl
  | cons top above ih =>
    rw [List.mem_cons, not_or] at h
    rw [List.cons_append, number?, if_neg (Ne.symm h.1), ih h.2]

lemma le_number?_append (below : List ℕ) (h : v ∈ above) :
    ∃ number, number? (above ++ below) v = some number ∧ below.length ≤ number := by
  induction above with
  | nil => cases h
  | cons top above ih =>
    rw [List.cons_append, number?]
    split
    · exact ⟨_, rfl, by simp⟩
    · next hne => exact ih (List.mem_of_ne_of_mem (Ne.symm hne) h)

/-! ### What is visited -/

lemma isDone_iff : s.isDone v = true ↔ v ∈ s.components.flatten := by
  simp [isDone]

def visited (s : ComponentSearch) : List ℕ := s.stack ++ s.components.flatten

/-- The second search has gone on from the first one: `added` came onto the stack, and what was in a
component is still in it. -/
structure Extends (s t : ComponentSearch) (added : List ℕ) : Prop where
  stack : t.stack = added ++ s.stack
  components : s.components <:+ t.components

namespace Extends

variable {r : ComponentSearch} {more : List ℕ}

lemma refl (s : ComponentSearch) : s.Extends s [] := ⟨rfl, List.suffix_rfl⟩

lemma trans (hst : s.Extends t added) (htr : t.Extends r more) : s.Extends r (more ++ added) :=
  ⟨by rw [htr.stack, hst.stack, List.append_assoc], hst.components.trans htr.components⟩

lemma mem_done (h : s.Extends t added) (hv : v ∈ s.components.flatten) :
    v ∈ t.components.flatten := by
  obtain ⟨c, hc, hv⟩ := List.mem_flatten.mp hv
  exact List.mem_flatten.mpr ⟨c, h.components.subset hc, hv⟩

lemma length_visited_le (h : s.Extends t added) : s.visited.length ≤ t.visited.length := by
  obtain ⟨new, hnew⟩ := h.components
  simp only [visited, h.stack, ← hnew, List.flatten_append, List.length_append]
  omega

/-- As the search goes on, nodes keep their numbers until they are in a component. -/
lemma number? (h : s.Extends t added) (ht : t.visited.Nodup)
    (hv : number? s.stack v = some number) : number? t.stack v = some number := by
  have hstack := (List.nodup_append.mp ht).1
  rw [h.stack] at hstack ⊢
  have hnew : v ∉ added := fun hmem =>
    (List.nodup_append.mp hstack).2.2 v hmem v (mem_of_number? hv) rfl
  rw [number?_append_of_notMem hnew, hv]

end Extends

/-- The node is in a component, or on the stack with a number that is not below `low`. -/
def Settled (s : ComponentSearch) (low v : ℕ) : Prop :=
  v ∈ s.components.flatten ∨ ∃ number, number? s.stack v = some number ∧ low ≤ number

lemma Settled.mono (h : s.Settled low v) (hst : s.Extends t added) (ht : t.visited.Nodup)
    (hlow : low' ≤ low) : t.Settled low' v := by
  rcases h with h | ⟨number, hnumber, hle⟩
  · exact .inl (hst.mem_done h)
  · exact .inr ⟨number, hst.number? ht hnumber, Nat.le_trans hlow hle⟩

/-! ### What holds all the time -/

def IsComponent (next : ℕ → List ℕ) (c : List ℕ) : Prop :=
  c ≠ [] ∧ ∀ v ∈ c, ∀ w, w ∈ c ↔ Connects next v w ∧ Connects next w v

/-- What every search keeps, over a graph with the nodes below `n`. -/
structure Valid (next : ℕ → List ℕ) (n : ℕ) (s : ComponentSearch) : Prop where
  nodup : s.visited.Nodup
  lt : ∀ v ∈ s.visited, v < n
  /-- No edge leads out of the components. -/
  closed : ∀ v ∈ s.components.flatten, ∀ w ∈ next v, w ∈ s.components.flatten
  right : ∀ c ∈ s.components, IsComponent next c
  /-- What was visited earlier leads to what came later. -/
  ordered : s.stack.Pairwise fun later earlier => Connects next earlier later

namespace Valid

lemma empty : Valid next n {} where
  nodup := List.nodup_nil
  lt := by simp [visited]
  closed := by simp
  right := by simp
  ordered := .nil

lemma length_visited_le (h : s.Valid next n) : s.visited.length ≤ n := by
  have hsub : s.visited ⊆ List.range n := fun v hv => List.mem_range.mpr (h.lt v hv)
  simpa using (h.nodup.subperm hsub).length_le

/-- A new node can be visited next if all that is on the stack leads to it. -/
lemma enter (h : s.Valid next n) (hlt : v < n) (hnew : v ∉ s.visited)
    (hreach : ∀ x ∈ s.stack, Connects next x v) : (s.enter v).Valid next n where
  nodup := List.nodup_cons.mpr ⟨hnew, h.nodup⟩
  lt := List.forall_mem_cons.mpr ⟨hlt, h.lt⟩
  closed := h.closed
  right := h.right
  ordered := List.pairwise_cons.mpr ⟨hreach, h.ordered⟩

/-- No edge leads out of the top of the stack and the components if none leads below that top. -/
lemma closed_leave (h : t.Valid next n) (hstack : t.stack = above ++ below)
    (hedges : ∀ u ∈ above, ∀ w ∈ next u, t.Settled below.length w) :
    ∀ v ∈ (above :: t.components).flatten, ∀ w ∈ next v, w ∈ (above :: t.components).flatten := by
  intro v hv w hw
  rw [List.flatten_cons, List.mem_append] at hv ⊢
  rcases hv with hv | hv
  · rcases hedges v hv w hw with hdone | ⟨number, hnumber, hle⟩
    · exact .inr hdone
    · -- a node further down would have a lower number
      by_contra hnot
      rw [hstack, number?_append_of_notMem fun hmem => hnot (.inl hmem)] at hnumber
      exact absurd (number?_lt hnumber) (Nat.not_lt.mpr hle)
  · exact .inr (h.closed v hv w hw)

lemma isComponent_leave (h : t.Valid next n) (hstack : t.stack = above ++ below)
    (hp : above.getLast? = some p) (hreach : ∀ u ∈ above, Connects next u p)
    (hedges : ∀ u ∈ above, ∀ w ∈ next u, t.Settled below.length w) :
    IsComponent next above := by
  have hordered := h.ordered
  have hnodup := h.nodup
  rw [hstack] at hordered
  rw [visited, hstack, List.append_assoc] at hnodup
  -- `p` was visited before the others
  have hfirst : ∀ u ∈ above, Connects next p u := by
    obtain ⟨others, rfl⟩ := List.getLast?_eq_some_iff.mp hp
    have hothers := (List.pairwise_append.mp (List.pairwise_append.mp hordered).1).2.2
    exact List.forall_mem_append.mpr ⟨fun u hu => hothers u hu p (List.mem_singleton_self p),
      List.forall_mem_singleton.mpr .refl⟩
  refine ⟨List.ne_nil_of_mem (List.mem_of_mem_getLast? hp), fun v hv w => ⟨fun hw => ?_, ?_⟩⟩
  · exact ⟨(hreach v hv).trans (hfirst w hw), (hreach w hw).trans (hfirst v hv)⟩
  · rintro ⟨hvw, hwv⟩
    have hmem := mem_of_connects (h.closed_leave hstack hedges) (List.mem_append_left _ hv) hvw
    rcases List.mem_append.mp hmem with hw | hw
    · exact hw
    · -- what is connected with an old component is in it, and `v` is in no two
      have hdone := mem_of_connects h.closed hw hwv
      exact absurd rfl ((List.nodup_append.mp hnodup).2.2 v hv v (List.mem_append_right _ hdone))

/-- The nodes down to `p` can be taken off the stack if they lead to `p` and no edge from them leads
below it. -/
lemma leave (h : t.Valid next n) (hstack : t.stack = above ++ below)
    (hp : above.getLast? = some p) (hreach : ∀ u ∈ above, Connects next u p)
    (hedges : ∀ u ∈ above, ∀ w ∈ next u, t.Settled below.length w) :
    Valid next n ⟨below, above :: t.components⟩ := by
  have hperm : (visited ⟨below, above :: t.components⟩).Perm t.visited := by
    rw [visited, visited, hstack, List.flatten_cons, ← List.append_assoc]
    exact List.perm_append_comm.append_right _
  have hordered := h.ordered
  rw [hstack] at hordered
  exact {
    nodup := hperm.nodup_iff.mpr h.nodup
    lt := fun v hv => h.lt v (hperm.mem_iff.mp hv)
    closed := h.closed_leave hstack hedges
    right := List.forall_mem_cons.mpr ⟨h.isComponent_leave hstack hp hreach hedges, h.right⟩
    ordered := (List.pairwise_append.mp hordered).2.1 }

end Valid

/-! ### One visit -/

/-- What a visit of `v` comes to: all that it leaves on the stack leads to the node with the lowest
number, which was there before, and no edge from there leads below that node. -/
structure Visited (next : ℕ → List ℕ) (n : ℕ) (s : ComponentSearch) (v : ℕ)
    (found : ℕ × ComponentSearch) (added : List ℕ) : Prop where
  valid : found.2.Valid next n
  ext : s.Extends found.2 added
  settled : found.2.Settled found.1 v
  edges : ∀ u ∈ added, ∀ w ∈ next u, found.2.Settled found.1 w
  back : ∀ u ∈ added, ∃ y, number? s.stack y = some found.1 ∧ Connects next u y
  lowest : found.1 < s.stack.length → ∃ y, number? s.stack y = some found.1 ∧ Connects next v y

/-- What holds while the edges of `p` are followed, those to `ws` so far. -/
structure Following (next : ℕ → List ℕ) (n : ℕ) (s : ComponentSearch) (p : ℕ) (ws : List ℕ)
    (found : ℕ × ComponentSearch) (added : List ℕ) : Prop where
  valid : found.2.Valid next n
  ext : (s.enter p).Extends found.2 added
  reach : ∀ x ∈ found.2.stack, Connects next x p
  edges : ∀ u ∈ added, ∀ w ∈ next u, found.2.Settled found.1 w
  followed : ∀ w ∈ ws, found.2.Settled found.1 w
  le : found.1 ≤ s.stack.length
  lowest : ∃ y, number? found.2.stack y = some found.1 ∧ Connects next p y

/-- The visits are right as long as there are rounds for all nodes that are not yet visited. -/
def IsRight (next : ℕ → List ℕ) (n rounds : ℕ)
    (visit : ℕ → ComponentSearch → ℕ × ComponentSearch) : Prop :=
  ∀ v s, s.Valid next n → v < n → v ∉ s.visited → (∀ x ∈ s.stack, Connects next x v) →
    n ≤ rounds + s.visited.length → ∃ added, Visited next n s v (visit v s) added

section Follow

variable {visit : ℕ → ComponentSearch → ℕ × ComponentSearch} {found : ℕ × ComponentSearch}
variable {rounds : ℕ} {ws : List ℕ}

lemma follow_done (hv : v ∈ found.2.components.flatten) : follow visit found v = found := by
  rw [follow, if_pos (isDone_iff.mpr hv)]

lemma follow_number (hv : v ∉ found.2.components.flatten)
    (hnumber : number? found.2.stack v = some number) :
    follow visit found v = (min found.1 number, found.2) := by
  rw [follow, if_neg (mt isDone_iff.mp hv), hnumber]

lemma follow_new (hv : v ∉ found.2.visited) :
    follow visit found v = (min found.1 (visit v found.2).1, (visit v found.2).2) := by
  rw [visited, List.mem_append, not_or] at hv
  rw [follow, if_neg (mt isDone_iff.mp hv.2), number?_eq_none_iff.mpr hv.1]

lemma Following.done (h : Following next n s p ws found added)
    (hw : w ∈ found.2.components.flatten) : Following next n s p (ws ++ [w]) found added :=
  { h with
    followed := List.forall_mem_append.mpr ⟨h.followed, List.forall_mem_singleton.mpr (.inl hw)⟩ }

/-- The end of the edge is on the stack, and its number may be the lowest one now. -/
lemma Following.stacked (h : Following next n s p ws found added) (hw : w ∈ next p)
    (hnumber : number? found.2.stack w = some number) :
    Following next n s p (ws ++ [w]) (min found.1 number, found.2) added := by
  have hmono : ∀ x, found.2.Settled found.1 x → found.2.Settled (min found.1 number) x :=
    fun x hx => hx.mono (.refl _) h.valid.nodup (Nat.min_le_left ..)
  have hsettled : found.2.Settled (min found.1 number) w :=
    .inr ⟨number, hnumber, Nat.min_le_right ..⟩
  refine ⟨h.valid, h.ext, h.reach, fun u hu x hx => hmono x (h.edges u hu x hx),
    List.forall_mem_append.mpr ⟨fun x hx => hmono x (h.followed x hx),
      List.forall_mem_singleton.mpr hsettled⟩, Nat.le_trans (Nat.min_le_left ..) h.le, ?_⟩
  dsimp only
  rcases Nat.le_total found.1 number with hle | hle
  · rw [Nat.min_eq_left hle]
    exact h.lowest
  · rw [Nat.min_eq_right hle]
    exact ⟨w, hnumber, .single hw⟩

/-- The end of the edge is visited, and what that leaves on the stack leads back to `p`. -/
lemma Following.fresh {inner : ℕ × ComponentSearch} {more : List ℕ}
    (h : Following next n s p ws found added) (hw : w ∈ next p)
    (hvisited : Visited next n found.2 w inner more) :
    Following next n s p (ws ++ [w]) (min found.1 inner.1, inner.2) (more ++ added) := by
  -- what was settled stays so for the lower of the two numbers
  have hmono : ∀ x, found.2.Settled found.1 x → inner.2.Settled (min found.1 inner.1) x :=
    fun x hx => hx.mono hvisited.ext hvisited.valid.nodup (Nat.min_le_left ..)
  have hmono' : ∀ x, inner.2.Settled inner.1 x → inner.2.Settled (min found.1 inner.1) x :=
    fun x hx => hx.mono (.refl _) hvisited.valid.nodup (Nat.min_le_right ..)
  have hlength : s.stack.length < found.2.stack.length := by
    rw [h.ext.stack, List.length_append, enter, List.length_cons]
    omega
  refine ⟨hvisited.valid, h.ext.trans hvisited.ext, ?_,
    List.forall_mem_append.mpr ⟨fun u hu x hx => hmono' x (hvisited.edges u hu x hx),
      fun u hu x hx => hmono x (h.edges u hu x hx)⟩,
    List.forall_mem_append.mpr ⟨fun x hx => hmono x (h.followed x hx),
      List.forall_mem_singleton.mpr (hmono' w hvisited.settled)⟩,
    Nat.le_trans (Nat.min_le_left ..) h.le, ?_⟩
  · rw [hvisited.ext.stack]
    refine List.forall_mem_append.mpr ⟨fun x hx => ?_, h.reach⟩
    obtain ⟨y, hy, hxy⟩ := hvisited.back x hx
    exact hxy.trans (h.reach y (mem_of_number? hy))
  · dsimp only
    rcases Nat.le_total found.1 inner.1 with hle | hle
    · rw [Nat.min_eq_left hle]
      obtain ⟨y, hy, hpy⟩ := h.lowest
      exact ⟨y, hvisited.ext.number? hvisited.valid.nodup hy, hpy⟩
    · rw [Nat.min_eq_right hle]
      have hle' := h.le
      obtain ⟨y, hy, hwy⟩ := hvisited.lowest (by omega)
      exact ⟨y, hvisited.ext.number? hvisited.valid.nodup hy, .head hw hwy⟩

/-- One more edge is followed. -/
lemma Following.follow (h : Following next n s p ws found added)
    (hvisit : IsRight next n rounds visit) (hrounds : n ≤ rounds + (s.enter p).visited.length)
    (hw : w ∈ next p) (hlt : w < n) :
    ∃ added', Following next n s p (ws ++ [w]) (follow visit found w) added' := by
  by_cases hdone : w ∈ found.2.components.flatten
  · rw [follow_done hdone]
    exact ⟨added, h.done hdone⟩
  · cases hnumber : number? found.2.stack w with
    | some number =>
      rw [follow_number hdone hnumber]
      exact ⟨added, h.stacked hw hnumber⟩
    | none =>
      have hnew : w ∉ found.2.visited := by
        rw [visited, List.mem_append, not_or]
        exact ⟨number?_eq_none_iff.mp hnumber, hdone⟩
      have hlength := h.ext.length_visited_le
      obtain ⟨more, hmore⟩ := hvisit w found.2 h.valid hlt hnew
        (fun x hx => (h.reach x hx).tail hw) (by omega)
      rw [follow_new hnew]
      exact ⟨more ++ added, h.fresh hw hmore⟩

/-- All edges are followed, one after the other. -/
lemma following_foldl (ws : List ℕ) (hs : (s.enter p).Valid next n)
    (hreach : ∀ x ∈ s.stack, Connects next x p)
    (hvisit : IsRight next n rounds visit) (hrounds : n ≤ rounds + (s.enter p).visited.length)
    (hws : ∀ w ∈ ws, w ∈ next p ∧ w < n) :
    ∃ added, Following next n s p ws
      (ws.foldl (ComponentSearch.follow visit) (s.stack.length, s.enter p)) added := by
  induction ws using List.reverseRecOn with
  | nil =>
    refine ⟨[], hs, .refl _, List.forall_mem_cons.mpr ⟨.refl, hreach⟩, by simp, by simp,
      Nat.le_refl _, p, ?_, .refl⟩
    rw [List.foldl_nil, enter, number?, if_pos rfl]
  | append_singleton ws w ih =>
    rw [List.forall_mem_append] at hws
    obtain ⟨added, h⟩ := ih hws.1
    obtain ⟨hw, hlt⟩ := hws.2 w (List.mem_singleton.mpr rfl)
    rw [List.foldl_append]
    exact h.follow hvisit hrounds hw hlt

end Follow

namespace Following

variable {found : ℕ × ComponentSearch} {ws : List ℕ}

lemma stack_eq (h : Following next n s p ws found added) :
    found.2.stack = (added ++ [p]) ++ s.stack := by
  rw [h.ext.stack, enter, List.append_assoc]
  rfl

lemma edges_followed (h : Following next n s p (next p) found added) :
    ∀ u ∈ added ++ [p], ∀ w ∈ next u, found.2.Settled found.1 w :=
  List.forall_mem_append.mpr ⟨h.edges, List.forall_mem_singleton.mpr h.followed⟩

lemma reach_followed (h : Following next n s p ws found added) :
    ∀ u ∈ added ++ [p], Connects next u p :=
  fun u hu => h.reach u (h.stack_eq ▸ List.mem_append_left _ hu)

/-- An edge leads below `p`, so what was visited stays on the stack. -/
lemma stay (h : Following next n s p (next p) found added) (hlt : found.1 < s.stack.length) :
    Visited next n s p found (added ++ [p]) := by
  -- it leads to a node that was on the stack before
  obtain ⟨y, hy, hpy⟩ := h.lowest
  have hbelow : number? s.stack y = some found.1 := by
    rw [h.stack_eq] at hy
    have hnot : y ∉ added ++ [p] := by
      intro hmem
      obtain ⟨number, hnumber, hle⟩ := le_number?_append s.stack hmem
      rw [hnumber] at hy
      cases hy
      exact absurd hlt (Nat.not_lt.mpr hle)
    rwa [number?_append_of_notMem hnot] at hy
  refine ⟨h.valid, ⟨h.stack_eq, h.ext.components⟩, .inr ?_, h.edges_followed,
    fun u hu => ⟨y, hbelow, (h.reach_followed u hu).trans hpy⟩, fun _ => ⟨y, hbelow, hpy⟩⟩
  obtain ⟨number, hnumber, hle⟩ :=
    le_number?_append s.stack (List.mem_append_right added (List.mem_singleton_self p))
  exact ⟨number, by rw [h.stack_eq, hnumber], Nat.le_trans h.le hle⟩

/-- No edge leads below `p`, so `p` and what is above it are a component. -/
lemma close (h : Following next n s p (next p) found added) (hle : found.1 = s.stack.length) :
    Visited next n s p (found.1, ⟨s.stack, (added ++ [p]) :: found.2.components⟩) [] := by
  have hedges := h.edges_followed
  rw [hle] at hedges
  refine ⟨h.valid.leave h.stack_eq List.getLast?_concat h.reach_followed hedges,
    ⟨rfl, h.ext.components.trans (List.suffix_cons ..)⟩, .inl ?_, by simp, by simp, fun hlt => ?_⟩
  · exact List.mem_append_left _ (List.mem_append_right _ (List.mem_singleton_self p))
  · exact absurd hle (Nat.ne_of_lt hlt)

/-- When all edges of `p` are followed, `p` is left: with a component of its own, or not. -/
lemma leave (h : Following next n s p (next p) found added) :
    ∃ above, Visited next n s p (found.1, found.2.leave s.stack.length found.1) above := by
  unfold ComponentSearch.leave
  split
  · next hlt => exact ⟨added ++ [p], h.stay hlt⟩
  · next hle =>
    have hsize : found.2.stack.length - s.stack.length = (added ++ [p]).length := by
      rw [h.stack_eq, List.length_append, Nat.add_sub_cancel]
    rw [hsize, h.stack_eq]
    dsimp only
    rw [List.drop_left, List.take_left]
    exact ⟨[], h.close (Nat.le_antisymm h.le (Nat.not_lt.mp hle))⟩

end Following

/-- **A visit is right**, if there are rounds for all nodes that are not yet visited. -/
lemma isRight_visit (hnext : ∀ v, ∀ w ∈ next v, w < n) (rounds : ℕ) :
    IsRight next n rounds (visit next rounds) := by
  induction rounds with
  | zero =>
    -- all nodes are visited, so `v` is none
    intro v s hs hlt hnew hreach hrounds
    have hlength := (hs.enter hlt hnew hreach).length_visited_le
    simp only [visited, enter, List.cons_append, List.length_cons] at hlength hrounds
    omega
  | succ rounds ih =>
    intro v s hs hlt hnew hreach hrounds
    have hlength : (s.enter v).visited.length = s.visited.length + 1 := rfl
    obtain ⟨added, h⟩ := following_foldl (next v) (hs.enter hlt hnew hreach) hreach ih
      (by omega) fun w hw => ⟨hw, hnext v w hw⟩
    exact h.leave

/-! ### The whole search -/

/-- A visit with nothing on the stack leaves nothing there, so what is visited is in a component. -/
lemma Visited.of_stack_eq_nil {found : ℕ × ComponentSearch}
    (h : Visited next n s v found added) (hs : s.stack = []) :
    found.2.stack = [] ∧ v ∈ found.2.components.flatten := by
  -- what was left would lead to what was there before
  have hadded : added = [] := by
    refine List.eq_nil_iff_forall_not_mem.mpr fun u hu => ?_
    obtain ⟨y, hy, -⟩ := h.back u hu
    rw [hs] at hy
    cases hy
  have hstack : found.2.stack = [] := by
    rw [h.ext.stack, hadded, hs, List.append_nil]
  refine ⟨hstack, h.settled.resolve_right ?_⟩
  rintro ⟨number, hnumber, -⟩
  rw [hstack] at hnumber
  cases hnumber

/-- The search from one node after the other leaves nothing on the stack. -/
lemma valid_foldl (vs : List ℕ) (hnext : ∀ v, ∀ w ∈ next v, w < n) (hvs : ∀ v ∈ vs, v < n) :
    let found := vs.foldl (follow (visit next n)) (0, {})
    found.2.Valid next n ∧ found.2.stack = [] ∧ ∀ v ∈ vs, v ∈ found.2.components.flatten := by
  induction vs using List.reverseRecOn with
  | nil => exact ⟨.empty, rfl, by simp⟩
  | append_singleton vs w ih =>
    rw [List.forall_mem_append, List.forall_mem_singleton] at hvs
    obtain ⟨hvalid, hstack, hdone⟩ := ih hvs.1
    rw [List.foldl_append, List.foldl_cons, List.foldl_nil]
    set found := vs.foldl (follow (visit next n)) (0, {})
    by_cases hw : w ∈ found.2.components.flatten
    · rw [follow_done hw]
      exact ⟨hvalid, hstack,
        List.forall_mem_append.mpr ⟨hdone, List.forall_mem_singleton.mpr hw⟩⟩
    · have hnew : w ∉ found.2.visited := by
        rwa [visited, hstack]
      obtain ⟨added, h⟩ :=
        isRight_visit hnext n w found.2 hvalid hvs.2 hnew (by simp [hstack]) (by omega)
      obtain ⟨hstack', hw'⟩ := h.of_stack_eq_nil hstack
      rw [follow_new hnew]
      exact ⟨h.valid, hstack', List.forall_mem_append.mpr
        ⟨fun v hv => h.ext.mem_done (hdone v hv), List.forall_mem_singleton.mpr hw'⟩⟩

/-- **Components.** In a graph with the nodes below `n`, the search finds components only, and every
node is in one and no more than one of them. -/
theorem run_spec (hnext : ∀ v, ∀ w ∈ next v, w < n) :
    let components := (run next n).components
    (∀ c ∈ components, IsComponent next c) ∧ components.flatten.Nodup ∧
      ∀ v, v ∈ components.flatten ↔ v < n := by
  obtain ⟨hvalid, hstack, hdone⟩ := valid_foldl (List.range n) hnext fun v => List.mem_range.mp
  have hnodup := hvalid.nodup
  have hlt := hvalid.lt
  rw [visited, hstack, List.nil_append] at hnodup hlt
  exact ⟨hvalid.right, hnodup, fun v => ⟨hlt v, fun hv => hdone v (List.mem_range.mpr hv)⟩⟩

end ImportAtlas.ComponentSearch
