import ImportAtlas.Proofs.ImportCycles

/-!
The cycles of a filtered graph.

A filter takes modules away, with every import of one of them or by one of them. What a module still
reaches it reached before, so a cycle that is left lies within one of the whole graph. The modules
of a cycle reach each other through the cycle alone, so a cycle that is kept as a whole stays.
-/

namespace ImportAtlas.ImportGraph

variable {g whole : ImportGraph} {c d : ImportCycle} {m n x y : String}

/-! ### A part of a graph -/

/-- The graph has those imports of the whole one that are between modules that are kept. -/
def IsPart (g whole : ImportGraph) (F : ModuleFilter) : Prop :=
  ∀ m n, g.Imports m n ↔ F.allows m ∧ F.allows n ∧ whole.Imports m n

namespace IsPart

variable {F : ModuleFilter}

lemma ofModules (rootName : String) (F : ModuleFilter)
    (modules : List (ModulePath × List ModulePath)) :
    (ofModules rootName F modules).IsPart (ofModules rootName .all modules) F := by
  intro m n
  rw [imports_ofModules, imports_ofModules]
  simp

variable (h : g.IsPart whole F)

include h

lemma reaches (hmn : g.Reaches m n) : whole.Reaches m n :=
  Relation.TransGen.mono (fun x y hxy => ((h x y).mp hxy).2.2) _ _ hmn

/-- A cycle of the part lies within one cycle of the whole and no other. -/
lemma existsUnique_cycle (hc : c ∈ g.cycles) :
    ∃! d, d ∈ whole.cycles ∧ c.modules ⊆ d.modules := by
  obtain ⟨m, hm, rfl⟩ := mem_cycles_iff.mp hc
  have hmem : m ∈ g.companions m := mem_companions_iff.mpr ⟨hm, hm⟩
  have hsub : g.companions m ⊆ whole.companions m := by
    intro n hn
    obtain ⟨hmn, hnm⟩ := mem_companions_iff.mp hn
    exact mem_companions_iff.mpr ⟨h.reaches hmn, h.reaches hnm⟩
  have hcycle : ⟨whole.companions m⟩ ∈ whole.cycles :=
    mem_cycles_iff.mpr ⟨m, h.reaches hm, rfl⟩
  refine ⟨_, ⟨hcycle, hsub⟩, ?_⟩
  rintro d ⟨hd, hcd⟩
  exact eq_of_mem_cycles hd hcycle (hcd hmem) (hsub hmem)

/-- Companions reach each other through companions, so they still do if all of these are kept. -/
lemma reaches_of_kept (hkept : ∀ x ∈ whole.companions m, F.allows x)
    (hx : x ∈ whole.companions m) (hy : y ∈ whole.companions m) (hxy : whole.Reaches x y) :
    g.Reaches x y := by
  induction hxy using Relation.TransGen.head_induction_on with
  | single hstep => exact .single ((h _ _).mpr ⟨hkept _ hx, hkept _ hy, hstep⟩)
  | head hstep hrest ih =>
    rename_i x z
    obtain ⟨hmx, -⟩ := mem_companions_iff.mp hx
    obtain ⟨-, hym⟩ := mem_companions_iff.mp hy
    have hz : z ∈ whole.companions m :=
      mem_companions_iff.mpr ⟨hmx.tail hstep, hrest.trans hym⟩
    exact .head ((h _ _).mpr ⟨hkept _ hx, hkept _ hz, hstep⟩) (ih hz)

lemma mem_cycles_of_kept (hc : c ∈ whole.cycles) (hkept : ∀ x ∈ c.modules, F.allows x) :
    c ∈ g.cycles := by
  obtain ⟨m, hm, rfl⟩ := mem_cycles_iff.mp hc
  have hmem : m ∈ whole.companions m := mem_companions_iff.mpr ⟨hm, hm⟩
  have hsame : whole.companions m = g.companions m := by
    refine (whole.companions_pairwise m).eq_of_mem_iff (g.companions_pairwise m) fun n => ?_
    constructor
    · intro hn
      obtain ⟨hmn, hnm⟩ := mem_companions_iff.mp hn
      exact mem_companions_iff.mpr
        ⟨h.reaches_of_kept hkept hmem hn hmn, h.reaches_of_kept hkept hn hmem hnm⟩
    · intro hn
      obtain ⟨hmn, hnm⟩ := mem_companions_iff.mp hn
      exact mem_companions_iff.mpr ⟨h.reaches hmn, h.reaches hnm⟩
  exact mem_cycles_iff.mpr
    ⟨m, h.reaches_of_kept hkept hmem hmem hm, congrArg ImportCycle.mk hsame⟩

end IsPart

/-- **Cycles and filters.** A filter makes up no cycle: each that is left lies within exactly one of
the cycles of the same modules without a filter. And it neither hides nor splits a cycle whose
modules it allows, which is there as it was. -/
theorem cycles_filtered (rootName : String) (F : ModuleFilter)
    (modules : List (ModulePath × List ModulePath)) :
    let g := ofModules rootName F modules
    let whole := ofModules rootName .all modules
    (∀ c ∈ g.cycles, ∃! d, d ∈ whole.cycles ∧ c.modules ⊆ d.modules) ∧
    ∀ c ∈ whole.cycles, (∀ m ∈ c.modules, F.allows m) → c ∈ g.cycles :=
  ⟨fun _ hc => (IsPart.ofModules rootName F modules).existsUnique_cycle hc,
    fun _ hc hkept => (IsPart.ofModules rootName F modules).mem_cycles_of_kept hc hkept⟩

/-- Three modules in a row with imports back and forth, and one that imports itself. -/
def chain : List (ModulePath × List ModulePath) :=
  [(⟨["p", "a"]⟩, [⟨["p", "b"]⟩]), (⟨["p", "b"]⟩, [⟨["p", "a"]⟩, ⟨["p", "c"]⟩]),
    (⟨["p", "c"]⟩, [⟨["p", "b"]⟩]), (⟨["p", "d"]⟩, [⟨["p", "d"]⟩])]

/-- Without the last of the three the other two are a cycle, and the fourth is still one. -/
theorem cycles_filtered_chain :
    (∃! d, d ∈ (ofModules "p" .all chain).cycles ∧ ["p.a", "p.b"] ⊆ d.modules) ∧
    ⟨["p.d"]⟩ ∈ (ofModules "p" { dropped := some (.ofList ["p.c"]) } chain).cycles := by
  obtain ⟨hwithin, hkept⟩ := cycles_filtered "p" { dropped := some (.ofList ["p.c"]) } chain
  have hcycles : (ofModules "p" { dropped := some (.ofList ["p.c"]) } chain).cycles =
      [⟨["p.a", "p.b"]⟩, ⟨["p.d"]⟩] := by cbv
  have hwhole : (ofModules "p" .all chain).cycles = [⟨["p.a", "p.b", "p.c"]⟩, ⟨["p.d"]⟩] := by cbv
  exact ⟨hwithin ⟨["p.a", "p.b"]⟩ (by simp [hcycles]),
    hkept ⟨["p.d"]⟩ (by simp [hwhole]) (by decide +kernel)⟩

end ImportAtlas.ImportGraph
