import ImportAtlas.Proofs.Place
import ImportAtlas.Proofs.SourceImports

/-!
Where relative imports lead.

A relative import climbs from the module that it stands in and goes on from there. So what it
depends on moves along when that module is moved under another path, and what an absolute import
depends on stays. A text is moved import by import: if its imports resolve at one place, they do at
every place below.
-/

namespace ImportAtlas

/-! ### Climbing -/

namespace ModulePath

variable {p q : ModulePath} {levels : ℕ}

/-- The path that is reached by climbing from another one, which must be long enough. -/
def climbed (p : ModulePath) (levels : ℕ) : ModulePath := ⟨p.segments.take (p.length - levels)⟩

lemma length_append : (q ++ p).length = q.length + p.length := List.length_append ..

lemma append_assoc (p q r : ModulePath) : p ++ q ++ r = p ++ (q ++ r) :=
  congrArg ModulePath.mk (List.append_assoc ..)

lemma ancestor?_of_le (h : levels ≤ p.length) : p.ancestor? levels = some (p.climbed levels) :=
  if_pos h

lemma ancestor?_of_lt (h : p.length < levels) : p.ancestor? levels = none :=
  if_neg (Nat.not_le.mpr h)

/-- Climbing within the lower part of a path leaves the upper part alone. -/
lemma climbed_append (h : levels ≤ p.length) :
    (q ++ p).climbed levels = q ++ p.climbed levels := by
  have hkeep : (q ++ p).length - levels = q.segments.length + (p.length - levels) := by
    rw [length_append, Nat.add_sub_assoc h]
    rfl
  show ModulePath.mk _ = ModulePath.mk _
  rw [hkeep, segments_append, List.take_length_add_append]
  rfl

end ModulePath

/-! ### One statement -/

namespace ImportStatement

variable {level : ℕ} {module anchor base q : ModulePath} {names : List String} {wildcard : Bool}

/-- What a relative import depends on, once it has climbed to `anchor`. -/
def targetsAt (anchor module : ModulePath) (names : List String) (wildcard : Bool) :
    List ModulePath :=
  if module.isEmpty && !wildcard && !names.isEmpty then
    names.map fun name => anchor ++ .ofDotted name
  else [anchor ++ module]

lemma targetsAt_eq :
    targetsAt anchor module names wildcard =
      if module = .empty ∧ wildcard = false ∧ names ≠ [] then
        names.map fun name => anchor ++ .ofDotted name
      else [anchor ++ module] := by
  have hempty : module.isEmpty = true ↔ module = .empty := by
    cases module
    simp [ModulePath.isEmpty, ModulePath.empty]
  have hsiblings : (module.isEmpty && !wildcard && !names.isEmpty) = true ↔
      module = .empty ∧ wildcard = false ∧ names ≠ [] := by
    simp [hempty, and_assoc]
  simp only [targetsAt, hsiblings]

/-- All that a relative import depends on lies below the path to which it climbs. -/
lemma prefix_of_mem_targetsAt {m : ModulePath} (h : m ∈ targetsAt anchor module names wildcard) :
    anchor.segments <+: m.segments := by
  unfold targetsAt at h
  split at h
  · obtain ⟨name, -, rfl⟩ := List.mem_map.mp h
    exact List.prefix_append ..
  · obtain rfl := List.mem_singleton.mp h
    exact List.prefix_append ..

lemma targetsAt_append :
    targetsAt (q ++ anchor) module names wildcard =
      (targetsAt anchor module names wildcard).map (q ++ ·) := by
  unfold targetsAt
  split <;> simp [ModulePath.append_assoc]

/-- A relative import is out of reach exactly if it climbs higher than the module is deep. -/
lemma resolve_relative (hlevel : 1 ≤ level) :
    (fromModule level module names wildcard).resolve base =
      if level ≤ base.length then .ok (targetsAt (base.climbed level) module names wildcard)
      else .error ⟨module, level, base⟩ := by
  rw [resolve]
  · by_cases h : level ≤ base.length
    · rw [if_pos h, ModulePath.ancestor?_of_le h]
      exact (apply_ite Except.ok ..).symm
    · rw [if_neg h, ModulePath.ancestor?_of_lt (Nat.not_le.mp h)]
  · exact Nat.one_le_iff_ne_zero.mp hlevel

/-- Under another path a relative import depends on the same modules under that path. -/
lemma resolve_relative_append (hlevel : 1 ≤ level) (h : level ≤ base.length) :
    (fromModule level module names wildcard).resolve (q ++ base) =
      ((fromModule level module names wildcard).resolve base).map (List.map (q ++ ·)) := by
  have hdeep : level ≤ (q ++ base).length := by
    rw [ModulePath.length_append]
    exact Nat.le_add_left_of_le h
  rw [resolve_relative hlevel, resolve_relative hlevel, if_pos h, if_pos hdeep,
    ModulePath.climbed_append h, targetsAt_append]
  rfl

end ImportStatement

/-! ### A whole text -/

/-- The module `m'` is what the module `m` becomes for an importer that is moved under `q`: it moves
along or stays. -/
def MovesTo (q m m' : ModulePath) : Prop := m' = m ∨ m' = q ++ m

section Moved

variable {base q : ModulePath} {found ms : List ModulePath}

lemma movesTo_self (ms : List ModulePath) : List.Forall₂ (MovesTo q) ms ms :=
  List.forall₂_same.mpr fun _ _ => .inl rfl

lemma movesTo_append (ms : List ModulePath) : List.Forall₂ (MovesTo q) ms (ms.map (q ++ ·)) :=
  List.forall₂_map_right_iff.mpr (List.forall₂_same.mpr fun _ _ => .inr rfl)

lemma exists_of_mem_forall₂ {α β : Type} {r : α → β → Prop} {as : List α} {bs : List β} {a : α}
    (h : List.Forall₂ r as bs) (ha : a ∈ as) : ∃ b ∈ bs, r a b := by
  induction h with
  | nil => cases ha
  | @cons a' b' as bs hr _ ih =>
    rcases List.mem_cons.mp ha with rfl | ha
    · exact ⟨b', List.mem_cons_self .., hr⟩
    · obtain ⟨b, hb, hab⟩ := ih ha
      exact ⟨b, List.mem_cons_of_mem _ hb, hab⟩

lemma ImportStatement.resolve_moved {s : ImportStatement} (h : s.resolve base = .ok ms) :
    ∃ ms', s.resolve (q ++ base) = .ok ms' ∧ List.Forall₂ (MovesTo q) ms ms' := by
  cases s with
  | plain modules => exact ⟨ms, h, movesTo_self ms⟩
  | fromModule level module names wildcard =>
    cases level with
    | zero => exact ⟨ms, h, movesTo_self ms⟩
    | succ n =>
      have hlevel : 1 ≤ n + 1 := Nat.le_add_left ..
      have hreach : n + 1 ≤ base.length := by
        by_contra hfar
        rw [resolve_relative hlevel, if_neg hfar] at h
        cases h
      refine ⟨ms.map (q ++ ·), ?_, movesTo_append ms⟩
      rw [resolve_relative_append hlevel hreach, h]
      rfl

namespace Source.Tree

lemma finding_moved {t : Tree} (h : finding base t = .ok found) :
    ∃ found', finding (q ++ base) t = .ok found' ∧ List.Forall₂ (MovesTo q) found found' := by
  unfold finding at h ⊢
  split at h
  · cases h
  · rename_i hlegacy
    rw [if_neg hlegacy]
    split at h
    · obtain ⟨ms', hms', hmoved⟩ := ImportStatement.resolve_moved (mapError_eq_ok_iff.mp h)
      exact ⟨ms', mapError_eq_ok_iff.mpr hms', hmoved⟩
    · exact ⟨found, h, movesTo_self found⟩

lemma findings_moved {ts : List Tree} (h : findings base ts = .ok found) :
    ∃ found', findings (q ++ base) ts = .ok found' ∧ List.Forall₂ (MovesTo q) found found' := by
  induction ts generalizing found with
  | nil => exact ⟨found, h, movesTo_self found⟩
  | cons t ts ih =>
    obtain ⟨first, hfirst, h⟩ := bind_eq_ok_iff.mp h
    obtain ⟨others, hothers, h⟩ := bind_eq_ok_iff.mp h
    obtain rfl : first ++ others = found := Except.ok.inj h
    obtain ⟨first', hfirst', hmoved⟩ := finding_moved hfirst
    obtain ⟨others', hothers', hmoved'⟩ := ih hothers
    refine ⟨first' ++ others', ?_, List.rel_append hmoved hmoved'⟩
    rw [findings, hfirst', hothers']
    rfl

end Source.Tree

lemma resolveSource_moved {source : String} {imports : OrderedSet ModulePath} (q : ModulePath)
    (h : resolveSource source base = .ok imports) :
    ∃ imports', resolveSource source (q ++ base) = .ok imports' ∧
      (∀ m ∈ imports, ∃ m' ∈ imports', MovesTo q m m') ∧
      ∀ m' ∈ imports', ∃ m ∈ imports, MovesTo q m m' := by
  cases htree : Source.Tree.ofSource source with
  | error p =>
    rw [resolveSource, htree] at h
    cases h
  | ok tree =>
    -- the tree does not depend on the module, so its nodes are moved one by one
    rw [resolveSource_eq_findings htree] at h ⊢
    obtain ⟨found, hfound, rfl⟩ := map_eq_ok_iff.mp h
    obtain ⟨found', hfound', hmoved⟩ := Source.Tree.findings_moved hfound
    refine ⟨.ofList found', by rw [hfound']; rfl, fun m hm => ?_, fun m' hm' => ?_⟩
    · obtain ⟨m', hm', h⟩ := exists_of_mem_forall₂ hmoved (OrderedSet.mem_ofList.mp hm)
      exact ⟨m', OrderedSet.mem_ofList.mpr hm', h⟩
    · obtain ⟨m, hm, h⟩ := exists_of_mem_forall₂ hmoved.flip (OrderedSet.mem_ofList.mp hm')
      exact ⟨m, OrderedSet.mem_ofList.mpr hm, h⟩

end Moved

/-- **Where imports lead.** Plain and absolute imports resolve everywhere, to the modules that they
name. A relative import fails exactly if it climbs higher than its module is deep. Otherwise all
that it depends on lies below the path to which it climbs: a module for each name if it names
siblings, and in every other form the one module that it is from. Under another path it depends on
the same modules under that path. So the imports of a text that resolve in a module also resolve
when the module is moved under any path, and each of them moves along or stays. -/
theorem resolve_under_path (base q : ModulePath) :
    (∀ modules, (ImportStatement.plain modules).resolve base = .ok modules) ∧
    (∀ module names wildcard,
      (ImportStatement.fromModule 0 module names wildcard).resolve base = .ok [module]) ∧
    (∀ level module names wildcard, 1 ≤ level →
      let s := ImportStatement.fromModule level module names wildcard
      let anchor : ModulePath := ⟨base.segments.take (base.length - level)⟩
      ((∃ e, s.resolve base = .error e) ↔ base.length < level) ∧
      (∀ e, s.resolve base = .error e → e = ⟨module, level, base⟩ ∧
        (SourceError.climb e).message =
          s!"Invalid relative import from '{module.text}' at level {level} (base {base.text})") ∧
      (level ≤ base.length → ∃ targets, s.resolve base = .ok targets ∧
        (∀ m ∈ targets, anchor.segments <+: m.segments) ∧
        (targets = if module = .empty ∧ wildcard = false ∧ names ≠ [] then
            names.map fun name => anchor ++ .ofDotted name
          else [anchor ++ module]) ∧
        s.resolve (q ++ base) = .ok (targets.map (q ++ ·)))) ∧
    ∀ source imports, resolveSource source base = .ok imports →
      ∃ imports', resolveSource source (q ++ base) = .ok imports' ∧
        (∀ m ∈ imports, m ∈ imports' ∨ q ++ m ∈ imports') ∧
        ∀ m' ∈ imports', ∃ m ∈ imports, m' = m ∨ m' = q ++ m := by
  refine ⟨fun modules => rfl, fun module names wildcard => rfl, ?_, ?_⟩
  · intro level module names wildcard hlevel s anchor
    have hresolve : s.resolve base = _ := ImportStatement.resolve_relative hlevel
    refine ⟨?_, fun e he => ?_, fun hreach => ?_⟩
    · -- whether the climb is too high is all that the condition asks
      rw [hresolve]
      split_ifs with h
      · simp [h]
      · simp [Nat.not_le.mp h]
    · rw [hresolve] at he
      split_ifs at he
      obtain rfl := Except.error.inj he
      exact ⟨rfl, rfl⟩
    · refine ⟨_, hresolve.trans (if_pos hreach),
        fun m hm => ImportStatement.prefix_of_mem_targetsAt hm, ImportStatement.targetsAt_eq, ?_⟩
      rw [ImportStatement.resolve_relative_append hlevel hreach, hresolve, if_pos hreach]
      rfl
  · intro source imports himports
    obtain ⟨imports', himports', hmoved, hfrom⟩ := resolveSource_moved q himports
    refine ⟨imports', himports', fun m hm => ?_, hfrom⟩
    obtain ⟨m', hm', rfl | rfl⟩ := hmoved m hm
    · exact .inl hm'
    · exact .inr hm'

/-- Siblings of a package, from a module deep enough for them, moved with it, and from one that is
not; a text with a relative import and an absolute one, moved with its module. -/
theorem resolve_under_top :
    let siblings := ImportStatement.fromModule 2 .empty ["x", "y.z"] false
    siblings.resolve ⟨["a", "b", "c"]⟩ = .ok [⟨["a", "x"]⟩, ⟨["a", "y", "z"]⟩] ∧
    siblings.resolve ⟨["t", "a", "b", "c"]⟩ = .ok [⟨["t", "a", "x"]⟩, ⟨["t", "a", "y", "z"]⟩] ∧
    siblings.resolve ⟨["a"]⟩ = .error ⟨.empty, 2, ⟨["a"]⟩⟩ ∧
    ∃ imports, resolveSource "from . import x\nimport os\n" ⟨["t", "a", "b"]⟩ = .ok imports := by
  intro siblings
  have hsplit : ["x", "y.z"].map (fun name => (⟨["a"]⟩ : ModulePath) ++ .ofDotted name) =
      [⟨["a", "x"]⟩, ⟨["a", "y", "z"]⟩] := by decide +kernel
  have hsource : (resolveSource "from . import x\nimport os\n" ⟨["a", "b"]⟩).toOption.isSome := by
    decide +kernel
  obtain ⟨-, -, hrelative, -⟩ := resolve_under_path ⟨["a", "b", "c"]⟩ ⟨["t"]⟩
  obtain ⟨-, -, hreach⟩ := hrelative 2 .empty ["x", "y.z"] false (by decide)
  obtain ⟨targets, htargets, -, heq, hmoved⟩ := hreach (by decide)
  obtain rfl := heq.trans ((if_pos (by decide)).trans hsplit)
  obtain ⟨-, -, hlow, -⟩ := resolve_under_path ⟨["a"]⟩ .empty
  obtain ⟨hfails, herror, -⟩ := hlow 2 .empty ["x", "y.z"] false (by decide)
  obtain ⟨e, he⟩ := hfails.mpr (by decide)
  obtain ⟨rfl, -⟩ := herror e he
  refine ⟨htargets, hmoved, he, ?_⟩
  cases himports : resolveSource "from . import x\nimport os\n" ⟨["a", "b"]⟩ with
  | error e => simp [himports, Except.toOption] at hsource
  | ok imports =>
    obtain ⟨imports', himports', -⟩ :=
      (resolve_under_path ⟨["a", "b"]⟩ ⟨["t"]⟩).2.2.2 _ imports himports
    exact ⟨imports', himports'⟩

end ImportAtlas
