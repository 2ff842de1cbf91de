import ImportAtlas.Proofs.InternalModules
import ImportAtlas.Proofs.LinkedPath
import ImportAtlas.Proofs.NamedImport
import ImportAtlas.Proofs.RelativeImport

/-!
The module without a name.

A path without segments is written as the empty text. An import comes to such a path only if it is a
star behind dots that climb exactly to the top of the module that it stands in; every other import
statement names the modules that it depends on. A file has such a path only if it stands for the
directory that holds the package.
-/

namespace ImportAtlas

/-! ### Paths without segments -/

namespace ModulePath

variable {p q : ModulePath} {levels : ℕ}

def Filled (p : ModulePath) : Prop := ∀ s ∈ p.segments, s ≠ ""

lemma Spelled.filled (h : p.Spelled) : p.Filled := fun s hs => (h.isSegment s hs).1

lemma Filled.climbed (h : p.Filled) : (p.climbed levels).Filled := fun s hs =>
  h s (List.mem_of_mem_take hs)

lemma Filled.append (hp : p.Filled) (hq : q.Filled) : (p ++ q).Filled :=
  List.forall_mem_append.mpr ⟨hp, hq⟩

lemma Spelled.text_ne_empty (h : p.Spelled) : p.text ≠ "" :=
  mt (text_eq_empty_iff h.filled).mp h.ne_empty

/-- What is spelled below a path has a name. -/
lemma Spelled.text_append_ne_empty (hq : q.Spelled) (hp : p.Filled) : (p ++ q).text ≠ "" := by
  rw [Ne, text_eq_empty_iff (hp.append hq.filled)]
  intro hempty
  have hsegments := congrArg segments hempty
  exact hq.ne_empty (congrArg ModulePath.mk (List.append_eq_nil_iff.mp hsegments).2)

lemma text_climbed_eq_empty_iff (h : p.Filled) (hlevels : 1 ≤ levels) (hreach : levels ≤ p.length) :
    (p.climbed levels).text = "" ↔ levels = p.length := by
  have hsegments : p.climbed levels = .empty ↔ p.segments.take (p.length - levels) = [] :=
    ⟨congrArg segments, congrArg mk⟩
  have hne : p.segments ≠ [] := fun hnil => by
    rw [length, hnil] at hreach
    exact absurd (hlevels.trans hreach) (by decide)
  rw [text_eq_empty_iff h.climbed, hsegments, List.take_eq_nil_iff]
  simp only [hne, or_false]
  omega

end ModulePath

/-! ### Import statements -/

namespace ImportStatement

open ModulePath

variable {base : ModulePath} {s : ImportStatement} {ms : List ModulePath}

/-- The statement is a star behind dots that climb to the top of the module. -/
def ClimbsToTop (s : ImportStatement) (base : ModulePath) : Prop :=
  ∃ names, s = .fromModule base.length .empty names true

variable {level : ℕ} {module anchor : ModulePath} {names : List String} {wildcard : Bool}

/-- An import from a module depends on that module, at the top or below another path. -/
lemma resolve_spelled (hmodule : module.Spelled) (hbase : base.Filled)
    (h : (fromModule level module names wildcard).resolve base = .ok ms) :
    ∃ anchor : ModulePath, anchor.Filled ∧ ms = [anchor ++ module] := by
  cases level with
  | zero =>
    cases h
    exact ⟨.empty, List.forall_mem_nil _, rfl⟩
  | succ n =>
    rw [resolve_relative (Nat.le_add_left ..)] at h
    split_ifs at h
    cases h
    refine ⟨base.climbed (n + 1), hbase.climbed, ?_⟩
    rw [targetsAt_eq, if_neg fun hempty => hmodule.ne_empty hempty.1]

lemma text_ne_empty_of_mem_targetsAt {m : ModulePath} (hanchor : anchor.Filled)
    (hnames : names ≠ [] ∧ ∀ x ∈ names, (ofDotted x).Spelled)
    (hm : m ∈ targetsAt anchor .empty names false) : m.text ≠ "" := by
  rw [targetsAt_eq, if_pos ⟨rfl, rfl, hnames.1⟩] at hm
  obtain ⟨x, hx, rfl⟩ := List.mem_map.mp hm
  exact (hnames.2 x hx).text_append_ne_empty hanchor

/-- No other statement depends on a module without a name. -/
lemma exists_nameless_iff (hs : s.Named) (hbase : base.Filled) (h : s.resolve base = .ok ms) :
    (∃ m ∈ ms, m.text = "") ↔ s.ClimbsToTop base := by
  cases s with
  | plain modules =>
    cases h
    constructor
    · rintro ⟨m, hm, hempty⟩
      exact absurd hempty (hs m hm).text_ne_empty
    · rintro ⟨names, ⟨⟩⟩
  | fromModule level module names wildcard =>
    -- a module that is named adds its segments, so only dots alone can come to nothing
    rcases hs with hspelled | ⟨rfl, hlevel, hnames⟩
    · obtain ⟨anchor, hanchor, rfl⟩ := resolve_spelled hspelled hbase h
      constructor
      · rintro ⟨m, hm, hempty⟩
        obtain rfl := List.mem_singleton.mp hm
        exact absurd hempty (hspelled.text_append_ne_empty hanchor)
      · rintro ⟨names, ⟨⟩⟩
        exact absurd rfl hspelled.ne_empty
    · rw [resolve_relative hlevel] at h
      split_ifs at h with hreach
      cases h
      cases wildcard with
      | false =>
        constructor
        · rintro ⟨m, hm, hempty⟩
          -- siblings have their own names behind the dots
          exact absurd hempty (text_ne_empty_of_mem_targetsAt hbase.climbed (hnames rfl) hm)
        · rintro ⟨names, ⟨⟩⟩
      | true =>
        -- a star depends on the module to which the dots climb
        have htargets : targetsAt (base.climbed level) .empty names true =
            [base.climbed level] := by
          rw [targetsAt_eq, if_neg nofun]
          exact congrArg (fun ss => [ModulePath.mk ss]) (List.append_nil _)
        simp only [htargets, List.mem_singleton, exists_eq_left]
        rw [text_climbed_eq_empty_iff hbase hlevel hreach]
        constructor
        · rintro rfl
          exact ⟨names, rfl⟩
        · rintro ⟨names', ⟨⟩⟩
          rfl

lemma ClimbsToTop.exists_resolve (hclimbs : s.ClimbsToTop base) (hs : s.Named) :
    ∃ ms, s.resolve base = .ok ms := by
  obtain ⟨names, rfl⟩ := hclimbs
  rcases hs with hspelled | ⟨-, hlevel, -⟩
  · exact absurd rfl hspelled.ne_empty
  · exact ⟨_, (resolve_relative hlevel).trans (if_pos le_rfl)⟩

end ImportStatement

open ModulePath

/-- A text depends on a module without a name if a star in it climbs to the top. -/
lemma exists_nameless_import_iff {source : String} {base : ModulePath}
    {imports : OrderedSet ModulePath} (hbase : base.Filled)
    (h : resolveSource source base = .ok imports) :
    (∃ p ∈ imports, p.text = "") ↔
      ∃ ss, statementsOf? source = some ss ∧ ∃ s ∈ ss, s.ClimbsToTop base := by
  cases htree : Source.Tree.ofSource source with
  | error p =>
    rw [resolveSource, htree] at h
    cases h
  | ok tree =>
    have hstatements : statementsOf? source = some tree.importStatements := by
      rw [statementsOf?, htree]
    rw [resolveSource_eq_findings htree] at h
    obtain ⟨found, hfound, rfl⟩ := map_eq_ok_iff.mp h
    -- what the parser gives as imports names modules, so only a star is left
    have htidy := @Source.tidy_ofSource namedImports _ _ htree
    have hnamed : ∀ t ∈ tree.preorder, ∀ s, ImportStatement.ofTree? t = some s → s.Named :=
      fun t ht s hs => @Source.Tree.holds_of_tidy _ _ namedImports s htidy ht hs s hs
    simp only [hstatements, Option.some.injEq, exists_eq_left', Source.Tree.importStatements,
      List.mem_filterMap, OrderedSet.mem_ofList, Source.Tree.mem_findings_iff hfound]
    constructor
    · rintro ⟨p, ⟨t, ht, s, hs, ms, hms, hp⟩, hempty⟩
      exact ⟨s, ⟨t, ht, hs⟩,
        (ImportStatement.exists_nameless_iff (hnamed t ht s hs) hbase hms).mp ⟨p, hp, hempty⟩⟩
    · rintro ⟨s, ⟨t, ht, hs⟩, hclimbs⟩
      have hs' := hnamed t ht s hs
      -- a star that climbs to the top resolves, since there is a top to climb to
      obtain ⟨ms, hms⟩ := hclimbs.exists_resolve hs'
      obtain ⟨p, hp, hempty⟩ := (ImportStatement.exists_nameless_iff hs' hbase hms).mpr hclimbs
      exact ⟨p, ⟨t, ht, s, hs, ms, hms, hp⟩, hempty⟩

/-! ### Files -/

lemma FileName.stem_ne_empty (n : FileName) : n.stem ≠ "" := fun h =>
  n.stem_ne_nil (String.toList_eq_nil_iff.mpr h)

namespace ModulePath

lemma filled_ofNames (names : List FileName) : (ofNames names).Filled := by
  induction names with
  | nil => exact List.forall_mem_nil _
  | cons n names ih =>
    cases names with
    | nil =>
      unfold ofNames
      split
      · exact List.forall_mem_nil _
      · exact List.forall_mem_singleton.mpr n.stem_ne_empty
    | cons m names => exact List.forall_mem_cons.mpr ⟨n.text_ne_empty, ih⟩

lemma ofNames_eq_empty_iff {names : List FileName} :
    ofNames names = .empty ↔ names = [] ∨ ∃ n, names = [n] ∧ n.stem = initStem := by
  match names with
  | [] => exact ⟨fun _ => .inl rfl, fun _ => rfl⟩
  | [n] =>
    by_cases hn : n.stem = initStem
    · simp [ofNames, hn]
    · simp [ofNames, hn, empty]
  | n :: m :: names => simp [ofNames, empty]

lemma ofLocation_eq_empty {file top : Location} {p : ModulePath}
    (h : ofLocation file top = .ok p) :
    top ≠ .root ∧ p.Filled ∧
      (p = .empty ↔ file = top.parent ∨ ∃ n, n.stem = initStem ∧ file = top.parent.child n) := by
  obtain ⟨htop, rest, hrest, rfl⟩ := FileTree.ofLocation_eq_ok_iff.mp h
  refine ⟨htop, filled_ofNames rest, ?_⟩
  generalize top.parent = above at hrest ⊢
  obtain ⟨file⟩ := file
  obtain ⟨above⟩ := above
  obtain rfl : file = above ++ rest := hrest
  rw [ofNames_eq_empty_iff]
  simp [Location.child, and_comm]

end ModulePath

/-! ### The graph of a package -/

namespace FileTree

variable {t : FileTree} {here root f l : Location} {path : Path} {F : ModuleFilter}
variable {g : ImportGraph} {m : ResolvedModule} {ms : List ResolvedModule} {k : String}

lemma resolve_leads {p : Path} (h : t.resolve .root p = .ok l) : ∃ e, t.entry? l = some e := by
  obtain ⟨-, k, -, hleads⟩ := resolve_eq_ok_iff_leadsTo.mp h
  refine hleads.exists_entry ⟨.directory, ?_⟩
  rw [Path.start, ite_self]
  exact entry?_root

/-- A star in the file climbs to the top of the module. -/
def StarsTop (t : FileTree) (f : Location) (p : ModulePath) : Prop :=
  ∃ text ss, t.readText .root f.path = .ok text ∧ statementsOf? text = some ss ∧
    ∃ s ∈ ss, s.ClimbsToTop p

lemma exists_ofLocation (h : t.ResolvesTo root f m) :
    ∃ file top, t.resolve .root f.path = .ok file ∧ t.resolve .root root.path = .ok top ∧
      ModulePath.ofLocation file top = .ok m.1 :=
  moduleAt_eq_ok_iff.mp (exists_of_resolvesTo h).1

lemma filled_of_resolvesTo (h : t.ResolvesTo root f m) : m.1.Filled := by
  obtain ⟨file, top, -, -, hmodule⟩ := exists_ofLocation h
  exact (ofLocation_eq_empty hmodule).2.1

/-- A file depends on a module without a name if a star in it climbs to the top. -/
lemma exists_nameless_of_resolvesTo (h : t.ResolvesTo root f m) :
    (∃ p ∈ m.2, p.text = "") ↔ t.StarsTop f m.1 := by
  obtain ⟨-, text, htext, hsource⟩ := exists_of_resolvesTo h
  rw [exists_nameless_import_iff (filled_of_resolvesTo h) hsource]
  constructor
  · rintro ⟨ss, hss, hclimbs⟩
    exact ⟨text, ss, htext, hss, hclimbs⟩
  · rintro ⟨text', ss, htext', hss, hclimbs⟩
    obtain rfl := Except.ok.inj (htext.symm.trans htext')
    exact ⟨ss, hss, hclimbs⟩

/-- Links followed, the file stands for the directory that holds the package. -/
def StandsAbove (t : FileTree) (root f : Location) : Prop :=
  ∃ top n, t.resolve .root root.path = .ok top ∧ n.stem = initStem ∧
    t.resolve .root f.path = .ok (top.parent.child n)

/-- A file that is no directory is a module without a name only if it stands above the package. -/
lemma nameless_of_resolvesTo (h : t.ResolvesTo root f m) :
    m.1.text = "" ↔ t.StandsAbove root f := by
  obtain ⟨file, top, hfile, htop, hmodule⟩ := exists_ofLocation h
  obtain ⟨-, hfilled, hempty⟩ := ofLocation_eq_empty hmodule
  have hbelow : file ≠ top.parent := by
    rintro rfl
    obtain ⟨e, he⟩ := resolve_leads htop
    obtain ⟨-, text, htext, -⟩ := exists_of_resolvesTo h
    obtain ⟨l, hl, htext⟩ := bind_eq_ok_iff.mp htext
    obtain rfl := Except.ok.inj (hfile.symm.trans hl)
    rw [entry?_parent he] at htext
    cases htext
  rw [text_eq_empty_iff hfilled, hempty, or_iff_right hbelow]
  simp [StandsAbove, hfile, htop]

/-- **The module without a name.** A graph has an importer without a name if the filter allows that
name and one of the files stands for the directory that holds the package; in a tree without links
no file of a directory does. A module is recorded as an importer of the module without a name only
for a star without a module in one of its files, behind as many dots as the path of the module has
segments: no other import statement comes to that name. So the name is in the graph if the filter
allows it and one of the two happens. -/
theorem nameless_modules (hroot : t.resolve here path = .ok root)
    (hg : t.importGraph here path F = .ok g) :
    ("" ∈ g.importers ↔ F.allows "" = true ∧ ∃ f ∈ t.sourceFiles root, t.StandsAbove root f) ∧
    (∀ k, g.Imports k "" ↔ F.allows k = true ∧ F.allows "" = true ∧
      ∃ f ∈ t.sourceFiles root, ∃ m, t.ResolvesTo root f m ∧ m.1.text = k ∧ t.StarsTop f m.1) ∧
    ("" ∈ g.nodes ↔ F.allows "" = true ∧ ∃ f ∈ t.sourceFiles root, t.StandsAbove root f ∨
      ∃ m, t.ResolvesTo root f m ∧ F.allows m.1.text = true ∧ t.StarsTop f m.1) ∧
    (t.LinkFree → t.entry? root = some .directory → "" ∉ g.importers) := by
  obtain ⟨ms, hms, rfl⟩ := (importGraph_eq_ok_iff_modules hroot).mp hg
  have hall := forall₂_of_resolveFiles hms
  -- each file is one module, so the name of an importer tells of its place
  have himporter : "" ∈ (graphOf root F ms).importers ↔
      F.allows "" = true ∧ ∃ f ∈ t.sourceFiles root, t.StandsAbove root f := by
    rw [mem_importers_graphOf, exists_module_iff hall]
    refine and_congr_right fun _ => exists_congr fun f => and_congr_right fun hf => ?_
    obtain ⟨m, hm⟩ := exists_of_resolveFiles hms hf
    rw [← nameless_of_resolvesTo hm]
    exact ⟨fun ⟨m', hm', hname⟩ => hm.unique hm' ▸ hname, fun hname => ⟨m, hm, hname⟩⟩
  have himport : ∀ k, (graphOf root F ms).Imports k "" ↔ F.allows k = true ∧ F.allows "" = true ∧
      ∃ f ∈ t.sourceFiles root, ∃ m, t.ResolvesTo root f m ∧ m.1.text = k ∧ t.StarsTop f m.1 := by
    intro k
    rw [imports_graphOf, exists_module_iff hall]
    refine and_congr_right fun _ => and_congr_right fun _ => exists_congr fun f =>
      and_congr_right fun _ => exists_congr fun m => and_congr_right fun hm => ?_
    rw [exists_nameless_of_resolvesTo hm]
  refine ⟨himporter, himport, ?_, fun ht hdir hname => ?_⟩
  · rw [ImportGraph.mem_nodes_iff, himporter]
    simp only [himport]
    constructor
    · rintro (⟨hallow, f, hf, habove⟩ | ⟨k, hk, hallow, f, hf, m, hm, rfl, hstar⟩)
      · exact ⟨hallow, f, hf, .inl habove⟩
      · exact ⟨hallow, f, hf, .inr ⟨m, hm, hk, hstar⟩⟩
    · rintro ⟨hallow, f, hf, habove | ⟨m, hm, hk, hstar⟩⟩
      · exact .inl ⟨hallow, f, hf, habove⟩
      · exact .inr ⟨_, hk, hallow, f, hf, m, hm, rfl, hstar⟩
  · obtain ⟨-, hmodule⟩ := mem_importers_graphOf.mp hname
    obtain ⟨f, hf, m, hm, htext⟩ := (exists_module_iff hall).mp hmodule
    -- in a tree without links each module has the name of the package in front
    obtain ⟨ss, hss⟩ := exists_segments ht hdir hf hm
    rw [text_eq_empty_iff (filled_of_resolvesTo hm), hss] at htext
    cases htext

/-! ### A star at the top -/

def initFile : Location := lone.child initName

/-- A package of this file alone, which imports from what is above it. -/
def starTree : FileTree := empty.add initFile (.file "from . import *\n".toUTF8.data)

lemma starTree_linkFree : starTree.LinkFree := by
  have hentries : starTree.table.entries =
      [(lone, .directory), (initFile, .file "from . import *\n".toUTF8.data)] := rfl
  exact linkFree_of_entries (by simp [hentries])

lemma sourceFiles_starTree : starTree.sourceFiles lone = [initFile] := by
  have hdir : starTree.entry? lone = some .directory := rfl
  have hfile : starTree.entry? initFile = some (.file "from . import *\n".toUTF8.data) := rfl
  have hwithin : starTree.within lone = [lone, initFile] := rfl
  rw [sourceFiles, hwithin]
  simp only [List.filter_cons, List.filter_nil, isSourceFile_eq hdir (by simp),
    isSourceFile_eq hfile (by simp)]
  rfl

lemma exists_starGraph : ∃ imports, starTree.importGraph .root lone.path .all =
    .ok (graphOf lone .all [(⟨["a"]⟩, imports)]) ∧ imports.toList = [.empty] := by
  have hsource : (resolveSource "from . import *\n" ⟨["a"]⟩).toOption.map (·.toList) =
      some [.empty] := by decide +kernel
  obtain ⟨imports, himports, hlist⟩ := Option.map_eq_some_iff.mp hsource
  have hfile : starTree.ResolvesTo lone initFile (⟨["a"]⟩, imports) :=
    resolvesTo_of_source rfl rfl rfl (by decide +kernel) (toOption_eq_some_iff.mp himports)
  have hroot : starTree.resolve .root lone.path = .ok lone :=
    resolve_path (e := .directory) rfl (by simp)
  refine ⟨imports, (importGraph_eq_ok_iff_modules hroot).mpr ⟨_, ?_, rfl⟩, hlist⟩
  rw [ResolvesTo] at hfile
  rw [sourceFiles_starTree, resolveFiles, hfile]
  rfl

lemma imports_starGraph {imports : OrderedSet ModulePath} (h : imports.toList = [.empty]) :
    (graphOf lone .all [(⟨["a"]⟩, imports)]).Imports "a" "" := by
  have htext : ModulePath.text ⟨["a"]⟩ = "a" := by decide +kernel
  have hempty : ModulePath.empty.text = "" := by decide +kernel
  refine imports_graphOf.mpr
    ⟨by simp, by simp, _, List.mem_singleton.mpr rfl, htext, .empty, ?_, hempty⟩
  rw [OrderedSet.mem_def, h]
  exact List.mem_singleton.mpr rfl

/-- The module without a name is in the graph as what the star imports, and as no importer. -/
theorem nameless_modules_star :
    ∃ g, starTree.importGraph .root lone.path .all = .ok g ∧ "" ∉ g.importers ∧
      ∃ f ∈ starTree.sourceFiles lone, ∃ m, starTree.ResolvesTo lone f m ∧ m.1.text = "a" ∧
        starTree.StarsTop f m.1 := by
  obtain ⟨imports, hg, hlist⟩ := exists_starGraph
  have hroot : starTree.resolve .root lone.path = .ok lone :=
    resolve_path (e := .directory) rfl (by simp)
  obtain ⟨-, himports, -, hnone⟩ := nameless_modules hroot hg
  exact ⟨_, hg, hnone starTree_linkFree rfl, ((himports _).mp (imports_starGraph hlist)).2.2⟩

/-- Not every node of a graph has a name: a star in the file of a package can climb out of it. -/
theorem nameless_modules_recorded :
    ¬∀ (t : FileTree) (here : Location) (path : Path) (F : ModuleFilter) (g : ImportGraph),
      t.importGraph here path F = .ok g → "" ∉ g.nodes := by
  intro hnamed
  obtain ⟨imports, hg, hlist⟩ := exists_starGraph
  exact hnamed _ _ _ _ _ hg (ImportGraph.mem_nodes_iff.mpr (.inr ⟨_, imports_starGraph hlist⟩))

end FileTree

end ImportAtlas
