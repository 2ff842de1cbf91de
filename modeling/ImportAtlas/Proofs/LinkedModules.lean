import ImportAtlas.Proofs.AddedFiles
import ImportAtlas.Proofs.FilteredScan

/-!
Links that are added to the directories of a package.

A walk does not follow links. One that leads nowhere or to a directory is no source file, and one
that leads to a source file of the package is the same module as that file. So the graph does not
change: a module that is met once more is merged with itself.
-/

namespace ImportAtlas

namespace FileTree

variable {t t' : FileTree} {here root l x : Location} {files : List Location} {p q r : Path}
variable {F : ModuleFilter} {g : ImportGraph} {ms ms' : List ResolvedModule}

/-! ### Graphs of the same modules -/

/-- A graph does not depend on how often a module is listed, or where. -/
lemma graphOf_congr (h : ∀ m, m ∈ ms ↔ m ∈ ms') : graphOf root F ms = graphOf root F ms' := by
  have htable : (graphOf root F ms).table = (graphOf root F ms').table := by
    refine ImportTable.eq_of_lists_iff (fun k => ?_) fun k v => ?_
    · show k ∈ (graphOf root F ms).importers ↔ k ∈ (graphOf root F ms').importers
      simp only [mem_importers_graphOf, h]
    · show (graphOf root F ms).Imports k v ↔ (graphOf root F ms').Imports k v
      simp only [imports_graphOf, h]
  exact congrArg (ImportGraph.mk (packageName root) F) htable

lemma exists_of_resolveFiles {f : Location} (h : t.resolveFiles root files = .ok ms)
    (hf : f ∈ files) : ∃ m, t.ResolvesTo root f m := by
  induction files generalizing ms with
  | nil => cases hf
  | cons f' fs ih =>
    rw [resolveFiles] at h
    split at h
    · cases h
    · rename_i m hfirst
      obtain ⟨rest, hrest, -⟩ := map_eq_ok_iff.mp h
      rcases List.mem_cons.mp hf with rfl | hf
      · exact ⟨m, hfirst⟩
      · exact ih hrest hf

/-- The modules of a list of files that resolves are those of its files, one by one. -/
lemma forall₂_of_resolveFiles (h : t.resolveFiles root files = .ok ms) :
    List.Forall₂ (t.ResolvesTo root) files ms := by
  obtain ⟨ms', hms', hall⟩ := resolveFiles_ok fun f hf => exists_of_resolveFiles h hf
  obtain rfl : ms' = ms := Except.ok.inj (hms'.symm.trans h)
  exact hall

lemma importGraph_eq_ok_iff_modules {path : Path} (hroot : t.resolve here path = .ok root) :
    t.importGraph here path F = .ok g ↔
      ∃ ms, t.resolveFiles root (t.sourceFiles root) = .ok ms ∧ graphOf root F ms = g := by
  simp only [importGraph_eq hroot, map_eq_ok_iff, mapError_eq_ok_iff]

/-- The files of two packages are the same modules. -/
def SameModules (t t' : FileTree) (root : Location) : Prop :=
  (∀ f ∈ t.sourceFiles root, ∃ f' ∈ t'.sourceFiles root,
    t'.resolveFile .root f'.path root.path = t.resolveFile .root f.path root.path) ∧
  ∀ f' ∈ t'.sourceFiles root, ∃ f ∈ t.sourceFiles root,
    t'.resolveFile .root f'.path root.path = t.resolveFile .root f.path root.path

lemma SameModules.resolveFiles (h : SameModules t t' root)
    (hms : t.resolveFiles root (t.sourceFiles root) = .ok ms) :
    ∃ ms', t'.resolveFiles root (t'.sourceFiles root) = .ok ms' ∧
      graphOf root F ms' = graphOf root F ms := by
  have hall := forall₂_of_resolveFiles hms
  -- each of the files is the same module as one from before, which resolved
  have hothers : ∀ f' ∈ t'.sourceFiles root, ∃ m, t'.ResolvesTo root f' m := by
    intro f' hf'
    obtain ⟨f, hf, heq⟩ := h.2 f' hf'
    obtain ⟨m, hm⟩ := exists_of_resolveFiles hms hf
    exact ⟨m, heq.trans hm⟩
  obtain ⟨ms', hms', hall'⟩ := resolveFiles_ok hothers
  refine ⟨ms', hms', graphOf_congr fun m => ?_⟩
  have hleft := exists_module_iff (P := (· = m)) hall
  have hright := exists_module_iff (P := (· = m)) hall'
  simp only [exists_eq_right] at hleft hright
  rw [hleft, hright]
  constructor
  · rintro ⟨f', hf', hm⟩
    obtain ⟨f, hf, heq⟩ := h.2 f' hf'
    exact ⟨f, hf, heq.symm.trans hm⟩
  · rintro ⟨f, hf, hm⟩
    obtain ⟨f', hf', heq⟩ := h.1 f hf
    exact ⟨f', hf', heq.trans hm⟩

/-! ### Links -/

/-- The path leads nowhere, to a directory, or to a source file of the package at `root`. -/
def IsPassive (t : FileTree) (root : Location) (p : Path) : Prop :=
  ∀ x, t.resolve .root p = .ok x →
    t.entry? x = some .directory ∨
      (∃ c, t.entry? x = some (.file c)) ∧ root.names <+: x.names ∧
        x.name?.any FileName.isSource = true

/-- A tree with links at new places, none of which leads to any other file than a source file of
the package at `root`. -/
structure LinksAdded (t t' : FileTree) (root : Location) : Prop where
  kept : ∀ l e, t.entry? l = some e → t'.entry? l = some e
  added : ∀ l e, t'.entry? l = some e →
    t.entry? l = some e ∨ (∃ target, e = .link target) ∧ t'.IsPassive root l.path

namespace LinksAdded

variable (ht : t.LinkFree) (h : LinksAdded t t' root)

include h

lemma entry? {e : Entry} (hx : t'.entry? x = some e) (he : ∀ target, e ≠ .link target) :
    t.entry? x = some e := by
  rcases h.added x e hx with hold | ⟨⟨target, htarget⟩, -⟩
  · exact hold
  · exact absurd htarget (he target)

include ht

lemma resolve {e : Entry} (hx : t.entry? x = some e) (hp : t.resolve here p = .ok x) :
    t'.resolve here p = .ok x := by
  have hx' := h.kept x e hx
  refine resolve_keeps ht (fun y => h.kept y _) (fun target hlink => ?_) id (.inr ⟨e, hx'⟩) hp
  rw [hx', Option.some.injEq] at hlink
  exact ht x target (hlink ▸ hx)

lemma resolveFile (hdir : t.entry? root = some .directory) (hx : x ∈ t.sourceFiles root) :
    x ∈ t'.sourceFiles root ∧
      t'.resolveFile .root x.path root.path = t.resolveFile .root x.path root.path := by
  obtain ⟨⟨c, hc⟩, hwithin, hname⟩ := ht.mem_sourceFiles_iff.mp hx
  have hc' := h.kept x _ hc
  have hroot : x ≠ .root := by
    rintro rfl
    rw [entry?_root] at hc
    cases hc
  refine ⟨FileTree.mem_sourceFiles_iff.mpr ⟨mem_keys_of_entry hc' hroot, hwithin, ?_⟩,
    resolveFile_congr hdir (h.kept root _ hdir) hc hc'⟩
  rw [isSourceFile_eq hc' (by simp), hname]
  simp

/-- A source file is one from before, or a link to one. -/
lemma exists_sourceFile (hl : l ∈ t'.sourceFiles root) :
    ∃ x ∈ t.sourceFiles root, t'.resolve .root l.path = .ok x := by
  obtain ⟨hkey, hwithin, hsource⟩ := FileTree.mem_sourceFiles_iff.mp hl
  rw [isSourceFile, Bool.and_eq_true] at hsource
  obtain ⟨hfile, hname⟩ := hsource
  obtain ⟨x, c, hx, hc⟩ := isFile_iff.mp hfile
  obtain ⟨e, he⟩ := OrderedMap.mem_keys_iff.mp hkey
  rw [← entry?_eq_find? (t'.isRooted l hkey).1] at he
  rcases h.added l e he with hold | ⟨-, hpassive⟩
  · -- the place itself is a file from before
    have hpath : t'.resolve .root l.path = .ok l :=
      resolve_path he fun target htarget => ht l target (htarget ▸ hold)
    obtain rfl : l = x := Except.ok.inj (hpath.symm.trans hx)
    exact ⟨l, ht.mem_sourceFiles_iff.mpr ⟨⟨c, h.entry? hc (by simp)⟩, hwithin, hname⟩, hpath⟩
  · -- a new link that leads to a file leads to one of the package
    rcases hpassive x hx with hdir | ⟨-, hwithin', hname'⟩
    · rw [hc] at hdir
      cases hdir
    · exact ⟨x, ht.mem_sourceFiles_iff.mpr ⟨⟨c, h.entry? hc (by simp)⟩, hwithin', hname'⟩, hx⟩

lemma sameModules (hdir : t.entry? root = some .directory) : SameModules t t' root := by
  refine ⟨fun f hf => ?_, fun f' hf' => ?_⟩
  · obtain ⟨hmem, heq⟩ := h.resolveFile ht hdir hf
    exact ⟨f, hmem, heq⟩
  · obtain ⟨x, hx, hpath⟩ := h.exists_sourceFile ht hf'
    refine ⟨x, hx, ?_⟩
    obtain ⟨⟨c, hc⟩, -, -⟩ := ht.mem_sourceFiles_iff.mp hx
    have hx' : t'.resolve .root x.path = .ok x := resolve_path (h.kept x _ hc) (by simp)
    rw [← (h.resolveFile ht hdir hx).2]
    unfold FileTree.resolveFile moduleAt readText
    rw [hpath, hx']

end LinksAdded

/-- **Links and modules.** A package keeps its graph when links are put into it that lead nowhere,
to directories, or to source files of the package. -/
theorem importGraph_links {path : Path} (ht : t.LinkFree)
    (hroot : t.resolve here path = .ok root) (hdir : t.entry? root = some .directory)
    (hlinks : LinksAdded t t' root) (hg : t.importGraph here path F = .ok g) :
    t'.importGraph here path F = .ok g := by
  obtain ⟨ms, hms, rfl⟩ := (importGraph_eq_ok_iff_modules hroot).mp hg
  have hroot' := hlinks.resolve ht hdir hroot
  exact (importGraph_eq_ok_iff_modules hroot').mpr ((hlinks.sameModules ht hdir).resolveFiles hms)

/-! ### Links beside a file -/

/-- The package of one file with links to that file, to the directory around it and to itself. -/
def linkedTree (content : Array UInt8) : FileTree :=
  (((loneTree content).put (lone.child ⟨"c.py", by decide +kernel⟩) (.link "b.py")).put
    (lone.child ⟨"d.py", by decide +kernel⟩) (.link "..")).put
      (lone.child ⟨"e.py", by decide +kernel⟩) (.link "e.py")

variable {content : Array UInt8}

lemma entry?_linkedTree :
    entry? (linkedTree content) x =
      if x = lone.child ⟨"e.py", by decide +kernel⟩ then some (.link "e.py")
      else if x = lone.child ⟨"d.py", by decide +kernel⟩ then some (.link "..")
      else if x = lone.child ⟨"c.py", by decide +kernel⟩ then some (.link "b.py")
      else entry? (loneTree content) x := by
  unfold linkedTree
  rw [entry?_put rfl, entry?_put rfl, entry?_put rfl]

lemma loneTree_linkFree : (loneTree content).LinkFree := by
  have hentries : (loneTree content).table.entries =
      [(lone, .directory), (loneFile, .file content)] := rfl
  exact linkFree_of_entries (by simp [hentries])

lemma resolve_lone_link {n : FileName} {target : String}
    (h : entry? (linkedTree content) (lone.child n) = some (.link target))
    (hrelative : (Path.ofText target).isAbsolute = false) :
    (linkedTree content).resolve .root (lone.child n).path =
      (linkedTree content).follow false 39 lone (Path.ofText target).steps := by
  have hdir : entry? (linkedTree content) lone = some .directory := rfl
  have hpath : (linkedTree content).resolve .root (lone.child n).path =
      (linkedTree content).follow false 40 .root [.down ⟨"a", by decide +kernel⟩, .down n] := by
    simp [FileTree.resolve, Location.path, Location.child, lone]
  rw [hpath, follow_down rfl hdir (by simp)]
  refine (follow_link hdir h).trans ?_
  rw [hrelative, List.append_nil]
  rfl

/-- A link to itself is followed in vain. -/
lemma follow_loop {k : ℕ} :
    (linkedTree content).follow false k lone [.down ⟨"e.py", by decide +kernel⟩] =
      .error .linkLoop := by
  have hdir : entry? (linkedTree content) lone = some .directory := rfl
  have hlink : entry? (linkedTree content) (lone.child ⟨"e.py", by decide +kernel⟩) =
      some (.link "e.py") := rfl
  induction k with
  | zero =>
    rw [follow]
    simp [hdir, hlink]
  | succ k ih =>
    rw [follow_link hdir hlink, List.append_nil]
    exact ih

lemma isPassive_lone {n : FileName} {target : String}
    (h : entry? (linkedTree content) (lone.child n) = some (.link target))
    (htarget : target ∈ ["b.py", "..", "e.py"]) :
    (linkedTree content).IsPassive lone (lone.child n).path := by
  have hdir : entry? (linkedTree content) lone = some .directory := rfl
  have hfile : entry? (linkedTree content) loneFile = some (.file content) := rfl
  intro x hx
  simp only [List.mem_cons, List.not_mem_nil, or_false] at htarget
  rcases htarget with rfl | rfl | rfl
  · rw [resolve_lone_link h (by decide +kernel),
      show (Path.ofText "b.py").steps = [.down ⟨"b.py", by decide +kernel⟩] by decide +kernel,
      follow_down hdir hfile (by simp), follow] at hx
    obtain rfl : loneFile = x := Except.ok.inj hx
    exact .inr ⟨⟨content, hfile⟩, Location.prefix_child _ _, by decide +kernel⟩
  · rw [resolve_lone_link h (by decide +kernel),
      show (Path.ofText "..").steps = [.up] by decide +kernel, follow] at hx
    rw [hdir, if_neg (by simp), follow] at hx
    obtain rfl : lone.parent = x := Except.ok.inj hx
    exact .inl rfl
  · rw [resolve_lone_link h (by decide +kernel),
      show (Path.ofText "e.py").steps = [.down ⟨"e.py", by decide +kernel⟩] by decide +kernel,
      follow_loop] at hx
    cases hx

lemma linksAdded_lone : LinksAdded (loneTree content) (linkedTree content) lone := by
  constructor
  · intro l e hl
    -- at the places of the links there was nothing
    have hnew : ∀ n : FileName, entry? (loneTree content) (lone.child n) = none →
        l ≠ lone.child n := by
      rintro n hnone rfl
      rw [hnone] at hl
      cases hl
    rw [entry?_linkedTree, if_neg (hnew _ rfl), if_neg (hnew _ rfl), if_neg (hnew _ rfl)]
    exact hl
  · intro l e hl
    have hentry := hl
    rw [entry?_linkedTree] at hl
    split_ifs at hl with he hd hc
    · subst he
      obtain rfl := Option.some.inj hl
      exact .inr ⟨⟨_, rfl⟩, isPassive_lone hentry (by simp)⟩
    · subst hd
      obtain rfl := Option.some.inj hl
      exact .inr ⟨⟨_, rfl⟩, isPassive_lone hentry (by simp)⟩
    · subst hc
      obtain rfl := Option.some.inj hl
      exact .inr ⟨⟨_, rfl⟩, isPassive_lone hentry (by simp)⟩
    · exact .inl hl

theorem importGraph_links_lone :
    ∃ g, (loneTree "import os\n".toUTF8.data).importGraph .root lone.path .all = .ok g ∧
      (linkedTree "import os\n".toUTF8.data).importGraph .root lone.path .all = .ok g := by
  obtain ⟨imports, hg⟩ := exists_importGraph_lone_import
  exact ⟨_, hg, importGraph_links loneTree_linkFree (resolve_lone _) rfl linksAdded_lone hg⟩

end FileTree

end ImportAtlas
