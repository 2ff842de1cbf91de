import ImportAtlas.Proofs.ArtifactPath
import ImportAtlas.Proofs.LinkedPath
import ImportAtlas.Proofs.ProgramRun

/-!
The place of a package, however the path to it is spelled.

The path of the file that makes a directory a package goes through the directory. So where a path
leads to a package, the place that is found has a path of its own without links on the way, which
leads to the same package.
-/

namespace ImportAtlas

/-! ### Spelled paths -/

namespace Path

open ModulePath

variable {text : String} {n : FileName}

lemma nameStep_eq (hn : '\x00' ∉ n.text.toList) : nameStep n = .down n := by
  rw [nameStep, if_neg hn]

lemma flatMap_pieces {ps : List (List Char)} (h : ps ≠ []) :
    (ps.map String.ofList).flatMap (fun piece => piece.toList ++ ['/']) =
      ModulePath.join '/' ps ++ ['/'] := by
  induction ps with
  | nil => exact absurd rfl h
  | cons p ps ih =>
    by_cases hps : ps = []
    · subst hps
      simp [ModulePath.join]
    · rw [List.map_cons, List.flatMap_cons, ih hps, join_cons hps, String.toList_ofList]
      simp

lemma within_pieces (text name : String) : within (pieces text) name = text ++ "/" ++ name := by
  apply String.toList_injective
  rw [toList_within, pieces, flatMap_pieces (split_ne_nil _ _), join_split]
  simp

lemma head?_pieces (h : text ≠ "") :
    (pieces text).head? = some "" ↔ text.toList.head? = some '/' := by
  have hne : text.toList ≠ [] := mt String.toList_eq_nil_iff.mp h
  obtain ⟨c, cs, htext⟩ := List.exists_cons_of_ne_nil hne
  obtain ⟨piece, ps, hsplit⟩ := List.exists_cons_of_ne_nil (split_ne_nil '/' cs)
  rw [pieces, htext, split]
  by_cases hc : c = '/'
  · simp [hc]
  · simp [hc, hsplit, ← String.toList_inj]

/-- The path of a name in a directory: a slash at the end of the path of the directory goes. -/
lemma exists_ofText_join (h : text ≠ "") (hn : '\x00' ∉ n.text.toList) :
    ∃ steps, ofText (join text n.text) = ⟨(ofText text).isAbsolute, steps ++ [.down n]⟩ ∧
      ((ofText text).steps = steps ∨ (ofText text).steps = steps ++ [.stay true]) := by
  unfold join
  by_cases hslash : text.toList.getLast? = some '/'
  · obtain ⟨body, hbody⟩ := List.getLast?_eq_some_iff.mp hslash
    have htext : text = String.ofList body ++ "/" := by
      rw [← String.toList_inj, hbody]
      simp
    -- the last piece of the path is empty, and the name takes its place
    have hpieces : pieces text = pieces (String.ofList body) ++ [""] := by
      rw [pieces, hbody, split_append_mark, pieces, String.toList_ofList]
      simp [split]
    have hhead : (pieces (String.ofList body)).head? = (pieces text).head? := by
      have hne : pieces (String.ofList body) ≠ [] := by simp [pieces, split_ne_nil]
      rw [hpieces, List.head?_append_of_ne_nil _ hne]
    refine ⟨(pieces (String.ofList body)).filterMap stepOf, ?_, .inr ?_⟩
    · rw [if_pos (by simp [hslash])]
      conv_lhs => rw [htext, ← within_pieces]
      rw [ofText_within arePieces_pieces, nameStep_eq hn, hhead]
      simp [ofText, head?_pieces h]
    · simp [ofText, hslash, hpieces, stepOf]
  · refine ⟨(pieces text).filterMap stepOf, ?_, .inl ?_⟩
    · rw [if_neg (by simp [hslash, h]), ← within_pieces, ofText_within arePieces_pieces,
        nameStep_eq hn]
      simp [ofText, head?_pieces h]
    · simp [ofText, hslash]

/-- A path that is spelled has no names with a NUL in them. -/
lemma not_mem_of_down_mem (h : .down n ∈ (ofText text).steps) : '\x00' ∉ n.text.toList := by
  have hstep : .down n ∈ (pieces text).filterMap stepOf := by
    unfold ofText at h
    rcases List.mem_append.mp h with h | h
    · exact h
    · split at h <;> simp at h
  obtain ⟨piece, -, hpiece⟩ := List.mem_filterMap.mp hstep
  have hname : n.text = piece := FileName.ofText?_eq_some_iff.mp (ofText?_of_stepOf hpiece)
  intro hnul
  rw [← hname, stepOf_text, nameStep, if_pos hnul] at hpiece
  cases hpiece

end Path

namespace Location

open ImportAtlas.Path

/-- No name on the way to the place has a NUL in it, as no name does that an entry can have. -/
def IsUnbroken (l : Location) : Prop := ∀ n ∈ l.names, '\x00' ∉ n.text.toList

namespace IsUnbroken

variable {l : Location} {n : FileName}

lemma root : Location.root.IsUnbroken := fun _ hn => absurd hn List.not_mem_nil

lemma child (h : l.IsUnbroken) (hn : '\x00' ∉ n.text.toList) : (l.child n).IsUnbroken :=
  List.forall_mem_append.mpr ⟨h, List.forall_mem_singleton.mpr hn⟩

lemma parent (h : l.IsUnbroken) : l.parent.IsUnbroken := fun n hn =>
  h n (List.dropLast_subset _ hn)

lemma start (h : l.IsUnbroken) (p : Path) : (p.start l).IsUnbroken := by
  unfold Path.start
  split_ifs
  · exact .root
  · exact h

end IsUnbroken

lemma flatMap_slash (ns : List FileName) (cs : List Char) :
    ns.flatMap (fun n => '/' :: n.text.toList) ++ '/' :: cs =
      '/' :: ns.flatMap (fun n => n.text.toList ++ ['/']) ++ cs := by
  induction ns with
  | nil => rfl
  | cons n ns ih =>
    rw [List.flatMap_cons, List.flatMap_cons, List.append_assoc, ih]
    simp

/-- The text of a place below the root spells the names on the way to it. -/
lemma ofText_text {l : Location} (hl : l.IsUnbroken) (hroot : l ≠ .root) :
    ofText l.text = l.path := by
  obtain ⟨names⟩ := l
  obtain ⟨ns, n, rfl⟩ : ∃ ns n, names = ns ++ [n] :=
    (List.eq_nil_or_concat' names).resolve_left fun h => hroot (h ▸ rfl)
  have hdir : ArePieces ("" :: ns.map FileName.text) := by
    intro piece hpiece
    rcases List.mem_cons.mp hpiece with rfl | hpiece
    · simp
    · obtain ⟨m, -, rfl⟩ := List.mem_map.mp hpiece
      exact m.slash_not_mem
  -- the text has slashes in front of the names, the path of a name has them behind
  have htext : (⟨ns ++ [n]⟩ : Location).text = within ("" :: ns.map FileName.text) n.text := by
    apply String.toList_injective
    have hslash := flatMap_slash ns n.text.toList
    rw [toList_within, Location.text, if_neg (by simp)]
    simpa [String.toList_join, List.flatMap_map] using hslash
  have hsteps : (ns.map FileName.text).filterMap stepOf = ns.map .down := by
    rw [List.filterMap_map, ← List.filterMap_eq_map]
    refine List.filterMap_congr fun m hm => ?_
    rw [Function.comp_apply, stepOf_text, nameStep_eq (hl m (by simp [hm]))]
    rfl
  rw [htext, ofText_within hdir, nameStep_eq (hl n (by simp)), List.filterMap_cons_none (by rfl),
    hsteps]
  simp [Location.path]

end Location

namespace FileTree

variable {t : FileTree} {here here' l d f root : Location} {n : FileName} {k : ℕ}
variable {steps : List Step} {path other : String} {F : ModuleFilter}

lemma Leads.isUnbroken (h : t.Leads here steps k l) (hhere : here.IsUnbroken)
    (hsteps : ∀ n, .down n ∈ steps → '\x00' ∉ n.text.toList) : l.IsUnbroken := by
  induction h with
  | arrived => exact hhere
  | stay _ _ ih => exact ih hhere fun n hn => hsteps n (List.mem_cons_of_mem _ hn)
  | up _ _ ih => exact ih hhere.parent fun n hn => hsteps n (List.mem_cons_of_mem _ hn)
  | down _ _ _ _ ih =>
    refine ih (hhere.child (hsteps _ (List.mem_cons_self ..))) fun n hn => ?_
    exact hsteps n (List.mem_cons_of_mem _ hn)
  | link _ _ _ _ ihtarget ihrest =>
    -- the target is spelled in the tree, so its names have no NUL either
    refine ihrest (ihtarget (hhere.start _) fun n hn => Path.not_mem_of_down_mem hn) fun n hn => ?_
    exact hsteps n (List.mem_cons_of_mem _ hn)

/-- A path that is spelled leads to a place that can be spelled. -/
lemma LeadsTo.isUnbroken (h : t.LeadsTo here (.ofText path) l) (hhere : here.IsUnbroken) :
    l.IsUnbroken := by
  obtain ⟨-, k, -, hleads⟩ := h
  exact hleads.isUnbroken (hhere.start _) fun n hn => Path.not_mem_of_down_mem hn

/-! ### The path of a place -/

/-- The text of a directory leads from the root to it, and no link is on the way. -/
lemma leads_text (hl : l.IsUnbroken) (hdir : t.entry? l = some .directory) :
    t.Leads .root (Path.ofText l.text).steps 0 l ∧ (Path.ofText l.text).isAbsolute = true ∧
      .up ∉ (Path.ofText l.text).steps := by
  by_cases hroot : l = .root
  · subst hroot
    have htext : Path.ofText Location.root.text = ⟨true, [.stay true]⟩ := by decide +kernel
    rw [htext]
    exact ⟨.stay hdir (.arrived _), rfl, by simp⟩
  · rw [Location.ofText_text hl hroot]
    exact ⟨leads_names hdir (by simp), rfl, by simp [Location.path]⟩

lemma leadsTo_text (hl : l.IsUnbroken) (hdir : t.entry? l = some .directory) :
    t.LeadsTo here (.ofText l.text) l := by
  obtain ⟨hleads, habsolute, -⟩ := leads_text hl hdir
  refine ⟨fun _ => habsolute, 0, Nat.zero_le _, ?_⟩
  rwa [Path.start, if_pos habsolute]

lemma entry?_of_prefix {names : List FileName} (h : names <+: l.names)
    (hdir : t.entry? l = some .directory) : t.entry? ⟨names⟩ = some .directory := by
  obtain ⟨rest, hrest⟩ := h
  cases rest with
  | nil =>
    rw [List.append_nil] at hrest
    exact hrest ▸ hdir
  | cons n rest =>
    have hroot : l ≠ .root := by
      rintro rfl
      simp [Location.root] at hrest
    have hkey : (⟨names ++ n :: rest⟩ : Location) ∈ t.table.keys := by
      rw [hrest]
      exact mem_keys_of_entry hdir hroot
    exact (directory_of_split hkey).1

/-! ### A name in a directory -/

/-- The path of a name in a directory leads through the directory, and the links on both parts of
the way count. -/
lemma leadsTo_join_iff (hn : '\x00' ∉ n.text.toList) (hd : t.LeadsTo here (.ofText path) d)
    (hdir : t.entry? d = some .directory) :
    t.LeadsTo here (.ofText (Path.join path n.text)) f ↔
      ∃ i j, i + j ≤ 40 ∧ t.Leads ((Path.ofText path).start here) (Path.ofText path).steps i d ∧
        t.Leads d [.down n] j f := by
  have hpath : path ≠ "" := by
    rintro rfl
    exact absurd (hd.1 (by decide +kernel)) (by decide +kernel)
  obtain ⟨steps, hjoin, hsteps⟩ := Path.exists_ofText_join hpath hn
  obtain ⟨-, k, -, hleads⟩ := hd
  -- a slash at the end only asks for the directory
  have hiff : ∀ i, t.Leads ((Path.ofText path).start here) (Path.ofText path).steps i d ↔
      t.Leads ((Path.ofText path).start here) steps i d := by
    intro i
    rcases hsteps with hsteps | hsteps
    · rw [hsteps]
    · rw [hsteps, Leads.append_stay_iff, and_iff_left hdir]
  have hstart : (Path.ofText (Path.join path n.text)).start here =
      (Path.ofText path).start here := by
    rw [hjoin]
    rfl
  unfold LeadsTo
  rw [hstart, hjoin]
  constructor
  · rintro ⟨-, m, hm, hfile⟩
    obtain ⟨i, j, mid, hfirst, hlast, rfl⟩ := hfile.split
    obtain rfl := ((hiff k).mp hleads).unique hfirst
    exact ⟨i, j, hm, (hiff i).mpr hfirst, hlast⟩
  · rintro ⟨i, j, hij, hfirst, hlast⟩
    exact ⟨by simp, i + j, hij, ((hiff i).mp hfirst).append hlast⟩

/-! ### Packages -/

lemma isDirectory_iff_leadsTo {p : Path} :
    t.isDirectory here p = true ↔ ∃ d, t.LeadsTo here p d ∧ t.entry? d = some .directory := by
  simp only [isDirectory_iff, resolve_eq_ok_iff_leadsTo]

lemma isFile_iff_leadsTo {p : Path} :
    t.isFile here p = true ↔ ∃ f c, t.LeadsTo here p f ∧ t.entry? f = some (.file c) := by
  simp only [isFile_iff, resolve_eq_ok_iff_leadsTo]

lemma packageRoot_cases (t : FileTree) (here : Location) (path : String) :
    (t.isDirectory here (.ofText path) = false ∧
      t.packageRoot here path = .error (.notDirectory path)) ∨
    (t.isDirectory here (.ofText path) = true ∧
      t.isFile here (.ofText (Path.join path initName.text)) = false ∧
      t.packageRoot here path = .error (.notPackage path)) ∨
    t.isDirectory here (.ofText path) = true ∧
      t.isFile here (.ofText (Path.join path initName.text)) = true ∧
      ∃ root, t.packageRoot here path = .ok root := by
  cases hdir : t.isDirectory here (.ofText path) with
  | false => exact .inl ⟨rfl, by simp [packageRoot, hdir]⟩
  | true =>
    obtain ⟨root, hroot, hentry⟩ := isDirectory_iff.mp hdir
    cases hfile : t.isFile here (.ofText (Path.join path initName.text)) with
    | false => exact .inr (.inl ⟨rfl, rfl, by simp [packageRoot, hdir, hfile]⟩)
    | true =>
      exact .inr (.inr ⟨rfl, rfl, root, packageRoot_eq_ok_iff.mpr ⟨hroot, hentry, hfile⟩⟩)

lemma unbroken_initName : '\x00' ∉ initName.text.toList := by decide +kernel

lemma packageRoot_text (hhere : here.IsUnbroken) (h : t.packageRoot here path = .ok root) :
    t.packageRoot here' root.text = .ok root := by
  obtain ⟨hroot, hdir, hfile⟩ := packageRoot_eq_ok_iff.mp h
  rw [resolve_eq_ok_iff_leadsTo] at hroot
  have hunbroken := hroot.isUnbroken hhere
  have htext : t.LeadsTo here' (.ofText root.text) root := leadsTo_text hunbroken hdir
  obtain ⟨f, c, hf, hentry⟩ := isFile_iff_leadsTo.mp hfile
  obtain ⟨i, j, hij, -, hlast⟩ := (leadsTo_join_iff unbroken_initName hroot hdir).mp hf
  refine packageRoot_eq_ok_iff.mpr ⟨resolve_eq_ok_iff_leadsTo.mpr htext, hdir, ?_⟩
  refine isFile_iff_leadsTo.mpr ⟨f, c, ?_, hentry⟩
  -- no link is on the way to the place, so there are no fewer left for the file
  obtain ⟨hleads, habsolute, -⟩ := leads_text hunbroken hdir
  refine (leadsTo_join_iff unbroken_initName htext hdir).mpr ⟨0, j, by omega, ?_, hlast⟩
  rwa [Path.start, if_pos habsolute]

/-- A graph depends on the place of its package alone. -/
lemma importGraph_of_leadsTo {p q : Path} (hp : t.LeadsTo here p d) (hq : t.LeadsTo here' q d) :
    t.importGraph here p F = t.importGraph here' q F := by
  unfold importGraph
  rw [resolve_eq_ok_iff_leadsTo.mpr hp, resolve_eq_ok_iff_leadsTo.mpr hq]

/-- **The place of a package.** A path that leads to no directory is refused for that; one that
leads to a directory is refused if the path of the file of a package in it leads to no file.
Otherwise the place of the directory is found, and no other error comes up. On the way to that place
there are only directories, so its text is an absolute path without links or steps upwards; it leads
to the same place, which is found to be a package again, and has the same graph by any filter. So
all paths that lead to one directory have the same graph or the same error. -/
theorem packageRoot_spec (t : FileTree) {here : Location} (path : String)
    (hhere : here.IsUnbroken) :
    (t.packageRoot here path = .error (.notDirectory path) ↔
      ¬∃ d, t.LeadsTo here (.ofText path) d ∧ t.entry? d = some .directory) ∧
    (t.packageRoot here path = .error (.notPackage path) ↔
      (∃ d, t.LeadsTo here (.ofText path) d ∧ t.entry? d = some .directory) ∧
        ¬∃ f c, t.LeadsTo here (.ofText (Path.join path initName.text)) f ∧
          t.entry? f = some (.file c)) ∧
    (∀ r, t.packageRoot here path = .ok r ↔
      t.LeadsTo here (.ofText path) r ∧ t.entry? r = some .directory ∧
        ∃ f c, t.LeadsTo here (.ofText (Path.join path initName.text)) f ∧
          t.entry? f = some (.file c)) ∧
    (∀ e, t.packageRoot here path ≠ .error (.file e)) ∧
    (∀ r, t.packageRoot here path = .ok r →
      (∀ names, names <+: r.names → t.entry? ⟨names⟩ = some .directory) ∧
      t.Leads .root (Path.ofText r.text).steps 0 r ∧
      (Path.ofText r.text).isAbsolute = true ∧ .up ∉ (Path.ofText r.text).steps ∧
      ∀ here', t.packageRoot here' r.text = .ok r ∧
        ∀ F, t.importGraph here' (.ofText r.text) F = t.importGraph here (.ofText path) F) ∧
    ∀ here' other d, t.LeadsTo here (.ofText path) d → t.LeadsTo here' (.ofText other) d →
      ∀ F, t.importGraph here (.ofText path) F = t.importGraph here' (.ofText other) F := by
  rw [← isDirectory_iff_leadsTo, ← isFile_iff_leadsTo]
  refine ⟨?_, ?_, fun r => ?_, fun e he => ?_, fun r hr => ?_, fun here' other d hd hother F => ?_⟩
  · rcases t.packageRoot_cases here path with ⟨hdir, h⟩ | ⟨hdir, -, h⟩ | ⟨hdir, -, r, h⟩ <;>
      simp [hdir, h]
  · rcases t.packageRoot_cases here path with ⟨hdir, h⟩ | ⟨hdir, hfile, h⟩ | ⟨hdir, hfile, r, h⟩
    · simp [hdir, h]
    · simp [hdir, hfile, h]
    · simp [hfile, h]
  · rw [packageRoot_eq_ok_iff, resolve_eq_ok_iff_leadsTo]
  · rcases t.packageRoot_cases here path with ⟨-, h⟩ | ⟨-, -, h⟩ | ⟨-, -, r, h⟩ <;>
      simp [h] at he
  · -- the place found has a text of its own, which leads to it without links
    obtain ⟨hroot, hdir, -⟩ := packageRoot_eq_ok_iff.mp hr
    rw [resolve_eq_ok_iff_leadsTo] at hroot
    have hunbroken := hroot.isUnbroken hhere
    obtain ⟨hleads, habsolute, hup⟩ := leads_text hunbroken hdir
    refine ⟨fun names hnames => entry?_of_prefix hnames hdir, hleads, habsolute, hup,
      fun here' => ⟨packageRoot_text hhere hr, fun F => ?_⟩⟩
    exact importGraph_of_leadsTo (leadsTo_text hunbroken hdir) hroot
  · exact importGraph_of_leadsTo hd hother

/-! ### A package behind links -/

def linkName : FileName := ⟨"l", by decide +kernel⟩

/-- A package whose file is a link to the other file in it, and a link to the package. -/
def windingTree : FileTree :=
  ((loneTree #[]).put (lone.child initName) (.link "b.py")).put
    (Location.root.child linkName) (.link "/a/.")

lemma leads_winding (h : windingTree.Leads lone steps k l) :
    windingTree.Leads .root (.down linkName :: steps) (1 + 0 + k) l := by
  have hdir : windingTree.entry? lone = some .directory := rfl
  have hlink : windingTree.entry? (Location.root.child linkName) = some (.link "/a/.") := rfl
  have htarget : Path.ofText "/a/." = ⟨true, [.down ⟨"a", by decide +kernel⟩, .stay false]⟩ := by
    decide +kernel
  refine .link rfl hlink ?_ h
  rw [htarget]
  exact .down rfl hdir (by simp) (.stay hdir (.arrived lone))

lemma leads_winding_init : windingTree.Leads lone [.down initName] (1 + 0 + 0) loneFile := by
  have hdir : windingTree.entry? lone = some .directory := rfl
  have hfile : windingTree.entry? loneFile = some (.file #[]) := rfl
  have hlink : windingTree.entry? (lone.child initName) = some (.link "b.py") := rfl
  have htarget : Path.ofText "b.py" = ⟨false, [.down ⟨"b.py", by decide +kernel⟩]⟩ := by
    decide +kernel
  refine .link hdir hlink ?_ (.arrived loneFile)
  rw [htarget]
  exact .down hdir hfile (by simp) (.arrived loneFile)

/-- The link is met twice on the way to the package, and the file of the package is a link. -/
theorem packageRoot_winding :
    windingTree.packageRoot .root "l/../l/" = .ok lone ∧
    windingTree.packageRoot lone "/a" = .ok lone ∧
    ∀ F, windingTree.importGraph .root (.ofText "l/../l/") F =
      windingTree.importGraph lone (.ofText "../l") F := by
  have hdir : windingTree.entry? lone = some .directory := rfl
  have hfile : windingTree.entry? loneFile = some (.file #[]) := rfl
  have hpath : Path.ofText "l/../l/" =
      ⟨false, [.down linkName, .up, .down linkName, .stay true]⟩ := by
    decide +kernel
  have hother : Path.ofText "../l" = ⟨false, [.up, .down linkName]⟩ := by decide +kernel
  have hjoin : Path.ofText (Path.join "l/../l/" initName.text) =
      ⟨false, [.down linkName, .up, .down linkName, .down initName]⟩ := by decide +kernel
  have hleads : windingTree.LeadsTo .root (.ofText "l/../l/") lone := by
    rw [hpath]
    exact ⟨by simp, _, by decide,
      leads_winding (.up hdir (leads_winding (.stay hdir (.arrived lone))))⟩
  have hleadsOther : windingTree.LeadsTo lone (.ofText "../l") lone := by
    rw [hother]
    exact ⟨by simp, _, by decide, .up hdir (leads_winding (.arrived lone))⟩
  have hleadsFile : windingTree.LeadsTo .root (.ofText (Path.join "l/../l/" initName.text))
      loneFile := by
    rw [hjoin]
    exact ⟨by simp, _, by decide, leads_winding (.up hdir (leads_winding leads_winding_init))⟩
  obtain ⟨-, -, hok, -, hplace, hgraph⟩ := packageRoot_spec windingTree "l/../l/" .root
  have hroot := (hok lone).mpr ⟨hleads, hdir, loneFile, _, hleadsFile, hfile⟩
  have htext : lone.text = "/a" := by decide +kernel
  have hagain := ((hplace lone hroot).2.2.2.2 lone).1
  rw [htext] at hagain
  exact ⟨hroot, hagain, hgraph lone "../l" lone hleads hleadsOther⟩

end FileTree

end ImportAtlas
