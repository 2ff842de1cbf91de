import ImportAtlas.Proofs.NamelessModule

/-!
Paths of source files, as they are typed.

The file name of a path is what stands behind its last slash, apart from slashes and single dots at
its end. So whether the path is that of a source file, and by what stem, is read off its text. If no
link is on the way, the path leads to an entry of that name, and the stem ends the path of the
module, unless it stands for the directory or the entry holds the package.
-/

namespace ImportAtlas

namespace Path

open ModulePath

variable {text stem : String} {n : FileName} {piece : String}

/-- A text, read from its end, behind all slashes and single dots with a slash in front of them. -/
def dropStays : List Char → List Char
  | '/' :: cs => dropStays cs
  | '.' :: '/' :: cs => dropStays cs
  | cs => cs

/-- What stands behind the last slash, apart from slashes and single dots behind slashes at the
end. -/
def lastComponent (text : String) : String :=
  .ofList ((dropStays text.toList.reverse).takeWhile (· ≠ '/')).reverse

lemma slash_not_mem_lastComponent (text : String) : '/' ∉ (lastComponent text).toList := by
  rw [lastComponent, String.toList_ofList, List.mem_reverse]
  intro h
  simpa using List.mem_takeWhile_imp h

@[simp] lemma lastComponent_slash (text : String) :
    lastComponent (text ++ "/") = lastComponent text := by
  simp [lastComponent, dropStays]

@[simp] lemma lastComponent_slash_dot (text : String) :
    lastComponent (text ++ "/.") = lastComponent text := by
  simp [lastComponent, dropStays]

/-! ### The file name in a text -/

def isStay (piece : String) : Bool := piece = "" || piece = "."

lemma isStay_iff : isStay piece = true ↔ piece = "" ∨ piece = "." := by simp [isStay]

lemma ofText?_of_isStay (h : isStay piece = true) : FileName.ofText? piece = none := by
  rcases isStay_iff.mp h with rfl | rfl <;> rfl

/-- The last piece that leads on is what stands behind the last slash, if that is a name. -/
lemma bind_ofText?_split (cs : List Char) :
    (((split '/' cs.reverse).reverse.map String.ofList).dropWhile isStay).head?.bind
        FileName.ofText? =
      FileName.ofText? (.ofList ((dropStays cs).takeWhile (· ≠ '/')).reverse) := by
  induction cs using dropStays.induct with
  | case1 cs ih =>
    have hsplit : split '/' ('/' :: cs).reverse = split '/' cs.reverse ++ [[]] := by
      rw [List.reverse_cons, split_append_mark]
      rfl
    rw [hsplit, dropStays]
    simpa [isStay] using ih
  | case2 cs ih =>
    have hsplit : split '/' ('.' :: '/' :: cs).reverse = split '/' cs.reverse ++ [['.']] := by
      rw [List.reverse_cons, List.reverse_cons, List.append_assoc, List.singleton_append,
        split_append_mark]
      rfl
    rw [hsplit, dropStays]
    simpa [isStay] using ih
  | case3 cs hslash hdot =>
    rw [dropStays.eq_3 cs hslash hdot]
    rcases split_reverse_cases '/' cs with ⟨-, hsplit⟩ | ⟨above, hcs, hsplit⟩
    · rw [hsplit, List.reverse_singleton, List.map_singleton]
      cases hstay : isStay (.ofList (cs.takeWhile (· ≠ '/')).reverse) with
      | true => rw [ofText?_of_isStay hstay, List.dropWhile_cons_of_pos hstay]; rfl
      | false => rw [List.dropWhile_cons_of_neg (Bool.eq_false_iff.mp hstay)]; rfl
    · -- the last piece is no single dot and not empty, as these were dropped
      have hstay : ¬isStay (.ofList (cs.takeWhile (· ≠ '/')).reverse) = true := by
        rw [isStay_iff, ← String.toList_inj, ← String.toList_inj, String.toList_ofList]
        rintro (hnone | hone)
        · rw [List.reverse_eq_nil_iff.mp hnone] at hcs
          exact hslash above hcs
        · rw [List.reverse_eq_iff.mp hone] at hcs
          exact hdot above hcs
      rw [hsplit, List.reverse_concat, List.map_cons, List.dropWhile_cons_of_neg hstay]
      rfl

lemma fileName?_eq (text : String) : fileName? text = FileName.ofText? (lastComponent text) := by
  have h := bind_ofText?_split text.toList.reverse
  rw [List.reverse_reverse] at h
  unfold fileName? namedPieces
  rw [List.getLast?_reverse, pieces, ← List.map_reverse]
  exact h

/-! ### Source files -/

/-- What has the extension of a source file behind something is a name with that as its stem. -/
lemma exists_fileName (hstem : stem ≠ "") (h : lastComponent text = stem ++ ".py") :
    ∃ n, fileName? text = some n ∧ n.isSource = true ∧ n.stem = stem := by
  have hvalid : isFileName (lastComponent text) = true := by
    refine FileName.isFileName_of_toList_eq (e := "py") (s := stem.toList)
      ⟨by decide, by decide⟩ (by simp [h]) (mt String.toList_eq_nil_iff.mp hstem) fun hslash => ?_
    refine slash_not_mem_lastComponent text ?_
    rw [h, String.toList_append]
    exact List.mem_append_left _ hslash
  have htext : FileName.text ⟨lastComponent text, hvalid⟩ = stem ++ ".py" := h
  exact ⟨⟨lastComponent text, hvalid⟩,
    (fileName?_eq text).trans (FileName.ofText?_eq_some_iff.mpr rfl),
    FileName.isSource_of_text hstem htext, FileName.stem_of_text hstem htext⟩

lemma isSource_iff :
    isSource text = true ↔ ∃ stem, stem ≠ "" ∧ lastComponent text = stem ++ ".py" := by
  rw [isSource, Option.any_eq_true]
  constructor
  · rintro ⟨n, hn, hsource⟩
    rw [fileName?_eq] at hn
    refine ⟨n.stem, n.stem_ne_empty, ?_⟩
    rw [← FileName.ofText?_eq_some_iff.mp hn]
    exact FileName.text_of_isSource hsource
  · rintro ⟨stem, hstem, h⟩
    obtain ⟨n, hn, hsource, -⟩ := exists_fileName hstem h
    exact ⟨n, hn, hsource⟩

/-! ### The last step -/

lemma exists_steps (h : fileName? text = some n) :
    ∃ front stays, (ofText text).steps = front ++ nameStep n :: stays ∧
      ∀ s ∈ stays, ∃ isSlash, s = .stay isSlash := by
  obtain ⟨piece, hlast, hpiece⟩ := Option.bind_eq_some_iff.mp h
  obtain ⟨dir, hdir⟩ := List.getLast?_eq_some_iff.mp hlast
  obtain rfl := FileName.ofText?_eq_some_iff.mp hpiece
  -- the pieces behind the name
  set blanks := ((pieces text).reverse.takeWhile isStay).reverse with hblanks
  have hpieces : pieces text = dir ++ n.text :: blanks := by
    have hcut := List.takeWhile_append_dropWhile (p := isStay) (l := (pieces text).reverse)
    calc
      pieces text = (pieces text).reverse.reverse := (List.reverse_reverse _).symm
      _ = namedPieces text ++ blanks := by
        rw [← hcut, List.reverse_append]
        rfl
      _ = dir ++ n.text :: blanks := by rw [hdir, List.append_assoc, List.singleton_append]
  refine ⟨dir.filterMap stepOf, blanks.filterMap stepOf ++
    (if text.toList.getLast? = some '/' then [.stay true] else []), ?_, fun s hs => ?_⟩
  · simp only [ofText, hpieces, List.filterMap_append, List.append_assoc,
      List.filterMap_cons_some (stepOf_text n), List.cons_append]
  · -- single dots stay where they are, and so does a slash at the end
    rcases List.mem_append.mp hs with hs | hs
    · obtain ⟨piece, hblank, hstep⟩ := List.mem_filterMap.mp hs
      rw [hblanks, List.mem_reverse] at hblank
      rcases isStay_iff.mp (List.mem_takeWhile_imp hblank) with rfl | rfl
      · cases hstep
      · exact ⟨false, (Option.some.inj hstep).symm⟩
    · split at hs
      · exact ⟨true, List.mem_singleton.mp hs⟩
      · cases hs

end Path

/-! ### Paths without links -/

namespace FileTree

variable {t : FileTree} {here l root : Location} {p q : Path} {steps : List Step} {k : ℕ}
variable {n : FileName} {text : String} {m : ModulePath}

/-- No link is on the way of the path, which leads somewhere. -/
def IsDirect (t : FileTree) (here : Location) (p : Path) : Prop :=
  ∃ l, t.Leads (p.start here) p.steps 0 l

lemma Leads.direct (ht : t.LinkFree) (h : t.Leads here steps k l) : t.Leads here steps 0 l := by
  induction h with
  | arrived l => exact .arrived l
  | stay hdir _ ih => exact .stay hdir ih
  | up hdir _ ih => exact .up hdir ih
  | down hdir hentry hlink _ ih => exact .down hdir hentry hlink ih
  | link _ hentry => exact absurd hentry (ht _ _)

/-- In a tree without links there are none on any way. -/
lemma LinkFree.isDirect (ht : t.LinkFree) (h : t.resolve here p = .ok l) : t.IsDirect here p := by
  obtain ⟨-, k, -, hleads⟩ := resolve_eq_ok_iff_leadsTo.mp h
  exact ⟨l, hleads.direct ht⟩

lemma Leads.eq_of_stays (h : t.Leads here steps k l)
    (hsteps : ∀ s ∈ steps, ∃ isSlash, s = .stay isSlash) : l = here := by
  induction h with
  | arrived => rfl
  | stay _ _ ih => exact ih fun s hs => hsteps s (List.mem_cons_of_mem _ hs)
  | up => simpa using hsteps .up (List.mem_cons_self ..)
  | down => simpa using hsteps _ (List.mem_cons_self ..)
  | link => simpa using hsteps _ (List.mem_cons_self ..)

lemma name?_of_direct (hdirect : t.IsDirect here (.ofText text))
    (hp : t.resolve here (.ofText text) = .ok l) (hn : Path.fileName? text = some n) :
    l.name? = some n := by
  obtain ⟨l', hleads⟩ := hdirect
  obtain ⟨-, k, -, hl⟩ := resolve_eq_ok_iff_leadsTo.mp hp
  obtain rfl := hleads.unique hl
  obtain ⟨front, stays, hsteps, hstays⟩ := Path.exists_steps hn
  rw [hsteps] at hleads
  have hdown : Path.nameStep n = .down n := by
    have hunbroken := hleads.broken_not_mem
    unfold Path.nameStep at hunbroken ⊢
    split_ifs at hunbroken ⊢
    · simp at hunbroken
    · rfl
  rw [hdown] at hleads
  obtain ⟨i, j, mid, -, hlast, hlinks⟩ := hleads.split
  -- without links the name leads to its own entry, and all else stays there
  cases hlast with
  | down _ _ _ hrest => rw [hrest.eq_of_stays hstays, Location.name?_child]
  | link => omega

/-! ### The module of a source file -/

/-- Unless the place holds the package, the last segment is the stem. -/
lemma getLast?_ofLocation (h : ModulePath.ofLocation l root = .ok m) (hn : l.name? = some n)
    (hne : l ≠ root.parent) (hstem : n.stem ≠ initStem) : m.segments.getLast? = some n.stem := by
  obtain ⟨-, names, hnames, rfl⟩ := ofLocation_eq_ok_iff.mp h
  rcases List.eq_nil_or_concat' names with rfl | ⟨above, n', rfl⟩
  · rw [List.append_nil] at hnames
    exact absurd (congrArg Location.mk hnames) hne
  · obtain rfl : n' = n := by
      rw [Location.name?, hnames, ← List.append_assoc, List.getLast?_concat] at hn
      exact Option.some.inj hn
    rw [ModulePath.segments_ofNames, ModulePath.ownSegments, if_neg hstem, List.getLast?_concat]

lemma ofLocation_parent (h : ModulePath.ofLocation root.parent root = .ok m) : m = .empty :=
  (ModulePath.ofLocation_eq_empty h).2.2.mpr (.inl rfl)

/-- **Paths of source files.** A path is that of a source file exactly if its last component, apart
from slashes and single dots at the end, is something in front of `.py`, and slashes and single dots
that are added there change nothing. Its stem is then that something. If no link is on the way of
the path and it is a module of a package, the path of the module ends with the stem, unless that
stands for the directory; only for the directory that holds the package there are no segments at
all. With links or without, the path of a module never ends with an empty segment. -/
theorem source_paths (text : String) :
    (Path.isSource text = true ↔ Path.lastComponent text ≠ ".." ∧
      ∃ stem, stem ≠ "" ∧ Path.lastComponent text = stem ++ ".py") ∧
    Path.isSource (text ++ "/") = Path.isSource text ∧
    Path.isSource (text ++ "/.") = Path.isSource text ∧
    (∀ stem, stem ≠ "" → Path.lastComponent text = stem ++ ".py" →
      (Path.fileName? text).map FileName.stem = some stem ∧
      ∀ (t : FileTree) (here root : Location) (q : Path) (m : ModulePath),
        t.IsDirect here (.ofText text) → t.resolve here q = .ok root →
        t.moduleAt here (.ofText text) q = .ok m →
          (t.resolve here (.ofText text) = .ok root.parent → m = .empty) ∧
          (t.resolve here (.ofText text) ≠ .ok root.parent → stem ≠ "__init__" →
            m.segments.getLast? = some stem)) ∧
    ∀ (t : FileTree) (here : Location) (q : Path) (m : ModulePath),
      t.moduleAt here (.ofText text) q = .ok m → m.segments.getLast? ≠ some "" := by
  refine ⟨?_, ?_, ?_, fun stem hstem htext => ?_, fun t here q m hm hlast => ?_⟩
  · rw [Path.isSource_iff, and_iff_right_of_imp]
    rintro ⟨stem, -, hstem⟩ hup
    -- two dots do not end with the extension
    have hlast := congrArg (fun s => s.toList.getLast?) (hup.symm.trans hstem)
    simp at hlast
  · rw [Path.isSource, Path.isSource, Path.fileName?_eq, Path.fileName?_eq,
      Path.lastComponent_slash]
  · rw [Path.isSource, Path.isSource, Path.fileName?_eq, Path.fileName?_eq,
      Path.lastComponent_slash_dot]
  · obtain ⟨n, hn, -, rfl⟩ := Path.exists_fileName hstem htext
    refine ⟨by rw [hn, Option.map_some], fun t here root q m hdirect hroot hm => ?_⟩
    obtain ⟨l, top, hl, htop, hmodule⟩ := moduleAt_eq_ok_iff.mp hm
    obtain rfl := Except.ok.inj (hroot.symm.trans htop)
    rw [hl]
    constructor
    · intro hparent
      obtain rfl := Except.ok.inj hparent
      exact ofLocation_parent hmodule
    · intro hne hinit
      have hname := name?_of_direct hdirect hl hn
      exact getLast?_ofLocation hmodule hname (fun heq => hne (congrArg _ heq)) hinit
  · obtain ⟨l, root, -, -, hmodule⟩ := moduleAt_eq_ok_iff.mp hm
    exact (ModulePath.ofLocation_eq_empty hmodule).2.1 "" (List.mem_of_getLast? hlast) rfl

/-! ### A stem of a dot -/

/-- A file of the package whose stem is a single dot. -/
def dotFile : Location := lone.child ⟨"..py", by decide +kernel⟩

def dotTree : FileTree := empty.add dotFile (.file #[])

/-- A stem of a single dot is the last segment. -/
theorem source_paths_dot :
    Path.isSource "a/./..py" = true ∧ (Path.fileName? "a/./..py").map FileName.stem = some "." ∧
    dotTree.IsDirect .root (.ofText "a/./..py") ∧
    ∃ m, dotTree.moduleAt .root (.ofText "a/./..py") lone.path = .ok m ∧
      m.segments.getLast? = some "." := by
  have hentries : dotTree.table.entries = [(lone, .directory), (dotFile, .file #[])] := rfl
  have hlinks : dotTree.LinkFree := linkFree_of_entries (by simp [hentries])
  have hdir : dotTree.entry? lone = some .directory := rfl
  have hfile : dotTree.entry? dotFile = some (.file #[]) := rfl
  have hpath : Path.ofText "a/./..py" = ⟨false, [.down ⟨"a", by decide +kernel⟩, .stay false,
      .down ⟨"..py", by decide +kernel⟩]⟩ := by decide +kernel
  have hp : dotTree.resolve .root (.ofText "a/./..py") = .ok dotFile := by
    rw [resolve_eq_ok_iff_leadsTo, hpath]
    exact ⟨by simp, 0, Nat.zero_le _,
      .down rfl hdir (by simp) (.stay hdir (.down hdir hfile (by simp) (.arrived dotFile)))⟩
  have hroot : dotTree.resolve .root lone.path = .ok lone := resolve_path hdir (by simp)
  have hdirect := hlinks.isDirect hp
  have hm : dotTree.moduleAt .root (.ofText "a/./..py") lone.path = .ok ⟨["a", "."]⟩ :=
    moduleAt_eq hp hroot
  obtain ⟨hsource, -, -, hstem, -⟩ := source_paths "a/./..py"
  obtain ⟨hname, hmodule⟩ := hstem "." (by decide) (by decide +kernel)
  refine ⟨hsource.mpr ⟨by decide +kernel, ".", by decide, by decide +kernel⟩, hname, hdirect, _, hm,
    (hmodule _ _ _ _ _ hdirect hroot hm).2 ?_ (by decide)⟩
  rw [hp]
  decide

/-! ### A directory called like a source file -/

/-- A directory with the extension of a source file. -/
def sourceDirectory : Location := .child .root ⟨"a.py", by decide +kernel⟩

def heldPackage : Location := sourceDirectory.child ⟨"p", by decide +kernel⟩

def heldTree : FileTree := empty.makeDirectory heldPackage

/-- The directory that holds the package has no stem at the end of its path, whatever it is
called. -/
theorem source_paths_holding :
    ¬∀ (t : FileTree) (here : Location) (text stem : String) (q : Path) (m : ModulePath),
      stem ≠ "" → Path.lastComponent text = stem ++ ".py" → t.LinkFree →
        t.moduleAt here (.ofText text) q = .ok m → stem ≠ "__init__" →
          m.segments.getLast? = some stem := by
  intro hstem
  have hentries : heldTree.table.entries =
      [(sourceDirectory, .directory), (heldPackage, .directory)] := rfl
  have hlinks : heldTree.LinkFree := linkFree_of_entries (by simp [hentries])
  have hdir : heldTree.entry? sourceDirectory = some .directory := rfl
  have hpackage : heldTree.entry? heldPackage = some .directory := rfl
  have hpath : Path.ofText "a.py" = ⟨false, [.down ⟨"a.py", by decide +kernel⟩]⟩ := by
    decide +kernel
  have hp : heldTree.resolve .root (.ofText "a.py") = .ok sourceDirectory := by
    rw [resolve_eq_ok_iff_leadsTo, hpath]
    exact ⟨by simp, 0, Nat.zero_le _, .down rfl hdir (by simp) (.arrived sourceDirectory)⟩
  have hq : heldTree.resolve .root heldPackage.path = .ok heldPackage :=
    resolve_path hpackage (by simp)
  have hm : heldTree.moduleAt .root (.ofText "a.py") heldPackage.path = .ok .empty :=
    moduleAt_eq hp hq
  cases hstem _ _ "a.py" "a" _ _ (by decide) (by decide +kernel) hlinks hm (by decide)

end FileTree

end ImportAtlas
