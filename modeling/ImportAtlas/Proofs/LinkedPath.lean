import ImportAtlas.Proofs.LinkFree

/-!
Paths through links.

A path leads from place to place, step by step. A link leads to where its target leads from the
directory that the link is in, and the path goes on from there. Paths that are put together lead on
from one place to the next, and following a path comes to the place to which it leads, unless there
are too many links on the way.
-/

namespace ImportAtlas.FileTree

/-- The steps lead from one place to another, with so many links on the way. -/
inductive Leads (t : FileTree) : Location → List Step → ℕ → Location → Prop where
  | arrived (l : Location) : Leads t l [] 0 l
  | stay {here l : Location} {isSlash : Bool} {steps : List Step} {k : ℕ}
      (hdir : t.entry? here = some .directory) (hrest : Leads t here steps k l) :
      Leads t here (.stay isSlash :: steps) k l
  | up {here l : Location} {steps : List Step} {k : ℕ}
      (hdir : t.entry? here = some .directory) (hrest : Leads t here.parent steps k l) :
      Leads t here (.up :: steps) k l
  | down {here l : Location} {n : FileName} {e : Entry} {steps : List Step} {k : ℕ}
      (hdir : t.entry? here = some .directory) (hentry : t.entry? (here.child n) = some e)
      (hlink : ∀ target, e ≠ .link target) (hrest : Leads t (here.child n) steps k l) :
      Leads t here (.down n :: steps) k l
  | link {here mid l : Location} {n : FileName} {target : String} {steps : List Step} {j k : ℕ}
      (hdir : t.entry? here = some .directory)
      (hentry : t.entry? (here.child n) = some (.link target))
      (htarget : Leads t ((Path.ofText target).start here) (Path.ofText target).steps j mid)
      (hrest : Leads t mid steps k l) : Leads t here (.down n :: steps) (1 + j + k) l

variable {t : FileTree} {here mid l l' : Location} {steps first rest : List Step} {i j k links : ℕ}
variable {p : Path}

namespace Leads

/-! ### Paths put together -/

lemma append (h : t.Leads here first i mid) (h' : t.Leads mid rest j l) :
    t.Leads here (first ++ rest) (i + j) l := by
  induction h with
  | arrived => simpa using h'
  | stay hdir _ ih => exact .stay hdir (ih h')
  | up hdir _ ih => exact .up hdir (ih h')
  | down hdir hentry hlink _ ih => exact .down hdir hentry hlink (ih h')
  | link hdir hentry htarget _ _ ih =>
    rw [Nat.add_assoc]
    exact .link hdir hentry htarget (ih h')

/-- Half way there is a place to which the first half leads. -/
lemma split (h : t.Leads here (first ++ rest) k l) :
    ∃ i j mid, t.Leads here first i mid ∧ t.Leads mid rest j l ∧ i + j = k := by
  induction first generalizing here k with
  | nil => exact ⟨0, k, here, .arrived here, h, Nat.zero_add k⟩
  | cons step first ih =>
    cases h with
    | stay hdir hrest =>
      obtain ⟨i, j, mid, hfirst, hlast, hk⟩ := ih hrest
      exact ⟨i, j, mid, .stay hdir hfirst, hlast, hk⟩
    | up hdir hrest =>
      obtain ⟨i, j, mid, hfirst, hlast, hk⟩ := ih hrest
      exact ⟨i, j, mid, .up hdir hfirst, hlast, hk⟩
    | down hdir hentry hlink hrest =>
      obtain ⟨i, j, mid, hfirst, hlast, hk⟩ := ih hrest
      exact ⟨i, j, mid, .down hdir hentry hlink hfirst, hlast, hk⟩
    | link hdir hentry htarget hrest =>
      -- the target of the link was followed before the place half way
      obtain ⟨i, j, mid, hfirst, hlast, rfl⟩ := ih hrest
      exact ⟨_, j, mid, .link hdir hentry htarget hfirst, hlast, Nat.add_assoc ..⟩

/-- A step that stays where it is asks for a directory. -/
lemma append_stay_iff {isSlash : Bool} :
    t.Leads here (steps ++ [.stay isSlash]) k l ↔
      t.Leads here steps k l ∧ t.entry? l = some .directory := by
  constructor
  · intro h
    obtain ⟨i, j, mid, hfirst, hlast, rfl⟩ := h.split
    cases hlast with
    | stay hdir hrest =>
      cases hrest
      exact ⟨hfirst, hdir⟩
  · rintro ⟨h, hdir⟩
    exact h.append (.stay hdir (.arrived l))

lemma broken_not_mem (h : t.Leads here steps k l) : .broken ∉ steps := by
  induction h with
  | arrived => exact List.not_mem_nil
  | stay _ _ ih => simpa using ih
  | up _ _ ih => simpa using ih
  | down _ _ _ _ ih => simpa using ih
  | link _ _ _ _ _ ih => simpa using ih

/-- From a place where there is something steps lead to such a place. -/
lemma exists_entry (h : t.Leads here steps k l) (hhere : ∃ e, t.entry? here = some e) :
    ∃ e, t.entry? l = some e := by
  induction h with
  | arrived => exact hhere
  | stay _ _ ih => exact ih hhere
  | up hdir _ ih => exact ih ⟨_, entry?_parent hdir⟩
  | down _ hentry _ _ ih => exact ih ⟨_, hentry⟩
  | link _ _ _ _ ihtarget ihrest =>
    refine ihrest (ihtarget ?_)
    rw [Path.start]
    split_ifs
    · exact ⟨_, entry?_root⟩
    · exact hhere

/-! ### Following a path -/

/-- Following a path goes on from the place to which its first half leads, with the links that are
left. -/
lemma follow_append (h : t.Leads here first k mid) (hk : k ≤ links) :
    t.follow false links here (first ++ rest) = t.follow false (links - k) mid rest := by
  induction h generalizing links rest with
  | arrived => rfl
  | stay hdir _ ih =>
    rw [List.cons_append, follow, if_neg (not_not.mpr hdir)]
    exact ih hk
  | up hdir _ ih =>
    rw [List.cons_append, follow, if_neg (not_not.mpr hdir)]
    exact ih hk
  | down hdir hentry hlink _ ih =>
    rw [List.cons_append, follow_down hdir hentry hlink]
    exact ih hk
  | @link here mid l n target steps j k hdir hentry _ _ ihtarget ihrest =>
    obtain ⟨links, rfl⟩ := Nat.exists_eq_add_of_le hk
    -- of the links that are left, one is taken here, `j` in its target and `k` behind it
    have hleft : 1 + j + k + links = (j + (k + links)) + 1 := by omega
    have hlinks : j + (k + links) - j = k + links := Nat.add_sub_cancel_left ..
    calc
      t.follow false (1 + j + k + links) here (.down n :: steps ++ rest)
      _ = t.follow false (j + (k + links)) ((Path.ofText target).start here)
            ((Path.ofText target).steps ++ (steps ++ rest)) := by
        rw [hleft]
        exact follow_link hdir hentry
      _ = t.follow false (k + links) mid (steps ++ rest) := by
        rw [ihtarget (Nat.le_add_right ..), hlinks]
      _ = t.follow false (k + links - k) l rest := ihrest (Nat.le_add_right ..)
      _ = t.follow false (1 + j + k + links - (1 + j + k)) l rest := by
        rw [Nat.add_sub_cancel_left, Nat.add_sub_cancel_left]

lemma follow_eq (h : t.Leads here steps k l) (hk : k ≤ links) :
    t.follow false links here steps = .ok l := by
  have hfollow : t.follow false links here (steps ++ []) = t.follow false (links - k) l [] :=
    h.follow_append hk
  rwa [List.append_nil, follow] at hfollow

lemma unique (h : t.Leads here steps j l) (h' : t.Leads here steps k l') : l = l' :=
  Except.ok.inj <|
    (h.follow_eq (Nat.le_max_left j k)).symm.trans (h'.follow_eq (Nat.le_max_right j k))

end Leads

lemma exists_leads_of_follow (h : t.follow false links here steps = .ok l) :
    ∃ k ≤ links, t.Leads here steps k l := by
  fun_induction follow t false links here steps
  case case1 links here =>
    obtain rfl := Except.ok.inj h
    exact ⟨0, Nat.zero_le _, .arrived here⟩
  case case4 hdir _ ih =>
    obtain ⟨k, hk, hrest⟩ := ih h
    exact ⟨k, hk, .stay (not_not.mp hdir) hrest⟩
  case case5 hdir ih =>
    obtain ⟨k, hk, hrest⟩ := ih h
    exact ⟨k, hk, .up (not_not.mp hdir) hrest⟩
  case case7 hlast => cases hlast
  case case10 hdir n _ target hentry links path ih =>
    -- the target and the rest of the path were followed in one go
    obtain ⟨k, hk, hboth⟩ := ih h
    obtain ⟨i, j, mid, htarget, hrest, rfl⟩ := hboth.split
    exact ⟨1 + i + j, by omega, .link (not_not.mp hdir) hentry htarget hrest⟩
  case case11 hdir n _ e hlink hentry ih =>
    obtain ⟨k, hk, hrest⟩ := ih h
    exact ⟨k, hk, .down (not_not.mp hdir) hentry hlink hrest⟩
  all_goals cases h

lemma follow_eq_ok_iff :
    t.follow false links here steps = .ok l ↔ ∃ k ≤ links, t.Leads here steps k l :=
  ⟨exists_leads_of_follow, fun ⟨_, hk, h⟩ => h.follow_eq hk⟩

/-- The path leads to a place; forty links may be on the way. -/
def LeadsTo (t : FileTree) (here : Location) (p : Path) (l : Location) : Prop :=
  (p.steps = [] → p.isAbsolute = true) ∧ ∃ k ≤ 40, t.Leads (p.start here) p.steps k l

lemma resolve_eq_ok_iff_leadsTo : t.resolve here p = .ok l ↔ t.LeadsTo here p l := by
  rw [resolve_eq_ok_iff, follow_eq_ok_iff, LeadsTo, and_iff_right_iff_imp]
  rintro ⟨-, k, -, h⟩
  simpa using h.broken_not_mem

/-- The names on the way to an entry that is no link lead there, and no link is on the way. -/
lemma leads_names {e : Entry} (h : t.entry? l = some e) (hlink : ∀ target, e ≠ .link target) :
    t.Leads .root (l.names.map .down) 0 l := by
  have hfollow : t.follow false 0 .root (l.names.map .down) = .ok l := follow_names h hlink
  obtain ⟨k, hk, hleads⟩ := follow_eq_ok_iff.mp hfollow
  obtain rfl := Nat.le_zero.mp hk
  exact hleads

end ImportAtlas.FileTree
