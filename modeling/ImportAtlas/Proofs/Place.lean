import ImportAtlas.Files.FileTree
import ImportAtlas.Proofs.OrderedMap
import Mathlib.Data.List.Induction

/-!
Places in a tree and the paths that lead to them.

On the way to an entry there are only directories. So the path of a place, followed from the root,
leads to that place, unless a link stands there.
-/

namespace ImportAtlas

/-! ### Steps that can fail -/

section Steps

variable {ε ε' α β : Type} {r : Except ε α} {a : α}

lemma bind_eq_ok_iff {f : α → Except ε β} {b : β} :
    r >>= f = .ok b ↔ ∃ a, r = .ok a ∧ f a = .ok b := by
  cases r <;> simp [bind, Except.bind]

lemma map_eq_ok_iff {f : α → β} {b : β} : r.map f = .ok b ↔ ∃ a, r = .ok a ∧ f a = b := by
  cases r <;> simp [Except.map]

lemma mapError_eq_ok_iff {f : ε → ε'} : r.mapError f = .ok a ↔ r = .ok a := by
  cases r <;> simp [Except.mapError]

lemma toOption_eq_some_iff : r.toOption = some a ↔ r = .ok a := by
  cases r <;> simp [Except.toOption]

/-- A step that has an outcome at all ends well. -/
lemma exists_ok_of_isSome (h : r.toOption.isSome = true) : ∃ a, r = .ok a := by
  obtain ⟨a, ha⟩ := Option.isSome_iff_exists.mp h
  exact ⟨a, toOption_eq_some_iff.mp ha⟩

end Steps

/-! ### Places -/

namespace Location

variable {l : Location} {n : FileName}

lemma name?_child : (l.child n).name? = some n := by
  simp [name?, child]

lemma child_parent (h : l.name? = some n) : l.parent.child n = l := by
  obtain ⟨names⟩ := l
  simp only [parent, child, mk.injEq]
  exact List.dropLast_append_getLast? n h

lemma prefix_child (l : Location) (n : FileName) : l.names <+: (l.child n).names :=
  List.prefix_append ..

end Location

namespace FileTree

variable {t : FileTree} {l : Location} {e : Entry}

/-! ### Entries and directories -/

lemma entry?_eq_find? (h : l ≠ .root) : t.entry? l = t.table.find? l := by
  simp [ entry?, lookup, h]

lemma mem_keys_of_entry (h : t.entry? l = some e) (hl : l ≠ .root) : l ∈ t.table.keys := by
  rw [entry?_eq_find? hl] at h
  exact OrderedMap.mem_keys_iff.mpr ⟨e, h⟩

lemma entry?_of_mem (h : (l, e) ∈ t.table.entries) : t.entry? l = some e := by
  have hfind := OrderedMap.find?_eq_some_iff.mpr h
  rw [entry?_eq_find? (t.isRooted l (OrderedMap.mem_keys_iff.mpr ⟨e, hfind⟩)).1, hfind]

/-- On the way to an entry there are only directories, and each of them is an entry. -/
lemma directory_of_split {p rest : List FileName} {n : FileName}
    (h : (⟨p ++ n :: rest⟩ : Location) ∈ t.table.keys) :
    t.entry? ⟨p⟩ = some .directory ∧ (⟨p ++ [n]⟩ : Location) ∈ t.table.keys := by
  induction rest using List.reverseRecOn with
  | nil =>
    have hparent := (t.isRooted _ h).2
    rw [show (⟨p ++ [n]⟩ : Location).parent = ⟨p⟩ by simp [Location.parent]] at hparent
    exact ⟨hparent, h⟩
  | append_singleton rest m ih =>
    have hparent := (t.isRooted _ h).2
    rw [show (⟨p ++ n :: (rest ++ [m])⟩ : Location).parent = ⟨p ++ n :: rest⟩ by
      rw [Location.parent, ← List.cons_append, ← List.append_assoc, List.dropLast_concat]]
      at hparent
    exact ih (mem_keys_of_entry hparent (by simp [Location.root]))

/-! ### Following a path -/

lemma follow_down {links : ℕ} {n : FileName} {steps : List Step}
    (hdir : t.entry? l = some .directory) (h : t.entry? (l.child n) = some e)
    (hlink : ∀ target, e ≠ .link target) :
    t.follow false links l (.down n :: steps) = t.follow false links (l.child n) steps := by
  rw [follow]
  simp only [hdir, ne_eq, not_true, if_false, Bool.false_and, h]
  cases e with
  | link target => exact absurd rfl (hlink target)
  | directory => rfl
  | file content => rfl

lemma follow_link {links : ℕ} {n : FileName} {target : String} {steps : List Step}
    (hdir : t.entry? l = some .directory) (h : t.entry? (l.child n) = some (.link target)) :
    t.follow false (links + 1) l (.down n :: steps) =
      t.follow false links (if (Path.ofText target).isAbsolute then .root else l)
        ((Path.ofText target).steps ++ steps) := by
  rw [follow]
  simp only [hdir, ne_eq, not_true, if_false, Bool.false_and, h]
  rfl

lemma follow_names {links : ℕ} {p ns : List FileName} (h : t.entry? ⟨p ++ ns⟩ = some e)
    (hlink : ∀ target, e ≠ .link target) :
    t.follow false links ⟨p⟩ (ns.map .down) = .ok ⟨p ++ ns⟩ := by
  induction ns generalizing p with
  | nil => simp [follow]
  | cons n ns ih =>
    have hkey : (⟨p ++ n :: ns⟩ : Location) ∈ t.table.keys :=
      mem_keys_of_entry h (by simp [Location.root])
    rw [List.append_cons] at h ⊢
    -- what stands half way is a directory, since something lies within it
    obtain ⟨e', he', hlink'⟩ : ∃ e', t.entry? ⟨p ++ [n]⟩ = some e' ∧
        ∀ target, e' ≠ .link target := by
      cases ns with
      | nil => exact ⟨e, by simpa using h, hlink⟩
      | cons m ns =>
        rw [List.append_cons] at hkey
        exact ⟨.directory, (directory_of_split hkey).1, by simp⟩
    rw [List.map_cons, follow_down (directory_of_split hkey).1 he' hlink']
    exact ih h

lemma resolve_path {here : Location} (h : t.entry? l = some e)
    (hlink : ∀ target, e ≠ .link target) :
    t.resolve here l.path = .ok l := by
  have hsteps : (l.names.map Step.down).contains .broken = false := by simp
  unfold resolve Location.path
  simp only [hsteps]
  exact follow_names (p := []) h hlink

/-- Names lead from a directory to an entry that is no link. -/
lemma resolve_names {here : Location} {ns : List FileName} (hne : ns ≠ [])
    (h : t.entry? ⟨here.names ++ ns⟩ = some e) (hlink : ∀ target, e ≠ .link target) :
    t.resolve here ⟨false, ns.map .down⟩ = .ok ⟨here.names ++ ns⟩ := by
  have hsteps : (ns.map Step.down).contains .broken = false := by simp
  have hempty : (ns.map Step.down).isEmpty = false := by simp [hne]
  unfold resolve
  simp only [hsteps, hempty]
  exact follow_names h hlink

end FileTree

end ImportAtlas
