import ImportAtlas.ModuleFilter
import ImportAtlas.Proofs.SplitText
import Mathlib.Data.List.TakeWhile

/-!
Lists of names as they are typed.

Trimming takes the blanks at both ends of a text and nothing else. So the names of a list are what
stands between its commas without the blanks around it, and names that were read may be typed again
in any order and with any blanks around them.
-/

namespace ImportAtlas

/-! ### Trimming -/

namespace Text

variable {s u before after : List Char}

def AllBlank (s : List Char) : Prop := ∀ c ∈ s, isBlank c = true

structure IsTrimmed (s : List Char) : Prop where
  head : ∀ c ∈ s.head?, isBlank c = false
  last : ∀ c ∈ s.getLast?, isBlank c = false

lemma AllBlank.nil : AllBlank [] := List.forall_mem_nil _

lemma AllBlank.singleton {c : Char} (h : isBlank c = true) : AllBlank [c] :=
  List.forall_mem_singleton.mpr h

lemma comma_not_mem (h : AllBlank s) : ',' ∉ s := fun hmem => by
  have hblank := h ',' hmem
  exact absurd hblank (by decide)

lemma trimStart_append (hbefore : AllBlank before) (hs : ∀ c ∈ s.head?, isBlank c = false) :
    trimStart (before ++ s) = s := by
  rw [trimStart, List.dropWhile_append_of_pos hbefore]
  cases s with
  | nil => rfl
  | cons c cs => exact List.dropWhile_cons_of_neg (by simp [hs c rfl])

lemma trimEnd_append (hafter : AllBlank after) (hs : ∀ c ∈ s.getLast?, isBlank c = false) :
    trimEnd (s ++ after) = s := by
  have hreverse : trimStart (after.reverse ++ s.reverse) = s.reverse := by
    refine trimStart_append (fun c hc => hafter c (List.mem_reverse.mp hc)) ?_
    rwa [List.head?_reverse]
  rw [trimEnd, List.reverse_append]
  exact List.reverse_eq_iff.mpr hreverse

lemma trim_append (hbefore : AllBlank before) (hu : IsTrimmed u) (hafter : AllBlank after) :
    trim (before ++ u ++ after) = u := by
  cases u with
  | nil =>
    have hall : AllBlank (before ++ after) := fun c hc =>
      (List.mem_append.mp hc).elim (hbefore c) (hafter c)
    rw [trim, List.append_nil, trimStart, List.dropWhile_eq_nil_iff.mpr hall]
    rfl
  | cons c cs =>
    rw [trim, List.append_assoc, trimStart_append hbefore (by simpa using hu.head)]
    exact trimEnd_append hafter hu.last

lemma exists_trimStart (s : List Char) : ∃ before, AllBlank before ∧ s = before ++ trimStart s :=
  ⟨s.takeWhile isBlank, fun _ hc => List.mem_takeWhile_imp hc,
    (List.takeWhile_append_dropWhile ..).symm⟩

lemma exists_trimEnd (s : List Char) : ∃ after, AllBlank after ∧ s = trimEnd s ++ after := by
  obtain ⟨before, hbefore, hs⟩ := exists_trimStart s.reverse
  refine ⟨before.reverse, fun c hc => hbefore c (List.mem_reverse.mp hc), ?_⟩
  rw [trimEnd, ← List.reverse_append]
  exact List.reverse_eq_iff.mp hs

lemma head?_trimStart {c : Char} (h : c ∈ (trimStart s).head?) : isBlank c = false := by
  have hhead := List.head?_dropWhile_not isBlank s
  rwa [← trimStart, Option.mem_def.mp h] at hhead

lemma isTrimmed_trim (s : List Char) : IsTrimmed (trim s) where
  head c hc := by
    -- blanks at the end are no part of the front
    obtain ⟨after, -, hstart⟩ := exists_trimEnd (trimStart s)
    have hhead : (trimStart s).head? = some c := by
      rw [hstart, List.head?_append]
      exact congrArg (Option.or · _) hc
    exact head?_trimStart hhead
  last c hc := by
    rw [trim, trimEnd, List.getLast?_reverse] at hc
    exact head?_trimStart hc

/-- What is left of a text has no blanks at its ends, and only blanks were taken. -/
lemma trim_eq_iff :
    trim s = u ↔ IsTrimmed u ∧
      ∃ before after, AllBlank before ∧ AllBlank after ∧ s = before ++ u ++ after := by
  constructor
  · rintro rfl
    obtain ⟨before, hbefore, hs⟩ := exists_trimStart s
    obtain ⟨after, hafter, hstart⟩ := exists_trimEnd (trimStart s)
    refine ⟨isTrimmed_trim s, before, after, hbefore, hafter, ?_⟩
    rw [List.append_assoc]
    exact hs.trans (congrArg (before ++ ·) hstart)
  · rintro ⟨hu, before, after, hbefore, hafter, rfl⟩
    exact trim_append hbefore hu hafter

lemma trim_eq_self_iff : trim s = s ↔ IsTrimmed s := by
  constructor
  · intro h
    exact h ▸ isTrimmed_trim s
  · intro h
    simpa using trim_append .nil h .nil

end Text

/-! ### Names between commas -/

open Text

variable {s t x : String}

lemma mem_readNameList_iff :
    x ∈ readNameList s ↔
      x ≠ "" ∧ ∃ piece ∈ ModulePath.split ',' s.toList, trim piece = x.toList := by
  unfold readNameList
  rw [OrderedSet.mem_ofList, List.mem_map]
  constructor
  · rintro ⟨cs, hcs, rfl⟩
    obtain ⟨hpiece, hne⟩ := List.mem_filter.mp hcs
    obtain ⟨piece, hmem, rfl⟩ := List.mem_map.mp hpiece
    refine ⟨fun hempty => ?_, piece, hmem, String.toList_ofList.symm⟩
    have hnil : trim piece = [] := by simpa using congrArg String.toList hempty
    simp [hnil] at hne
  · rintro ⟨hne, piece, hmem, htrim⟩
    have hnil : x.toList ≠ [] := mt String.toList_eq_nil_iff.mp hne
    refine ⟨x.toList, List.mem_filter.mpr ⟨List.mem_map.mpr ⟨piece, hmem, htrim⟩, ?_⟩, ?_⟩
    · simpa using hne
    · exact String.ofList_toList

/-- A text that may stand in a list as a name. -/
structure IsListed (x : String) : Prop where
  ne_empty : x ≠ ""
  noComma : ',' ∉ x.toList
  trimmed : IsTrimmed x.toList

lemma isListed_of_mem (h : x ∈ readNameList s) : IsListed x := by
  obtain ⟨hne, piece, hpiece, htrim⟩ := mem_readNameList_iff.mp h
  obtain ⟨htrimmed, before, after, -, -, rfl⟩ := trim_eq_iff.mp htrim
  have hcomma := ModulePath.not_mem_of_mem_split hpiece
  rw [List.mem_append, List.mem_append, not_or, not_or] at hcomma
  exact ⟨hne, hcomma.1.2, htrimmed⟩

lemma mem_readNameList_append :
    x ∈ readNameList (s ++ "," ++ t) ↔ x ∈ readNameList s ∨ x ∈ readNameList t := by
  have hcomma : (s ++ "," ++ t).toList = s.toList ++ ',' :: t.toList := by simp
  simp only [mem_readNameList_iff, hcomma, ModulePath.split_append_mark, List.mem_append,
    or_and_right, exists_or, and_or_left]

/-! ### Names that are typed again -/

structure SpacedName where
  before : List Char
  name : String
  after : List Char
  before_blank : AllBlank before
  after_blank : AllBlank after

namespace SpacedName

def chars (n : SpacedName) : List Char := n.before ++ n.name.toList ++ n.after

def listText (names : List SpacedName) : String :=
  String.ofList (ModulePath.join ',' (names.map chars))

variable {n : SpacedName} {names : List SpacedName}

lemma trim_chars (h : IsListed n.name) : trim n.chars = n.name.toList :=
  trim_append n.before_blank h.trimmed n.after_blank

lemma comma_not_mem_chars (h : IsListed n.name) : ',' ∉ n.chars := by
  unfold chars
  rw [List.mem_append, List.mem_append, not_or, not_or]
  exact ⟨⟨comma_not_mem n.before_blank, h.noComma⟩, comma_not_mem n.after_blank⟩

/-- The pieces of the list are the names as they were typed. -/
lemma split_listText (hne : names ≠ []) (h : ∀ n ∈ names, IsListed n.name) :
    ModulePath.split ',' (listText names).toList = names.map chars := by
  rw [listText, String.toList_ofList, ModulePath.split_join (by simpa using hne), List.flatMap_map]
  induction names with
  | nil => rfl
  | cons n names ih =>
    rw [List.forall_mem_cons] at h
    rw [List.flatMap_cons, ModulePath.split_self (comma_not_mem_chars h.1), List.map_cons,
      List.singleton_append]
    by_cases hnames : names = []
    · rw [hnames]
      rfl
    · rw [ih hnames h.2]

lemma mem_readNameList_listText (h : ∀ n ∈ names, IsListed n.name) :
    x ∈ readNameList (listText names) ↔ ∃ n ∈ names, n.name = x := by
  rw [mem_readNameList_iff]
  by_cases hne : names = []
  · subst hne
    simp only [listText, List.map_nil, ModulePath.join, String.toList_ofList, ModulePath.split,
      List.mem_singleton, exists_eq_left, List.not_mem_nil, false_and, exists_false, iff_false,
      not_and]
    exact fun hx hnil => hx (String.toList_eq_nil_iff.mp hnil.symm)
  · rw [split_listText hne h]
    constructor
    · rintro ⟨-, piece, hpiece, htrim⟩
      obtain ⟨n, hn, rfl⟩ := List.mem_map.mp hpiece
      rw [trim_chars (h n hn)] at htrim
      exact ⟨n, hn, String.toList_injective htrim⟩
    · rintro ⟨n, hn, rfl⟩
      exact ⟨(h n hn).ne_empty, n.chars, List.mem_map_of_mem hn, trim_chars (h n hn)⟩

end SpacedName

/-- **Lists of names.** The names of a list are what is left of the pieces between its commas when
the blanks at their ends are taken, unless nothing is left. So none of them is empty, has a comma
in it or has a blank at its ends. Two lists with a comma between them have the names of both. Names
that were read from a list and are typed again, in any order and with any blanks around them, are
read as the same names. -/
theorem readNameList_spec :
    (∀ s x, x ∈ readNameList s ↔
      x ≠ "" ∧ ∃ piece ∈ ModulePath.split ',' s.toList, trim piece = x.toList) ∧
    (∀ cs u, trim cs = u ↔ IsTrimmed u ∧
      ∃ before after, AllBlank before ∧ AllBlank after ∧ cs = before ++ u ++ after) ∧
    (∀ s, ∀ x ∈ readNameList s, x ≠ "" ∧ ',' ∉ x.toList ∧ trim x.toList = x.toList) ∧
    (∀ s t x, x ∈ readNameList (s ++ "," ++ t) ↔ x ∈ readNameList s ∨ x ∈ readNameList t) ∧
    ∀ s (names : List SpacedName), (∀ x, x ∈ readNameList s ↔ ∃ n ∈ names, n.name = x) →
      readNameList (SpacedName.listText names) = readNameList s := by
  refine ⟨fun s x => mem_readNameList_iff, fun cs u => trim_eq_iff, fun s x hx => ?_,
    fun s t x => mem_readNameList_append, fun s names hnames => OrderedSet.ext fun x => ?_⟩
  · have hlisted := isListed_of_mem hx
    exact ⟨hlisted.ne_empty, hlisted.noComma, trim_eq_self_iff.mpr hlisted.trimmed⟩
  · have hlisted : ∀ n ∈ names, IsListed n.name := fun n hn =>
      isListed_of_mem ((hnames n.name).mpr ⟨n, hn, rfl⟩)
    rw [SpacedName.mem_readNameList_listText hlisted, hnames]

/-- Two names behind each other, and the other way round with other blanks. -/
theorem readNameList_retyped :
    "b.c" ∈ readNameList " a ,, b.c" ∧ ',' ∉ "b.c".toList ∧
    readNameList (SpacedName.listText
        [⟨['\t'], "b.c", ['\u3000'], .singleton (by decide), .singleton (by decide)⟩,
          ⟨[], "a", [], .nil, .nil⟩]) =
      readNameList " a ,, b.c" := by
  have hnames : (readNameList " a ,, b.c").toList = ["a", "b.c"] := by decide +kernel
  have hname : "b.c" ∈ readNameList " a ,, b.c" := by
    rw [OrderedSet.mem_def, hnames]
    simp
  refine ⟨hname, (readNameList_spec.2.2.1 _ _ hname).2.1, ?_⟩
  refine readNameList_spec.2.2.2.2 _ _ fun x => ?_
  rw [OrderedSet.mem_def, hnames]
  simp [or_comm, eq_comm]

end ImportAtlas
