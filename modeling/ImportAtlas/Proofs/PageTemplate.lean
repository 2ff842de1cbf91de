import ImportAtlas.Proofs.ReplacedText

/-!
The template of a page and its two places.

The page sets two variables, the records and the diameter, and sets them nowhere else: what stands
around the places is cut off from them and has neither in it. So each place is once in the template,
and where a place is replaced in a page, it is replaced in what the two are set to only.
-/

namespace ImportAtlas.Export

variable {m n : ℕ} {s new place : List Char} {records diameter text : String}

/-! ### Settings -/

def recordsStart : List Char :=
  ['v', 'a', 'r', ' ', 'c', 'l', 'a', 's', 's', 'e', 's', ' ', '=', ' ']

def diameterStart : List Char :=
  ['v', 'a', 'r', ' ', 'd', 'i', 'a', 'm', 'e', 't', 'e', 'r', ' ', '=', ' ']

def recordsSetting (text : String) : String := "var classes = " ++ text

def diameterSetting (n : ℕ) : String := "var diameter = " ++ toString n

lemma toList_recordsSetting : (recordsSetting text).toList = recordsStart ++ text.toList :=
  calc (recordsSetting text).toList
      = "var classes = ".toList ++ text.toList := String.toList_append
    _ = recordsStart ++ text.toList := congrArg (· ++ text.toList) String.toList_ofList

lemma toList_diameterSetting : (diameterSetting n).toList = diameterStart ++ Nat.toDigits 10 n :=
  calc (diameterSetting n).toList
      = "var diameter = ".toList ++ n.repr.toList := String.toList_append
    _ = diameterStart ++ n.repr.toList := congrArg (· ++ n.repr.toList) String.toList_ofList
    _ = diameterStart ++ Nat.toDigits 10 n := congrArg _ Nat.toList_repr

lemma recordsPlace_eq : recordsPlace = recordsSetting "[]" := rfl

lemma diameterPlace_eq : diameterPlace = diameterSetting 800 := rfl

lemma toList_recordsPlace : recordsPlace.toList = recordsStart ++ ['[', ']'] :=
  String.toList_ofList

lemma toList_diameterPlace : diameterPlace.toList = diameterStart ++ ['8', '0', '0'] :=
  String.toList_ofList

lemma diameterSetting_inj : diameterSetting m = diameterSetting n ↔ m = n := by
  refine ⟨fun h => ?_, congrArg _⟩
  have hdigits : Nat.toDigits 10 m = Nat.toDigits 10 n := by
    have htexts := congrArg String.toList h
    rwa [toList_diameterSetting, toList_diameterSetting, List.append_cancel_left_eq] at htexts
  have hm : Nat.ofDigitChars 10 (Nat.toDigits 10 m) 0 = m :=
    Nat.ofDigitChars_toDigits (by decide) (by decide)
  rw [← hm, hdigits, Nat.ofDigitChars_toDigits (by decide) (by decide)]

/-- A diameter of three digits or more takes no less space than its place. -/
lemma length_diameterPlace_le (h : 100 ≤ n) :
    diameterPlace.toList.length ≤ (diameterSetting n).toList.length := by
  have hdigits : ¬(Nat.toDigits 10 n).length ≤ 2 := by
    rw [Nat.length_toDigits_le_iff (by decide) (by decide)]
    omega
  rw [toList_diameterPlace, toList_diameterSetting, List.length_append, List.length_append]
  simp only [List.length_cons, List.length_nil]
  omega

lemma line_feed_not_mem_diameterSetting : '\n' ∉ (diameterSetting n).toList := by
  rw [toList_diameterSetting, List.mem_append, not_or]
  refine ⟨by decide, fun h => ?_⟩
  cases Nat.isDigit_of_mem_toDigits (by decide) (by decide) h

/-! ### What stands around the places -/

/-- Neither the records nor the diameter are set in the text. -/
def SetsNothing (s : List Char) : Prop := ¬recordsStart <:+: s ∧ ¬diameterStart <:+: s

/-- Whether something is set in the text, by going through it once. -/
def setsSomething : List Char → Bool
  | [] => false
  | c :: s => (c == 'v' && (recordsStart.tail.isPrefixOf s || diameterStart.tail.isPrefixOf s)) ||
    setsSomething s

lemma setsNothing_of_eq_false (h : setsSomething s = false) : SetsNothing s := by
  induction s with
  | nil => exact ⟨by decide, by decide⟩
  | cons c s ih =>
    rw [setsSomething, Bool.or_eq_false_iff] at h
    obtain ⟨hrecords, hdiameter⟩ := ih h.2
    have hbegin : ∀ start, start = 'v' :: start.tail →
        (c == 'v' && start.tail.isPrefixOf s) = false → ¬start <+: c :: s := by
      intro start hstart hpassed hprefix
      rw [hstart, List.cons_prefix_cons, ← List.isPrefixOf_iff_prefix] at hprefix
      rw [← hprefix.1, hprefix.2] at hpassed
      cases hpassed
    rw [Bool.and_or_distrib_left, Bool.or_eq_false_iff] at h
    rw [SetsNothing, List.infix_cons_iff, List.infix_cons_iff, not_or, not_or]
    exact ⟨⟨hbegin _ rfl h.1.1, hrecords⟩, hbegin _ rfl h.1.2, hdiameter⟩

/-- A text sets nothing if none of its lines does, which is seen from their characters. -/
lemma setsNothing_lines {css : List (List Char)} {lines : List String}
    (hlines : lines = css.map String.ofList) (h : css.any setsSomething = false) :
    SetsNothing ("\n".intercalate lines).toList := by
  have hline : ∀ line ∈ lines, SetsNothing line.toList := by
    intro line hline
    rw [hlines] at hline
    obtain ⟨cs, hcs, rfl⟩ := List.mem_map.mp hline
    rw [String.toList_ofList]
    exact setsNothing_of_eq_false (Bool.eq_false_iff.mpr (List.any_eq_false.mp h cs hcs))
  exact ⟨not_infix_lines (by decide) (by decide) fun line hmem => (hline line hmem).1,
    not_infix_lines (by decide) (by decide) fun line hmem => (hline line hmem).2⟩

lemma ofList_cons_eq_map {cs : List Char} {css : List (List Char)} {lines : List String}
    (h : lines = css.map String.ofList) :
    String.ofList cs :: lines = (cs :: css).map String.ofList := by
  rw [h, List.map_cons]

lemma setsNothing_pageTop : SetsNothing pageTop.toList := by
  apply setsNothing_lines
  · -- unification finds the characters of every line
    repeat apply ofList_cons_eq_map
    exact List.map_nil.symm
  · decide +kernel

set_option maxRecDepth 4096 in
lemma setsNothing_pageBottom : SetsNothing pageBottom.toList := by
  apply setsNothing_lines
  · repeat apply ofList_cons_eq_map
    exact List.map_nil.symm
  · decide +kernel

lemma exists_concat_of_lines {lines : List String} (hlast : lines.getLast? = some "")
    (hlength : 1 < lines.length) : ∃ top, ("\n".intercalate lines).toList = top ++ ['\n'] := by
  obtain ⟨init, rfl⟩ := List.getLast?_eq_some_iff.mp hlast
  have hinit : init ≠ [] := by
    rintro rfl
    exact absurd hlength (by decide)
  rw [String.intercalate_append_of_ne_nil hinit (by decide)]
  exact ⟨("\n".intercalate init).toList, by simp⟩

lemma exists_cons_of_lines {c : Char} {cs : List Char} {next : String} {lines : List String} :
    ∃ rest, ("\n".intercalate (String.ofList (c :: cs) :: next :: lines)).toList = c :: rest := by
  rw [String.intercalate_cons_cons]
  exact ⟨cs ++ '\n' :: ("\n".intercalate (next :: lines)).toList, by simp⟩

lemma exists_pageTop : ∃ top, pageTop.toList = top ++ ['\n'] :=
  exists_concat_of_lines rfl (by decide)

lemma exists_pageBottom : ∃ rest, pageBottom.toList = ';' :: rest := exists_cons_of_lines

lemma toList_pageBetween : pageBetween.toList = [';', '\n'] := by simp [pageBetween]

/-! ### The places -/

def places : List (List Char) := [recordsStart ++ ['[', ']'], diameterStart ++ ['8', '0', '0']]

lemma recordsPlace_mem : recordsPlace.toList ∈ places := by
  rw [toList_recordsPlace]
  exact List.mem_cons_self

lemma diameterPlace_mem : diameterPlace.toList ∈ places := by
  rw [toList_diameterPlace]
  exact List.mem_cons_of_mem _ (List.mem_singleton_self _)

section

variable (h : place ∈ places)

include h

lemma place_ne_nil : place ≠ [] := by
  revert place
  decide

/-- The settings and what follows them are cut off from what stands in front. -/
lemma cuts_place {c : Char} (hc : c ∈ ['v', ';']) : Cuts place (c :: s) := by
  refine ⟨c, s, rfl, ?_⟩
  have htail : 'v' ∉ place.tail ∧ ';' ∉ place.tail := by
    revert place
    decide
  rcases List.mem_pair.mp hc with rfl | rfl
  · exact htail.1
  · exact htail.2

lemma cuts_recordsSetting : Cuts place (recordsSetting text).toList := by
  rw [toList_recordsSetting]
  exact cuts_place h (by decide)

lemma cuts_diameterSetting : Cuts place (diameterSetting n).toList := by
  rw [toList_diameterSetting]
  exact cuts_place h (by decide)

lemma cuts_pageBetween : Cuts place pageBetween.toList := by
  rw [toList_pageBetween]
  exact cuts_place h (by decide)

lemma cuts_pageBottom : Cuts place pageBottom.toList := by
  obtain ⟨rest, hrest⟩ := exists_pageBottom
  rw [hrest]
  exact cuts_place h (by decide)

lemma not_infix_of_setsNothing (hs : SetsNothing s) : ¬place <:+: s := by
  rcases List.mem_pair.mp h with rfl | rfl
  · exact fun hpart => hs.1 ((List.prefix_append _ _).isInfix.trans hpart)
  · exact fun hpart => hs.2 ((List.prefix_append _ _).isInfix.trans hpart)

lemma not_infix_pageBetween : ¬place <:+: pageBetween.toList := by
  rw [toList_pageBetween]
  revert place
  decide

end

/-! ### The page -/

def pageWith (records diameter : String) : String :=
  pageTop ++ records ++ pageBetween ++ diameter ++ pageBottom

lemma toList_pageWith : (pageWith records diameter).toList = pageTop.toList ++
    (records.toList ++ (pageBetween.toList ++ (diameter.toList ++ pageBottom.toList))) := by
  simp [pageWith]

lemma pageWith_recordsSetting_inj {next : String} :
    pageWith (recordsSetting text) diameter = pageWith (recordsSetting next) diameter ↔
      text = next := by
  simp only [← String.toList_inj, toList_pageWith, toList_recordsSetting,
    List.append_cancel_left_eq, List.append_cancel_right_eq]

section

variable (h : place ∈ places) (hrecords : Cuts place records.toList)
  (hdiameter : Cuts place diameter.toList)

include h hrecords hdiameter

lemma occurrences_pageWith : occurrences place (pageWith records diameter).toList =
    occurrences place records.toList + occurrences place diameter.toList := by
  have hold := place_ne_nil h
  have htop := occurrences_eq_zero_iff.mpr (not_infix_of_setsNothing h setsNothing_pageTop)
  have hbetween := occurrences_eq_zero_iff.mpr (not_infix_pageBetween h)
  have hbottom := occurrences_eq_zero_iff.mpr (not_infix_of_setsNothing h setsNothing_pageBottom)
  rw [toList_pageWith, (hrecords.append _).occurrences_append hold, htop,
    ((cuts_pageBetween h).append _).occurrences_append hold,
    (hdiameter.append _).occurrences_append hold, hbetween,
    (cuts_pageBottom h).occurrences_append hold, hbottom, Nat.zero_add, Nat.zero_add, Nat.add_zero]

/-- Where a place is replaced in the page, it is replaced in the two texts. -/
lemma replaceAll_pageWith : replaceAll place new (pageWith records diameter).toList =
    (pageWith (String.ofList (replaceAll place new records.toList))
      (String.ofList (replaceAll place new diameter.toList))).toList := by
  have hold := place_ne_nil h
  have htop := not_infix_of_setsNothing h setsNothing_pageTop
  have hbottom := not_infix_of_setsNothing h setsNothing_pageBottom
  rw [toList_pageWith, (hrecords.append _).replaceAll_append hold, replaceAll_of_absent htop,
    ((cuts_pageBetween h).append _).replaceAll_append hold,
    (hdiameter.append _).replaceAll_append hold, replaceAll_of_absent (not_infix_pageBetween h),
    (cuts_pageBottom h).replaceAll_append hold, replaceAll_of_absent hbottom, toList_pageWith,
    String.toList_ofList, String.toList_ofList]

end

lemma cuts_diameterPlace (h : place ∈ places) : Cuts place diameterPlace.toList := by
  rw [diameterPlace_eq]
  exact cuts_diameterSetting h

lemma template_eq : template = pageWith (recordsSetting "[]") (diameterSetting 800) := rfl

lemma occurrences_template (h : place ∈ places) : occurrences place template.toList = 1 := by
  rw [template_eq, occurrences_pageWith h (cuts_recordsSetting h) (cuts_diameterSetting h),
    ← recordsPlace_eq, ← diameterPlace_eq, toList_recordsPlace, toList_diameterPlace]
  revert place
  decide

lemma replaceAll_template : replaceAll recordsPlace.toList records.toList template.toList =
    (pageWith records diameterPlace).toList := by
  have h := recordsPlace_mem
  have habsent : ¬recordsPlace.toList <:+: diameterPlace.toList := by
    rw [toList_recordsPlace, toList_diameterPlace]
    decide
  rw [template_eq, replaceAll_pageWith h (cuts_recordsSetting h) (cuts_diameterSetting h),
    ← recordsPlace_eq, ← diameterPlace_eq, replaceAll_place (place_ne_nil h),
    replaceAll_of_absent habsent, String.ofList_toList, String.ofList_toList]

end ImportAtlas.Export
