import ImportAtlas.Proofs.JsonRoundTrip
import ImportAtlas.Proofs.PageTemplate
import ImportAtlas.Proofs.TextInJson

/-!
The records in the page of a graph.

The diameter is put into a page that has the records in it already. If a name has the place of the
diameter in it, that is replaced there as well, and the records are not those of the graph any more;
only the diameter that stands in the template does no harm. Otherwise the page is the template with
the records and the diameter in their places, and the records can be read back from it.
-/

namespace ImportAtlas

namespace Export

variable {s old : List Char} {diameter text : String}

/-! ### Reading the records -/

/-- The text of the records in a page: what the first line that sets them goes on with, without the
semicolon. -/
def pageRecords? (page : String) : Option String :=
  let lines := ModulePath.split '\n' page.toList
  (lines.find? (recordsStart.isPrefixOf ·)).map fun line =>
    String.ofList (line.drop recordsStart.length).dropLast

lemma find?_split_eq_none (hs : ¬old <:+: s) :
    (ModulePath.split '\n' s).find? (old.isPrefixOf ·) = none := by
  refine List.find?_eq_none.mpr fun line hline hbegin => hs ?_
  exact (List.isPrefixOf_iff_prefix.mp hbegin).isInfix.trans (ModulePath.infix_of_mem_split hline)

/-- The records are read from the page if there is no line feed in them. -/
lemma pageRecords?_pageWith (hfeed : '\n' ∉ text.toList) :
    pageRecords? (pageWith (recordsSetting text) diameter) = some text := by
  obtain ⟨top, htop⟩ := exists_pageTop
  have hpage : (pageWith (recordsSetting text) diameter).toList = top ++ '\n' ::
      ((recordsStart ++ (text.toList ++ [';'])) ++ '\n' ::
        (diameter.toList ++ pageBottom.toList)) := by
    rw [toList_pageWith, toList_recordsSetting, htop, toList_pageBetween]
    simp
  have hline : '\n' ∉ recordsStart ++ (text.toList ++ [';']) := by
    simp only [List.mem_append, not_or]
    exact ⟨by decide, hfeed, by decide⟩
  -- no line in front of the records sets them
  have hnone : (ModulePath.split '\n' top).find? (recordsStart.isPrefixOf ·) = none := by
    refine find?_split_eq_none fun hpart => setsNothing_pageTop.1 ?_
    rw [htop]
    exact hpart.trans (List.prefix_append top ['\n']).isInfix
  have hfound : recordsStart.isPrefixOf (recordsStart ++ (text.toList ++ [';'])) = true :=
    List.isPrefixOf_iff_prefix.mpr (List.prefix_append _ _)
  rw [pageRecords?, hpage, ModulePath.split_append_mark, ModulePath.split_append hline,
    List.find?_append, hnone, Option.none_or, List.find?_cons_of_pos hfound, Option.map_some,
    List.drop_left, List.dropLast_concat, String.ofList_toList]

/-- JSON keeps the place of the diameter apart from all that it adds to names. -/
lemma isPlain_diameterPlace : Json.IsPlain diameterPlace.toList := by
  rw [toList_diameterPlace]
  exact {
    ne_nil := by decide
    unescaped := by simp [diameterStart, Json.escaped]
    begins := by
      intro c d hd hbegin
      obtain rfl : 'v' = d := Option.some.inj hbegin
      have hdigits : ∀ n < 16, 'v' ≠ n.digitChar := by decide
      rcases Json.mem_tail_escaped hd with h | h | ⟨n, hn, h⟩
      · cases h
      · cases h
      · exact hdigits n hn h
    unmarked := by simp [diameterStart, Json.separators]
    noKey := by decide +kernel }

end Export

namespace ImportGraph

open Export

variable {g : ImportGraph}

def payload (g : ImportGraph) : String :=
  String.ofList (replaceAll diameterPlace.toList (diameterSetting g.diameter).toList g.json.toList)

lemma replaceAll_records : String.ofList (replaceAll diameterPlace.toList
    (diameterSetting g.diameter).toList (recordsSetting g.json).toList) =
      recordsSetting g.payload := by
  have hcut : Cuts diameterPlace.toList g.json.toList := by
    rw [json, Json.ImportRecord.writeAll, String.toList_ofList, toList_diameterPlace]
    exact ⟨'[', _, rfl, by decide⟩
  have habsent : ¬diameterPlace.toList <:+: recordsStart := by
    rw [toList_diameterPlace]
    decide
  rw [toList_recordsSetting, hcut.replaceAll_append (place_ne_nil diameterPlace_mem),
    replaceAll_of_absent habsent, ← String.toList_inj, String.toList_ofList,
    toList_recordsSetting, payload, String.toList_ofList]

lemma page_eq : g.page = pageWith (recordsSetting g.payload) (diameterSetting g.diameter) := by
  have h := diameterPlace_mem
  have hplace : replaceAll diameterPlace.toList (diameterSetting g.diameter).toList
      diameterPlace.toList = (diameterSetting g.diameter).toList :=
    replaceAll_place (place_ne_nil h)
  show String.ofList (replaceAll diameterPlace.toList (diameterSetting g.diameter).toList
    (replaceAll recordsPlace.toList (recordsSetting g.json).toList template.toList)) = _
  rw [replaceAll_template, replaceAll_pageWith h (cuts_recordsSetting h) (cuts_diameterPlace h),
    hplace, replaceAll_records, String.ofList_toList, String.ofList_toList]

/-- The payload is the JSON unless a name is damaged by a diameter other than that of the place. -/
lemma payload_eq_json_iff : g.payload = g.json ↔
    (∀ x ∈ g.nodes, ¬diameterPlace.toList <:+: x.toList) ∨ g.importerCount = 50 := by
  have hold := place_ne_nil diameterPlace_mem
  rw [payload, ← String.toList_inj, String.toList_ofList]
  by_cases hcount : g.importerCount = 50
  · -- with fifty importers the place is replaced by itself
    have hsame : diameterSetting g.diameter = diameterPlace := by
      rw [diameterPlace_eq, diameter, hcount]
    rw [hsame]
    exact iff_of_true (replaceAll_self hold) (.inr hcount)
  · -- any other diameter is no shorter than the place, so each replacement shows
    have hlength : diameterPlace.toList.length ≤ (diameterSetting g.diameter).toList.length :=
      length_diameterPlace_le (by unfold diameter; omega)
    have hne : (diameterSetting g.diameter).toList ≠ diameterPlace.toList := by
      rw [diameterPlace_eq, Ne, String.toList_inj, diameterSetting_inj]
      unfold diameter
      omega
    rw [replaceAll_eq_self_iff hold hlength hne, infix_json_iff isPlain_diameterPlace,
      or_iff_left hcount]
    push Not
    rfl

lemma pageRecords?_page : pageRecords? g.page = some g.payload := by
  rw [page_eq]
  refine pageRecords?_pageWith ?_
  rw [payload, String.toList_ofList]
  exact not_mem_replaceAll (place_ne_nil diameterPlace_mem)
    (Json.ImportRecord.line_feed_not_mem_writeAll g.records) line_feed_not_mem_diameterSetting

/-- **The page and the records in it.** Each place is once in the template. The page is the template
with the JSON of the graph and the diameter in their places exactly if no importer and no import has
the place of the diameter in its name or there are fifty importers, for whom the diameter is that of
the place. In the same case the JSON is read back from the page, and with it the table of the
graph. -/
theorem page_eq_filled_iff (g : ImportGraph) :
    let intact := (∀ x, x ∈ g.importers ∨ (∃ k, g.Imports k x) →
      ¬"var diameter = 800".toList <:+: x.toList) ∨ g.importerCount = 50
    template = pageTop ++ "var classes = []" ++ pageBetween ++ "var diameter = 800" ++ pageBottom ∧
    occurrences "var classes = []".toList template.toList = 1 ∧
    occurrences "var diameter = 800".toList template.toList = 1 ∧
    (g.page = pageTop ++ ("var classes = " ++ g.json) ++ pageBetween ++
      ("var diameter = " ++ toString (600 + 4 * g.importerCount)) ++ pageBottom ↔ intact) ∧
    (pageRecords? g.page = some g.json ↔ intact) ∧
    (intact → (pageRecords? g.page).map Json.ImportRecord.readTable = some (.ok g.table)) := by
  intro intact
  have hintact : g.payload = g.json ↔ intact := by
    rw [payload_eq_json_iff]
    simp only [mem_nodes_iff]
    rfl
  have hread : pageRecords? g.page = some g.json ↔ intact := by
    rw [pageRecords?_page, Option.some_inj, hintact]
  have hrecords : occurrences recordsPlace.toList template.toList = 1 :=
    occurrences_template recordsPlace_mem
  have hdiameter : occurrences diameterPlace.toList template.toList = 1 :=
    occurrences_template diameterPlace_mem
  refine ⟨rfl, hrecords, hdiameter, ?_, hread, fun h => ?_⟩
  · -- pages are equal if their records are, since all else is
    show g.page = pageWith (recordsSetting g.json) (diameterSetting g.diameter) ↔ intact
    rw [page_eq, pageWith_recordsSetting_inj, hintact]
  · rw [hread.mpr h, Option.map_some, readTable_json]

def importing (name : String) : ImportGraph := ofModules "p" .all [(⟨["p"]⟩, [⟨[name]⟩])]

/-- A name that is but the beginning of the place does no harm; one that goes on behind it does. -/
theorem page_eq_filled_importing :
    (pageRecords? (importing "var diameter = 80").page).map Json.ImportRecord.readTable =
      some (.ok (importing "var diameter = 80").table) ∧
    pageRecords? (importing "var diameter = 8000").page ≠
      some (importing "var diameter = 8000").json := by
  have hshort : ∀ x ∈ (importing "var diameter = 80").nodes,
      ¬"var diameter = 800".toList <:+: x.toList := by decide +kernel
  have hlong : "var diameter = 8000" ∈ (importing "var diameter = 8000").nodes.toList := by
    decide +kernel
  have hcount : (importing "var diameter = 8000").importerCount ≠ 50 := by decide +kernel
  obtain ⟨-, -, -, -, -, hread⟩ := page_eq_filled_iff (importing "var diameter = 80")
  obtain ⟨-, -, -, -, hiff, -⟩ := page_eq_filled_iff (importing "var diameter = 8000")
  refine ⟨hread (.inl fun x hx => hshort x (mem_nodes_iff.mpr hx)), fun hsame => ?_⟩
  rcases hiff.mp hsame with hnone | hfifty
  · exact hnone _ (mem_nodes_iff.mp hlong) (by decide +kernel)
  · exact hcount hfifty

end ImportGraph

end ImportAtlas
