import ImportAtlas.Export.Dot
import ImportAtlas.Proofs.FirstMention
import ImportAtlas.Proofs.SplitText
import Mathlib.Data.List.Basic

/-!
Reading a drawn graph back from its text.

Behind the header the text has a line for each node and each edge. No name ends its line early, as
a line feed in it is written as an escape, and none ends its label early, as a quote and a backslash
are. So the lines tell the numbers, the names and the edges, and the text determines the graph.
-/

namespace ImportAtlas.Export

inductive NodeColor where
  | green
  | blue
  deriving DecidableEq, Repr

def NodeColor.text : NodeColor → String
  | green => "lightgreen"
  | blue => "lightblue"

/-- What a line of a drawn graph says. -/
inductive DotRow where
  | node (index : Nat) (name : String) (color : NodeColor)
  | edge (source target : Nat)
  deriving DecidableEq, Repr

/-! ### Reading -/

/-- A name up to the quote that ends its label, its escapes undone, and what follows the quote. -/
def readLabel? : List Char → Option (List Char × List Char)
  | [] => none
  | '"' :: rest => some ([], rest)
  | ['\\'] => none
  | '\\' :: c :: cs =>
    (readLabel? cs).map fun (name, rest) => ((if c = 'l' then '\n' else c) :: name, rest)
  | c :: cs => (readLabel? cs).map fun (name, rest) => (c :: name, rest)

def readNumber (cs : List Char) : Nat × List Char :=
  (Nat.ofDigitChars 10 (cs.takeWhile Char.isDigit) 0, cs.dropWhile Char.isDigit)

def readColor? (cs : List Char) : Option NodeColor :=
  [NodeColor.green, NodeColor.blue].find? fun color => cs == color.text.toList ++ "]".toList

/-- What a line says, its line feed left out. -/
def readRow? (line : List Char) : Option DotRow := do
  let (index, rest) := readNumber (← line.dropPrefix? "    ".toList)
  match rest.dropPrefix? " -> ".toList with
  | some rest =>
    let (target, rest) := readNumber rest
    if rest = " [ ]".toList then some (.edge index target) else none
  | none =>
    let (name, rest) ← readLabel? (← rest.dropPrefix? " [ label = \"".toList)
    let color ← readColor? (← rest.dropPrefix? " style = filled, fillcolor = ".toList)
    return .node index (String.ofList name) color

def readRows? (text : List Char) : Option (List DotRow) :=
  match ModulePath.split '\n' text with
  | [] => none
  | first :: lines =>
    let (middle, last) := lines.splitAt (lines.length - 2)
    if first = "digraph \x7b".toList && last = ["\x7d".toList, []] then middle.mapM readRow?
    else none

/-- The graph that rows tell: the names of the nodes and the edges. -/
def DotRow.graph (rows : List DotRow) : IndexedGraph where
  nodes := rows.filterMap fun
    | .node _ name _ => some name
    | .edge .. => none
  edges := rows.filterMap fun
    | .node .. => none
    | .edge source target => some (source, target)

/-! ### Writing -/

def nodeText (index : Nat) (name : String) (color : NodeColor) : List Char :=
  "    ".toList ++ Nat.toDigits 10 index ++ " [ label = \"".toList ++ label name ++
    '"' :: " style = filled, fillcolor = ".toList ++ color.text.toList ++ "]".toList

def edgeText (source target : Nat) : List Char :=
  "    ".toList ++ Nat.toDigits 10 source ++ " -> ".toList ++ Nat.toDigits 10 target ++
    " [ ]".toList

def DotRow.line : DotRow → List Char
  | node index name color => nodeText index name color
  | edge source target => edgeText source target

/-- The rows of a graph: its nodes in the order of their numbers, the first one green, then its
edges. -/
def dotRows (g : IndexedGraph) : List DotRow :=
  (g.nodes.zipIdx.map fun (name, index) =>
    .node index name (if index = 0 then .green else .blue)) ++
  g.edges.map fun (source, target) => .edge source target

@[simp] lemma graph_dotRows (g : IndexedGraph) : DotRow.graph (dotRows g) = g := by
  have hnodes : ∀ (n : Nat) (names : List String), (names.zipIdx n).map Prod.fst = names := by
    intro n names
    simp
  simp [DotRow.graph, dotRows, List.filterMap_append, List.filterMap_map, hnodes]

/-! ### Lines -/

section Lines

variable {name color : String} {cs rest : List Char} {n : Nat}

lemma readLabel?_labelChar (c : Char) (text : List Char) :
    readLabel? (labelChar c ++ text) =
      (readLabel? text).map fun (name, rest) => (c :: name, rest) := by
  unfold labelChar
  split_ifs with hquote hbackslash hfeed
  · simp [readLabel?, hquote]
  · simp [readLabel?, hbackslash]
  · simp [readLabel?, hfeed]
  · simp [readLabel?, hbackslash]

lemma readLabel?_label (name : String) :
    readLabel? (label name ++ '"' :: rest) = some (name.toList, rest) := by
  unfold label
  induction name.toList with
  | nil => rfl
  | cons c cs ih =>
    rw [List.flatMap_cons, List.append_assoc, readLabel?_labelChar, ih]
    rfl

lemma line_feed_not_mem_label : '\n' ∉ label name := by
  unfold label
  simp only [List.mem_flatMap, not_exists, not_and]
  intro c _
  unfold labelChar
  split_ifs with _ _ hfeed
  · decide
  · decide
  · decide
  · simpa using Ne.symm hfeed

lemma readNumber_toDigits (h : (rest.head?.map Char.isDigit).getD false = false) :
    readNumber (Nat.toDigits 10 n ++ rest) = (n, rest) := by
  have hdigits : ∀ c ∈ Nat.toDigits 10 n, c.isDigit = true :=
    fun c hc => Nat.isDigit_of_mem_toDigits (by decide) (by decide) hc
  have htake : rest.takeWhile Char.isDigit = [] := by
    cases rest <;> simp_all
  have hdrop : rest.dropWhile Char.isDigit = rest := by
    cases rest <;> simp_all
  unfold readNumber
  rw [List.takeWhile_append_of_pos hdigits, List.dropWhile_append_of_pos hdigits, htake, hdrop,
    List.append_nil, Nat.ofDigitChars_ten_toDigits]

lemma readColor?_text (color : NodeColor) :
    readColor? (color.text.toList ++ "]".toList) = some color := by
  cases color <;> decide +kernel

lemma dropPrefix?_self (p text : List Char) : (p ++ text).dropPrefix? p = some text :=
  List.dropPrefix?_append_of_beq text (beq_self_eq_true p)

lemma readRow?_line (row : DotRow) : readRow? row.line = some row := by
  cases row with
  | node index name color =>
    -- behind the number of a node there is no arrow, so the row is not read as an edge
    have hedge : ∀ text, (" [ label = \"".toList ++ text).dropPrefix? " -> ".toList = none := by
      intro text
      rw [String.toList_ofList, String.toList_ofList]
      rfl
    unfold readRow? DotRow.line nodeText
    simp only [List.append_assoc, List.cons_append]
    rw [dropPrefix?_self]
    simp only [Option.bind_eq_bind, Option.bind_some]
    rw [readNumber_toDigits rfl, hedge]
    simp only [dropPrefix?_self]
    simp only [readLabel?_label, Option.bind_some, dropPrefix?_self, readColor?_text,
      String.ofList_toList, pure]
  | edge source target =>
    unfold readRow? DotRow.line edgeText
    simp only [List.append_assoc]
    rw [dropPrefix?_self]
    simp only [Option.bind_eq_bind, Option.bind_some]
    rw [readNumber_toDigits rfl]
    simp only [dropPrefix?_self]
    rw [readNumber_toDigits rfl]
    exact if_pos rfl

lemma line_feed_not_mem_toDigits : '\n' ∉ Nat.toDigits 10 n := by
  intro h
  have hdigit := Nat.isDigit_of_mem_toDigits (by decide) (by decide) h
  cases hdigit

lemma not_mem_ofList {c : Char} {cs : List Char} (h : c ∉ cs) : c ∉ (String.ofList cs).toList := by
  rwa [String.toList_ofList]

lemma line_feed_not_mem_line (row : DotRow) : '\n' ∉ row.line := by
  have hindent : '\n' ∉ "    ".toList := not_mem_ofList (by decide)
  cases row with
  | node index name color =>
    have hlabel : '\n' ∉ " [ label = \"".toList := not_mem_ofList (by decide)
    have hfill : '\n' ∉ " style = filled, fillcolor = ".toList := not_mem_ofList (by decide)
    have hcolor : '\n' ∉ color.text.toList := by
      cases color <;> exact not_mem_ofList (by decide)
    have hend : '\n' ∉ "]".toList := not_mem_ofList (by decide)
    unfold DotRow.line nodeText
    simp only [List.mem_append, List.mem_cons, not_or]
    exact ⟨⟨⟨⟨⟨⟨hindent, line_feed_not_mem_toDigits⟩, hlabel⟩, line_feed_not_mem_label⟩,
      by decide, hfill⟩, hcolor⟩, hend⟩
  | edge source target =>
    have harrow : '\n' ∉ " -> ".toList := not_mem_ofList (by decide)
    have hend : '\n' ∉ " [ ]".toList := not_mem_ofList (by decide)
    unfold DotRow.line edgeText
    simp only [List.mem_append, not_or]
    exact ⟨⟨⟨⟨hindent, line_feed_not_mem_toDigits⟩, harrow⟩, line_feed_not_mem_toDigits⟩, hend⟩

/-- A text of lines that hold no line feed is cut into them, and what follows the last one. -/
lemma split_lines {lines : List (List Char)} (h : ∀ line ∈ lines, '\n' ∉ line) :
    ModulePath.split '\n' (lines.flatMap (· ++ ['\n'])) = lines ++ [[]] := by
  induction lines with
  | nil => rfl
  | cons line lines ih =>
    rw [List.flatMap_cons, List.append_assoc, List.singleton_append,
      ModulePath.split_append (h line (List.mem_cons_self ..)),
      ih fun l hl => h l (List.mem_cons_of_mem _ hl), List.cons_append]

end Lines

/-! ### The text of a graph -/

section Text

variable {rootName : String} {g : IndexedGraph}

lemma nodeLines_eq (n : Nat) (names : List String) :
    nodeLines rootName n names =
      (names.zipIdx n).flatMap fun (name, index) => nodeLine rootName index name := by
  induction names generalizing n with
  | nil => rfl
  | cons name names ih => simp [nodeLines, ih]

lemma nodeLine_eq (index : Nat) (name : String) :
    nodeLine rootName index name =
      (DotRow.node index name (if name = rootName then .green else .blue)).line ++ ['\n'] := by
  have hquote : "\" style = filled, fillcolor = ".toList =
      '"' :: " style = filled, fillcolor = ".toList := by
    rw [String.toList_ofList, String.toList_ofList]
  have hend : "]\n".toList = "]".toList ++ ['\n'] := by
    rw [String.toList_ofList, String.toList_ofList]
    rfl
  have hcolor : (if name = rootName then "lightgreen" else "lightblue") =
      (if name = rootName then NodeColor.green else NodeColor.blue).text := by
    split_ifs <;> rfl
  unfold nodeLine DotRow.line nodeText
  simp only [hquote, hend, hcolor, List.append_assoc, List.cons_append]

lemma edgeLine_eq (source target : Nat) :
    edgeLine (source, target) = (DotRow.edge source target).line ++ ['\n'] := by
  have hend : " [ ]\n".toList = " [ ]".toList ++ ['\n'] := by
    rw [String.toList_ofList, String.toList_ofList]
    rfl
  unfold edgeLine DotRow.line edgeText
  simp only [hend, List.append_assoc]

/-- Only the first node has the name of the first one. -/
lemma eq_first_iff (hnodup : g.nodes.Nodup) (hfirst : g.nodes.head? = some rootName)
    {name : String} {index : Nat} (h : (name, index) ∈ g.nodes.zipIdx) :
    name = rootName ↔ index = 0 := by
  obtain ⟨first, names, hnodes⟩ := List.exists_cons_of_ne_nil (l := g.nodes)
    (by rintro hnil; simp [hnil] at hfirst)
  rw [hnodes] at hnodup hfirst h
  obtain rfl : first = rootName := by simpa using hfirst
  rw [List.zipIdx_cons, List.mem_cons] at h
  rcases h with heq | htail
  · simp_all
  · have hindex := List.le_snd_of_mem_zipIdx htail
    have hmem := List.fst_mem_of_mem_zipIdx htail
    have hne : name ≠ first := by
      rintro rfl
      exact (List.nodup_cons.mp hnodup).1 hmem
    simp only [hne, false_iff]
    omega

/-- The text of a graph is made of the lines of its rows, between those of the braces. -/
lemma digraph_eq (hnodup : g.nodes.Nodup) (hfirst : g.nodes.head? = some rootName) :
    digraph rootName g =
      ("digraph \x7b".toList :: (dotRows g).map DotRow.line ++ ["\x7d".toList]).flatMap
        (· ++ ['\n']) := by
  have hnodes : nodeLines rootName 0 g.nodes =
      (g.nodes.zipIdx.map fun (name, index) =>
        (DotRow.node index name (if index = 0 then .green else .blue)).line).flatMap
          (· ++ ['\n']) := by
    rw [nodeLines_eq, List.flatMap_map]
    refine List.flatMap_congr fun ⟨name, index⟩ h => ?_
    simp only [nodeLine_eq, eq_first_iff hnodup hfirst h]
  have hedges : g.edges.flatMap edgeLine =
      (g.edges.map fun (source, target) => (DotRow.edge source target).line).flatMap
        (· ++ ['\n']) := by
    rw [List.flatMap_map]
    exact List.flatMap_congr fun ⟨source, target⟩ _ => edgeLine_eq source target
  -- each of the other lines is written with its line feed as well
  have hopen : "digraph \x7b\n".toList = "digraph \x7b".toList ++ ['\n'] := by
    rw [String.toList_ofList, String.toList_ofList]
    rfl
  have hclose : "\x7d\n".toList = "\x7d".toList ++ ['\n'] := by
    rw [String.toList_ofList, String.toList_ofList]
    rfl
  unfold digraph dotRows
  rw [hnodes, hedges, hopen, hclose]
  simp only [List.map_append, List.map_map, List.flatMap_append, List.flatMap_cons,
    Function.comp_def, List.append_assoc, List.cons_append, List.nil_append, List.flatMap_nil,
    List.append_nil]

/-- The rows of a graph are read back from its text. -/
lemma readRows?_digraph (hnodup : g.nodes.Nodup) (hfirst : g.nodes.head? = some rootName) :
    ModulePath.split '\n' (digraph rootName g) =
        "digraph \x7b".toList :: (dotRows g).map DotRow.line ++ ["\x7d".toList, []] ∧
      readRows? (digraph rootName g) = some (dotRows g) := by
  have hsplit : ModulePath.split '\n' (digraph rootName g) =
      "digraph \x7b".toList :: (dotRows g).map DotRow.line ++ ["\x7d".toList, []] := by
    rw [digraph_eq hnodup hfirst, split_lines]
    · simp
    · intro line hline
      simp only [List.cons_append, List.mem_cons, List.mem_append, List.mem_map,
        List.not_mem_nil, or_false] at hline
      rcases hline with rfl | ⟨row, -, rfl⟩ | rfl
      · exact not_mem_ofList (by decide)
      · exact line_feed_not_mem_line row
      · exact not_mem_ofList (by decide)
  have hrows : ((dotRows g).map DotRow.line).mapM readRow? = some (dotRows g) := by
    induction dotRows g with
    | nil => rfl
    | cons row rows ih => simp [readRow?_line, ih]
  refine ⟨hsplit, ?_⟩
  unfold readRows?
  rw [hsplit]
  simp [List.splitAt_eq, hrows]

end Text

end ImportAtlas.Export

namespace ImportAtlas.ImportGraph

open Export

/-- The package is mentioned first. -/
lemma head?_drawnGraph (g : ImportGraph) : g.drawnGraph.nodes.head? = some g.rootName := by
  rw [drawnGraph, (GraphBuilder.records_ofMentions _).nodes, List.cons_append, List.flatMap_cons,
    Mention.names, List.singleton_append, List.eraseDups_cons, List.head?_cons]

lemma nodup_drawnGraph (g : ImportGraph) : g.drawnGraph.nodes.Nodup :=
  (GraphBuilder.numbered_ofMentions _).nodup

lemma toList_dot (g : ImportGraph) :
    g.dot.toList =
      "// The ".toList ++ g.rootName.toList ++ " package\n".toList ++
        digraph g.rootName g.drawnGraph := by
  unfold dot dotHeader
  rw [String.toList_ofList]

lemma dot_eq_iff {g h : ImportGraph} (hroot : h.rootName = g.rootName) :
    g.dot = h.dot ↔ g.drawnGraph = h.drawnGraph := by
  constructor
  · intro hdot
    have htext := congrArg String.toList hdot
    rw [toList_dot, toList_dot, hroot, List.append_right_inj] at htext
    have hg := (readRows?_digraph g.nodup_drawnGraph g.head?_drawnGraph).2
    have hh := (readRows?_digraph h.nodup_drawnGraph h.head?_drawnGraph).2
    rw [hroot, ← htext, hg] at hh
    calc
      g.drawnGraph = DotRow.graph (dotRows g.drawnGraph) := (graph_dotRows _).symm
      _ = DotRow.graph (dotRows h.drawnGraph) := by rw [Option.some.inj hh]
      _ = h.drawnGraph := graph_dotRows _
  · intro hdrawn
    unfold dot dotHeader
    rw [hroot, hdrawn]

/-- **Drawing and back.** Behind the header, the text of a graph has a line for each node in the
order of their numbers and for each edge, between those of the braces. What the lines say is read
back from the text: the numbers and names of the nodes, green for the first one, which has the name
of the package as no other has, and blue for all others, and the edges. So under one name of the
package the text determines what is drawn. -/
theorem dot_round_trip (g : ImportGraph) :
    let body := digraph g.rootName g.drawnGraph
    g.dot.toList = "// The ".toList ++ g.rootName.toList ++ " package\n".toList ++ body ∧
    ModulePath.split '\n' body =
      "digraph \x7b".toList :: (dotRows g.drawnGraph).map DotRow.line ++ ["\x7d".toList, []] ∧
    readRows? body = some (dotRows g.drawnGraph) ∧
    DotRow.graph (dotRows g.drawnGraph) = g.drawnGraph ∧
    g.drawnGraph.nodes.head? = some g.rootName ∧ g.drawnGraph.nodes.Nodup ∧
    ∀ h : ImportGraph, h.rootName = g.rootName → (g.dot = h.dot ↔ g.drawnGraph = h.drawnGraph) := by
  intro body
  obtain ⟨hlines, hrows⟩ := readRows?_digraph g.nodup_drawnGraph g.head?_drawnGraph
  exact ⟨toList_dot g, hlines, hrows, graph_dotRows _, head?_drawnGraph g, nodup_drawnGraph g,
    fun h hroot => dot_eq_iff hroot⟩

/-- A package with one module in it, of the given name. -/
def single (rootName name : String) : ImportGraph :=
  .ofModules rootName .all [(⟨[rootName, name]⟩, [])]

/-- A quote in a name is told from a quote behind a backslash. -/
theorem dot_single_ne :
    let quote := single "p\n" "\""
    let escaped := single "p\n" "\\\""
    escaped.rootName = quote.rootName ∧ quote.dot ≠ escaped.dot := by
  intro quote escaped
  have hne : quote.drawnGraph ≠ escaped.drawnGraph := by decide +kernel
  have hroot : escaped.rootName = quote.rootName := Eq.refl "p\n"
  obtain ⟨-, -, -, -, -, -, hdot⟩ := dot_round_trip quote
  exact ⟨hroot, fun heq => hne ((hdot escaped hroot).mp heq)⟩

end ImportAtlas.ImportGraph
