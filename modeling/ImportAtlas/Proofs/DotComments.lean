import ImportAtlas.Proofs.DotRoundTrip

/-!
The comment in front of a drawn graph.

The name of the package stands in the comment as it is, while the labels of the nodes write a line
feed as an escape. So a line feed in the name ends the comment, and what follows it in the name is
read as a part of the graph, unless it begins like a comment of its own.
-/

namespace ImportAtlas

namespace Export

def isComment (line : List Char) : Bool := ['/', '/'].isPrefixOf line

/-- The text that is left to a reader that passes over lines of comments. -/
def withoutComments (text : List Char) : List Char :=
  ModulePath.join '\n' ((ModulePath.split '\n' text).filter fun line => !isComment line)

variable {line rest : List Char}

lemma isComment_append_space : isComment (line ++ ' ' :: rest) = isComment line := by
  match line with
  | [] => rfl
  | [c] => simp [isComment, List.isPrefixOf]
  | _ :: _ :: _ => simp [isComment, List.isPrefixOf]

lemma isComment_cons {c : Char} (h : c ≠ '/') : isComment (c :: line) = false := by
  simp [isComment, List.isPrefixOf, Ne.symm h]

lemma isComment_row (row : DotRow) : isComment row.line = false := by
  have hindent : "    ".toList = [' ', ' ', ' ', ' '] := String.toList_ofList
  cases row with
  | node index name color =>
    unfold DotRow.line nodeText
    simp only [hindent, List.cons_append]
    exact isComment_cons (by decide)
  | edge source target =>
    unfold DotRow.line edgeText
    simp only [hindent, List.cons_append]
    exact isComment_cons (by decide)

end Export

namespace ImportGraph

open Export

variable (g : ImportGraph)

/-- The lines in front of the graph; the header ends with a line feed. -/
def headerLines : List (List Char) := (ModulePath.split '\n' g.dotHeader).dropLast

def bodyLines : List (List Char) := ModulePath.split '\n' (digraph g.rootName g.drawnGraph)

lemma bodyLines_eq :
    g.bodyLines = "digraph \x7b".toList :: (dotRows g.drawnGraph).map DotRow.line ++
      ["\x7d".toList, []] :=
  (readRows?_digraph g.nodup_drawnGraph g.head?_drawnGraph).1

lemma isComment_of_mem_bodyLines {line : List Char} (h : line ∈ g.bodyLines) :
    isComment line = false := by
  rw [bodyLines_eq, List.cons_append, List.mem_cons, List.mem_append, List.mem_map] at h
  rcases h with rfl | ⟨row, -, rfl⟩ | h
  · decide +kernel
  · exact isComment_row row
  · revert line
    decide +kernel

/-- The header in front of the line feed that ends it. -/
def headerText : List Char := "// The ".toList ++ (g.rootName.toList ++ " package".toList)

lemma dotHeader_eq : g.dotHeader = g.headerText ++ ['\n'] := by
  have hend : " package\n".toList = " package".toList ++ ['\n'] := by
    rw [String.toList_ofList, String.toList_ofList]
    rfl
  unfold dotHeader headerText
  rw [hend]
  simp only [List.append_assoc]

lemma headerLines_eq : g.headerLines = ModulePath.split '\n' g.headerText := by
  have hlast : ModulePath.split '\n' [] = [[]] := rfl
  rw [headerLines, dotHeader_eq, ModulePath.split_append_mark, hlast, List.dropLast_concat]

/-- The text has the lines of its header, then those of the graph. -/
lemma split_dot : ModulePath.split '\n' g.dot.toList = g.headerLines ++ g.bodyLines := by
  rw [dot, String.toList_ofList, dotHeader_eq, List.append_assoc, List.singleton_append,
    ModulePath.split_append_mark, ← headerLines_eq, bodyLines]

/-- The first line of the header is a comment; the others are so if those of the name are. -/
lemma headerLines_comments_iff :
    (∀ line ∈ g.headerLines, isComment line = true) ↔
      ∀ line ∈ (ModulePath.split '\n' g.rootName.toList).tail, isComment line = true := by
  obtain ⟨first, others, hname⟩ := List.exists_cons_of_ne_nil
    (ModulePath.split_ne_nil '\n' (g.rootName.toList ++ " package".toList))
  have hstart : '\n' ∉ "// The ".toList := not_mem_ofList (by decide)
  have hend : '\n' ∉ " package".toList := not_mem_ofList (by decide)
  -- what stands around the name goes into its first line and into its last one
  have hlines : g.headerLines = ("// The ".toList ++ first) :: others := by
    rw [headerLines_eq]
    exact ModulePath.split_append_left hstart hname
  obtain ⟨lines, last, hroot, hpackage⟩ :=
    ModulePath.split_append_right hend g.rootName.toList
  have hfirst : isComment ("// The ".toList ++ first) = true := by
    rw [String.toList_ofList]
    rfl
  have hlast : isComment (last ++ " package".toList) = isComment last := by
    rw [String.toList_ofList]
    exact isComment_append_space
  rw [hpackage] at hname
  rw [hlines, hroot, List.forall_mem_cons, and_iff_right hfirst]
  cases lines with
  | nil =>
    -- the name is one line, which is the first
    obtain ⟨-, rfl⟩ := List.cons.inj hname
    simp
  | cons line lines =>
    obtain ⟨-, rfl⟩ := List.cons.inj hname
    show (∀ l ∈ lines ++ [last ++ " package".toList], _) ↔ ∀ l ∈ lines ++ [last], _
    simp only [List.forall_mem_append, List.forall_mem_singleton, hlast]

/-- A reader that passes over comments sees the graph alone exactly if the header is a comment. -/
lemma withoutComments_dot_iff :
    withoutComments g.dot.toList = digraph g.rootName g.drawnGraph ↔
      ∀ line ∈ g.headerLines, isComment line = true := by
  have hbody : g.bodyLines.filter (fun line => !isComment line) = g.bodyLines := by
    refine List.filter_eq_self.mpr fun line hline => ?_
    rw [g.isComment_of_mem_bodyLines hline]
    rfl
  have hheader : (∀ line ∈ g.headerLines, isComment line = true) ↔
      g.headerLines.filter (fun line => !isComment line) = [] := by
    simp [List.filter_eq_nil_iff]
  have hjoin : ModulePath.join '\n' g.bodyLines = digraph g.rootName g.drawnGraph :=
    ModulePath.join_split _ _
  have hbodyLines : g.bodyLines ≠ [] := ModulePath.split_ne_nil _ _
  rw [withoutComments, split_dot, List.filter_append, hbody, hheader]
  constructor
  · intro heq
    -- a header line that is left makes the text longer than the graph
    by_contra hne
    rw [ModulePath.join_append hne hbodyLines, hjoin] at heq
    have hlength := congrArg List.length heq
    rw [List.length_append, List.length_cons] at hlength
    omega
  · intro hnil
    rw [hnil, List.nil_append, hjoin]

/-- **The comment in front of a graph.** The lines of the text are those of the header and those of
the graph, the first of which opens its brace. All lines of the header are comments exactly if each
line of the name of the package behind its first one begins like a comment, as they do if the name
has no line feed. Exactly then a reader that passes over comments sees the graph and nothing else,
and it is the graph that is drawn. -/
theorem dot_comment_iff :
    let body := digraph g.rootName g.drawnGraph
    ModulePath.split '\n' g.dot.toList = g.headerLines ++ ModulePath.split '\n' body ∧
    (ModulePath.split '\n' body).head? = some "digraph \x7b".toList ∧
    ((∀ line ∈ g.headerLines, "//".toList <+: line) ↔
      ∀ line ∈ (ModulePath.split '\n' g.rootName.toList).tail, "//".toList <+: line) ∧
    ((∀ line ∈ g.headerLines, "//".toList <+: line) ↔ withoutComments g.dot.toList = body) ∧
    ('\n' ∉ g.rootName.toList → withoutComments g.dot.toList = body) ∧
    (readRows? body).map DotRow.graph = some g.drawnGraph := by
  intro body
  have hbegins : ∀ line, "//".toList <+: line ↔ isComment line = true := by
    intro line
    rw [String.toList_ofList, isComment, List.isPrefixOf_iff_prefix]
  simp only [hbegins]
  refine ⟨g.split_dot, ?_, g.headerLines_comments_iff, g.withoutComments_dot_iff.symm, ?_, ?_⟩
  · show g.bodyLines.head? = _
    rw [bodyLines_eq]
    rfl
  · intro hname
    rw [withoutComments_dot_iff, headerLines_comments_iff, ModulePath.split_self hname]
    simp
  · rw [(readRows?_digraph g.nodup_drawnGraph g.head?_drawnGraph).2, Option.map_some,
      graph_dotRows]

/-- The comment in front of the drawing of a package is passed over. -/
theorem dot_comment_single :
    '\n' ∉ (single "p" "a\nb").rootName.toList ∧
      withoutComments (single "p" "a\nb").dot.toList =
        digraph "p" (single "p" "a\nb").drawnGraph := by
  have hname : '\n' ∉ (single "p" "a\nb").rootName.toList := by decide +kernel
  exact ⟨hname, (dot_comment_iff (single "p" "a\nb")).2.2.2.2.1 hname⟩

/-- A line feed in the name of a package ends the comment, also where there are no modules. -/
theorem dot_comment_line_feed :
    let g := ofModules "a\nb" .all []
    g.headerLines = ["// The a".toList, "b package".toList] ∧
      ¬(∀ line ∈ g.headerLines, "//".toList <+: line) ∧
      withoutComments g.dot.toList ≠ digraph g.rootName g.drawnGraph := by
  intro g
  have hlines : g.headerLines = ["// The a".toList, "b package".toList] := by decide +kernel
  have hnot : ¬(∀ line ∈ g.headerLines, "//".toList <+: line) := by
    rw [hlines]
    decide +kernel
  refine ⟨hlines, hnot, fun heq => hnot ?_⟩
  have hcomments := g.withoutComments_dot_iff.mp heq
  intro line hline
  rw [String.toList_ofList, ← List.isPrefixOf_iff_prefix]
  exact hcomments line hline

end ImportGraph

end ImportAtlas
