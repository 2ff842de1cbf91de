import ImportAtlas.Json.Record

/-!
Import graphs as a page.

The page is a fixed text with places for the records of the graph and for the diameter of the
drawing. They are put there in this order; what looks like the place of the diameter within the
records is replaced as well.
-/

namespace ImportAtlas.Export

def pageTop : String := "\n".intercalate [
  "<!DOCTYPE html>",
  "<html>",
  "<head>",
  "<meta charset=\"utf-8\">",
  "<title>betsy: module imports</title>",
  "<style>",
  "body \x7b",
  "  font: 11px sans-serif;",
  "  margin: 0;",
  "\x7d",
  "",
  ".node \x7b",
  "  fill: #555;",
  "\x7d",
  "",
  ".node:hover \x7b",
  "  fill: #000;",
  "\x7d",
  "",
  ".link \x7b",
  "  stroke: steelblue;",
  "  stroke-opacity: 0.4;",
  "  fill: none;",
  "  pointer-events: none;",
  "\x7d",
  "",
  ".node:hover,",
  ".node--source,",
  ".node--target \x7b",
  "  font-weight: 700;",
  "\x7d",
  "",
  ".node--source \x7b",
  "  fill: #2ca02c;",
  "\x7d",
  "",
  ".node--target \x7b",
  "  fill: #d62728;",
  "\x7d",
  "",
  ".link--source,",
  ".link--target \x7b",
  "  stroke-opacity: 1;",
  "  stroke-width: 2px;",
  "\x7d",
  "",
  ".link--source \x7b",
  "  stroke: #d62728;",
  "\x7d",
  "",
  ".link--target \x7b",
  "  stroke: #2ca02c;",
  "\x7d",
  "</style>",
  "</head>",
  "<body>",
  "<script src=\"https://d3js.org/d3.v4.min.js\"></script>",
  "<script>",
  ""]

def pageBetween : String := "\n".intercalate [
  ";",
  ""]

def pageBottom : String := "\n".intercalate [
  ";",
  "",
  "var radius = diameter / 2,",
  "    innerRadius = radius - 120;",
  "",
  "var cluster = d3.cluster()",
  "    .size([360, innerRadius]);",
  "",
  "var line = d3.radialLine()",
  "    .curve(d3.curveBundle.beta(0.85))",
  "    .radius(function(d) \x7b return d.y; \x7d)",
  "    .angle(function(d) \x7b return d.x / 180 * Math.PI; \x7d);",
  "",
  "var svg = d3.select(\"body\").append(\"svg\")",
  "    .attr(\"width\", diameter)",
  "    .attr(\"height\", diameter)",
  "  .append(\"g\")",
  "    .attr(\"transform\", \"translate(\" + radius + \",\" + radius + \")\");",
  "",
  "var link = svg.append(\"g\").selectAll(\".link\"),",
  "    node = svg.append(\"g\").selectAll(\".node\");",
  "",
  "var root = packageHierarchy(classes)",
  "    .sum(function(d) \x7b return d.size; \x7d);",
  "",
  "cluster(root);",
  "",
  "link = link",
  "  .data(packageImports(root.leaves()))",
  "  .enter().append(\"path\")",
  "    .each(function(d) \x7b d.source = d[0], d.target = d[d.length - 1]; \x7d)",
  "    .attr(\"class\", \"link\")",
  "    .attr(\"d\", line);",
  "",
  "node = node",
  "  .data(root.leaves())",
  "  .enter().append(\"text\")",
  "    .attr(\"class\", \"node\")",
  "    .attr(\"dy\", \"0.31em\")",
  "    .attr(\"transform\", function(d) \x7b return \"rotate(\" + (d.x - 90) + \")translate(\" + (d.y + 8) + \",0)\" + (d.x < 180 ? \"\" : \"rotate(180)\"); \x7d)",
  "    .attr(\"text-anchor\", function(d) \x7b return d.x < 180 ? \"start\" : \"end\"; \x7d)",
  "    .text(function(d) \x7b return d.data.key; \x7d)",
  "    .on(\"mouseover\", mouseovered)",
  "    .on(\"mouseout\", mouseouted);",
  "",
  "function mouseovered(d) \x7b",
  "  node",
  "      .each(function(n) \x7b n.target = n.source = false; \x7d);",
  "",
  "  link",
  "      .classed(\"link--target\", function(l) \x7b if (l.target === d) return l.source.source = true; \x7d)",
  "      .classed(\"link--source\", function(l) \x7b if (l.source === d) return l.target.target = true; \x7d)",
  "    .filter(function(l) \x7b return l.target === d || l.source === d; \x7d)",
  "      .raise();",
  "",
  "  node",
  "      .classed(\"node--target\", function(n) \x7b return n.target; \x7d)",
  "      .classed(\"node--source\", function(n) \x7b return n.source; \x7d);",
  "\x7d",
  "",
  "function mouseouted(d) \x7b",
  "  link",
  "      .classed(\"link--target\", false)",
  "      .classed(\"link--source\", false);",
  "",
  "  node",
  "      .classed(\"node--target\", false)",
  "      .classed(\"node--source\", false);",
  "\x7d",
  "",
  "// Lazily construct the package hierarchy from dotted module names.",
  "// Every imported module gets a leaf, even when it was never scanned.",
  "function packageHierarchy(classes) \x7b",
  "  var map = \x7b\x7d;",
  "",
  "  function find(name, data) \x7b",
  "    var node = map[name], i;",
  "    if (!node) \x7b",
  "      node = map[name] = data || \x7bname: name, imports: []\x7d;",
  "      if (name.length) \x7b",
  "        node.parent = find(name.substring(0, i = name.lastIndexOf(\".\")));",
  "        node.parent.children = node.parent.children || [];",
  "        node.parent.children.push(node);",
  "        node.key = name.substring(i + 1);",
  "      \x7d",
  "    \x7d",
  "    return node;",
  "  \x7d",
  "",
  "  classes.forEach(function(d) \x7b",
  "    find(d.name, d);",
  "  \x7d);",
  "  classes.forEach(function(d) \x7b",
  "    d.imports.forEach(function(i) \x7b find(i); \x7d);",
  "  \x7d);",
  "",
  "  return d3.hierarchy(map[\"\"]);",
  "\x7d",
  "",
  "// Return a list of imports for the given array of nodes.",
  "function packageImports(nodes) \x7b",
  "  var map = \x7b\x7d,",
  "      imports = [];",
  "",
  "  nodes.forEach(function(d) \x7b",
  "    map[d.data.name] = d;",
  "  \x7d);",
  "",
  "  nodes.forEach(function(d) \x7b",
  "    if (d.data.imports) d.data.imports.forEach(function(i) \x7b",
  "      if (map[i]) imports.push(map[d.data.name].path(map[i]));",
  "    \x7d);",
  "  \x7d);",
  "",
  "  return imports;",
  "\x7d",
  "</script>",
  "</body>",
  "</html>",
  ""]

/-- The place of the records. -/
def recordsPlace : String := "var classes = []"

def diameterPlace : String := "var diameter = 800"

/-- The page with its two places. -/
def template : String := pageTop ++ recordsPlace ++ pageBetween ++ diameterPlace ++ pageBottom

/-- The text with one text put in place of another, from left to right. -/
def replaceAll (old new : List Char) : List Char → List Char
  | [] => []
  | c :: cs =>
    if old.isPrefixOf (c :: cs) then new ++ replaceAll old new (cs.drop (old.length - 1))
    else c :: replaceAll old new cs
termination_by s => s.length

end ImportAtlas.Export

namespace ImportAtlas.ImportGraph

open Export

/-- The diameter of the drawing, which grows with the number of importers. -/
def diameter (g : ImportGraph) : Nat := 600 + 4 * g.importerCount

def page (g : ImportGraph) : String :=
  let records := "var classes = " ++ g.json
  let diameter := "var diameter = " ++ toString g.diameter
  String.ofList
    (replaceAll diameterPlace.toList diameter.toList
      (replaceAll recordsPlace.toList records.toList template.toList))

end ImportAtlas.ImportGraph
