import SequenceChart.Dot.Graph
import SequenceChart.Text.Wrap

/-!
# The text of a graph

A graph is written in the language of Graphviz: a comment, the defaults, a line for each node, and
one or more lines for each statement, indented by the depth of the clusters around it. Every
function here writes in front of a text that is there already.

Texts stand between quotes. Inside, a backslash takes the next character with it, and every other
quote ends the text. So a quote is written behind a backslash, and backslashes that stand right
before a quote or at the very end are doubled; all others stay as they are.

* `Text.escape` writes a text for the inside of quotes, and `Text.quoted` puts the quotes around it;
* `Text.attributeText` is the inside of an attribute value: the wrapped lines, each escaped by
  itself, with a line end between them;
* `Graph.print` is the text of a whole graph.
-/

namespace SequenceChart.Text

/-! ## 1. Quoted texts -/

/-- Escapes a text behind a run of backslashes that is not written yet: whether the run is
    doubled depends on what comes behind it. -/
def escapeFrom : Nat → List Char → List Char
  | run, [] => List.replicate (2 * run) '\\'
  | run, c :: cs =>
    if c = '\\' then escapeFrom (run + 1) cs
    else if c = '"' then List.replicate (2 * run) '\\' ++ '\\' :: '"' :: escapeFrom 0 cs
    else List.replicate run '\\' ++ c :: escapeFrom 0 cs

/-- **A text as it is written between quotes.** -/
def escape (text : List Char) : List Char :=
  escapeFrom 0 text

/-- A text between quotes. -/
def quoted (text : List Char) : List Char :=
  '"' :: escape text ++ ['"']

/-- The inside of an attribute value: escaped lines with line ends between them. -/
def escapeLines (lines : List (List Char)) : List Char :=
  List.intercalate ['\n'] (lines.map escape)

/-- The inside of an attribute value that holds a text wrapped at a width. -/
def attributeText (m : Measure) (width : Nat) (text : List Char) : List Char :=
  escapeLines (wrap m width text)

end SequenceChart.Text

namespace SequenceChart.Dot

open SequenceChart.Text

/-! ## 2. Names and attributes -/

/-- A text in front of another. -/
def writeText (s : String) (rest : List Char) : List Char :=
  s.toList ++ rest

/-- A name in quotes. -/
def writeName (name : String) (rest : List Char) : List Char :=
  quoted name.toList ++ rest

/-- An attribute with its text in quotes. -/
def Attribute.write (a : Attribute) (rest : List Char) : List Char :=
  writeText a.name ('=' :: '"' :: (escapeLines a.lines ++ '"' :: rest))

/-- The attributes behind the first. -/
def writeAttributes : List Attribute → List Char → List Char
  | [], rest => rest
  | a :: as, rest => ',' :: ' ' :: a.write (writeAttributes as rest)

/-- Attributes in brackets, and nothing if there are none. -/
def writeBlock : List Attribute → List Char → List Char
  | [], rest => rest
  | a :: as, rest => ' ' :: '[' :: a.write (writeAttributes as (']' :: rest))

/-! ## 3. Lines -/

/-- The blanks at the front of a line inside this many clusters. -/
def indent (depth : Nat) (rest : List Char) : List Char :=
  List.replicate (2 * depth + 2) ' ' ++ rest

/-- The line of a node. -/
def Node.write (n : Node) (rest : List Char) : List Char :=
  indent 0 (writeName n.name (writeBlock n.attributes (';' :: '\n' :: rest)))

/-- The line with the text at the top of a cluster, if there is one. -/
def writeCaption (depth : Nat) (caption : Option String) (rest : List Char) : List Char :=
  match caption with
  | none => rest
  | some s =>
    indent depth (writeText " label="
      (quoted s.toList ++ writeText " labeljust=\"l\"" ('\n' :: rest)))

/-- The name of the node of a box. It needs no quotes. -/
def writeBoxName (number : Nat) (rest : List Char) : List Char :=
  writeText "box" (writeText (toString number) rest)

/-- The line that ties a box to its two ends. -/
def writeTies (depth number : Nat) (source target : String) (ties : List Attribute)
    (rest : List Char) : List Char :=
  indent depth (writeBoxName number (writeText " -- \x7b" (writeName source
    (',' :: writeName target ('\x7d' :: writeBlock ties ('\n' :: rest))))))

mutual

/-- The lines of a statement. -/
def Statement.write (depth : Nat) : Statement → List Char → List Char
  | .edge source target attributes, rest =>
    indent depth (writeName source (writeText " -- " (writeName target
      (writeBlock attributes ('\n' :: rest)))))
  | .box number attributes source target ties, rest =>
    indent depth (writeBoxName number (writeBlock attributes ('\n' ::
      writeTies depth number source target ties rest)))
  | .cluster number caption body, rest =>
    indent depth (writeText "subgraph cluster_" (writeText (toString number)
      ('\x7b' :: '\n' :: writeCaption depth caption
        (Statement.writeAll (depth + 1) body
          (indent depth ('\x7d' :: '\n' :: rest))))))

/-- The lines of statements. -/
def Statement.writeAll (depth : Nat) : List Statement → List Char → List Char
  | [], rest => rest
  | s :: ss, rest => Statement.write depth s (Statement.writeAll depth ss rest)

end

/-! ## 4. Whole graphs -/

/-- The comment at the top, and the opening of the graph. -/
def banner : String :=
  "/* Sequence chart represented as a directed graph\n" ++
  " * in the graphviz dot language (http://graphviz.org/)\n" ++
  " *\n" ++
  " * Generated by mscdot\n" ++
  " */\n" ++
  "\n" ++
  "graph \x7b\n"

/-- The settings that hold for the whole graph, one to a line. -/
def defaults : List String :=
  ["rankdir=LR",
   "splines=true",
   "ordering=out",
   "fontname=\"Helvetica\"",
   "fontsize=\"9\"",
   "node [style=filled, fillcolor=white fontname=\"Helvetica\", fontsize=\"9\" ]",
   "edge [fontname=\"Helvetica\", fontsize=\"9\", arrowhead=vee, arrowtail=vee, dir=forward]"]

/-- The defaults, each on its line. -/
def writeDefaults (rest : List Char) : List Char :=
  defaults.foldr (fun line rest => indent 0 (writeText line ('\n' :: rest))) rest

/-- The nodes, each on its line, and an empty line behind them if there are any. -/
def writeNodes (nodes : List Node) (rest : List Char) : List Char :=
  match nodes with
  | [] => rest
  | _ => nodes.foldr Node.write ('\n' :: rest)

/-- The graph in front of a text. -/
def Graph.write (g : Graph) (rest : List Char) : List Char :=
  writeText banner (writeDefaults ('\n' ::
    writeNodes g.nodes (Statement.writeAll 0 g.statements ('\x7d' :: rest))))

/-- **The text of a graph.** -/
def Graph.print (g : Graph) : String :=
  String.ofList (g.write [])

end SequenceChart.Dot
