/-!
# Graphs

What a chart is drawn as: a graph with one node for each entity and a list of statements for the
arcs. This tree is the only thing that becomes text, and it holds what the text says, not how it is
written: names and texts are not escaped, and the lines of an attribute are apart.
-/

namespace SequenceChart.Dot

/-- An attribute with the lines of its text. -/
structure Attribute where
  name : String
  lines : List (List Char)
  deriving DecidableEq, Repr

/-- The node of an entity. -/
structure Node where
  name : String
  attributes : List Attribute
  deriving DecidableEq, Repr

/-- What an arc is drawn as. -/
inductive Statement where
  /-- An edge between two nodes. -/
  | edge (source target : String) (attributes : List Attribute)
  /-- A node of its own, told from others by its number, that is tied to two nodes by edges. -/
  | box (number : Nat) (attributes : List Attribute) (source target : String)
      (ties : List Attribute)
  /-- A frame around statements, with a text at its top or none. -/
  | cluster (number : Nat) (caption : Option String) (body : List Statement)
  deriving Repr

/-- A whole graph. -/
structure Graph where
  nodes : List Node
  statements : List Statement
  deriving Repr

end SequenceChart.Dot
