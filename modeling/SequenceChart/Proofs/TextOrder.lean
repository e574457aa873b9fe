import SequenceChart.Dot.Graph

/-!
# Statements in the order of the text

A graph nests its statements; its text lists them. `Statement.inOrder` lays a statement and all that
stands in it end to end, a cluster in front of its body, and leaves the bodies themselves out. What
holds of the statements one by one is said of this list.
-/

namespace SequenceChart.Dot

mutual

/-- A statement and what stands in it, in the order of the text. A cluster leaves its body
    behind it. -/
def Statement.inOrder : Statement → List Statement
  | .edge source target attributes => [.edge source target attributes]
  | .box number attributes source target ties => [.box number attributes source target ties]
  | .cluster number caption body => .cluster number caption [] :: Statement.allInOrder body

/-- Statements and what stands in them, in the order of the text. -/
def Statement.allInOrder : List Statement → List Statement
  | [] => []
  | s :: ss => Statement.inOrder s ++ Statement.allInOrder ss

end

theorem Statement.allInOrder_append : ∀ ss ts : List Statement,
    Statement.allInOrder (ss ++ ts) = Statement.allInOrder ss ++ Statement.allInOrder ts
  | [], _ => rfl
  | s :: ss, ts => by
      rw [List.cons_append, Statement.allInOrder, Statement.allInOrder,
        Statement.allInOrder_append ss ts, List.append_assoc]

/-- The attributes of a statement itself. -/
def Statement.attributes : Statement → List Attribute
  | .edge _ _ attributes => attributes
  | .box _ attributes _ _ ties => attributes ++ ties
  | .cluster _ _ _ => []

/-- The names of nodes that a statement itself ties together. -/
def Statement.ends : Statement → List String
  | .edge source target _ => [source, target]
  | .box _ _ source target _ => [source, target]
  | .cluster _ _ _ => []

/-- The name of the node that a box makes. -/
def Statement.boxName? : Statement → Option String
  | .box number _ _ _ _ => some ("box" ++ toString number)
  | _ => none

/-- The name of a cluster. -/
def Statement.clusterName? : Statement → Option String
  | .cluster number _ _ => some ("cluster_" ++ toString number)
  | _ => none

end SequenceChart.Dot
