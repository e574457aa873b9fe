import SequenceChart.Dot.OfChart
import SequenceChart.Proofs.Walk

/-!
# What a chart asks to be drawn

`Chart.graph` carries the number that was given out last through the whole tree. This file says
what graph a chart asks for without carrying anything: the number of an arc is one more than the
number of drawn arcs in front of it, and these are counted on the walk of `Walk.lean`.

* `Chart.outline` is that graph: a node for each entity, and for each drawn arc its edge or box,
  and behind it a cluster where the arc is a container;
* `statements_eq` and its two companions compare both, arc by arc: the carried number is the
  counted one. `graph_eq_outline` is the comparison for whole charts.
-/

namespace SequenceChart

open SequenceChart.Dot

/-! ## 1. Numbers by counting -/

/-- How many arcs are drawn for arcs that follow each other, with everything nested in them. -/
def drawnAmong (arcs : List Arc) : Nat :=
  (arcs.flatMap (Arc.reached Arc.wellFormed)).length

/-- How many arcs are drawn for one arc: itself and what it holds, or nothing. -/
def Arc.drawnCount (a : Arc) : Nat :=
  (a.reached Arc.wellFormed).length

theorem drawnAmong_cons (a : Arc) (arcs : List Arc) :
    drawnAmong (a :: arcs) = a.drawnCount + drawnAmong arcs := by
  unfold drawnAmong
  rw [List.flatMap_cons, List.length_append]
  rfl

theorem drawnAmong_append (arcs others : List Arc) :
    drawnAmong (arcs ++ others) = drawnAmong arcs + drawnAmong others := by
  unfold drawnAmong
  rw [List.flatMap_append, List.length_append]

/-- A well-formed arc is drawn before what it holds. -/
theorem Arc.drawnCount_of_wellFormed {a : Arc} (h : a.wellFormed = true) :
    a.drawnCount = drawnAmong a.inside + 1 := by
  rw [Arc.drawnCount, Arc.reached_of_pass Arc.wellFormed h]
  rfl

theorem Arc.drawnCount_of_malformed {a : Arc} (h : ¬ a.wellFormed = true) : a.drawnCount = 0 := by
  rw [Arc.drawnCount, Arc.reached_of_fail Arc.wellFormed h]
  rfl

mutual

/-- What an arc asks for whose number is `n`. -/
def Arc.outline (width n : Nat) : Arc → List Statement
  | ⟨k, s, t, l, p, none⟩ =>
    let a : Arc := ⟨k, s, t, l, p, none⟩
    if a.wellFormed then [a.figure width n] else []
  | ⟨k, s, t, l, p, some rows⟩ =>
    let a : Arc := ⟨k, s, t, l, p, some rows⟩
    if a.wellFormed then
      [a.figure width n, .cluster n a.caption (Arc.rowsOutline width (n + 1) rows)]
    else []

/-- What rows ask for whose first drawn arc has the number `n`. -/
def Arc.rowsOutline (width n : Nat) : List Row → List Statement
  | [] => []
  | row :: rows =>
    Arc.rowOutline width n row ++ Arc.rowsOutline width (n + drawnAmong row) rows

/-- What a row asks for whose first drawn arc has the number `n`. -/
def Arc.rowOutline (width n : Nat) : Row → List Statement
  | [] => []
  | a :: row => Arc.outline width n a ++ Arc.rowOutline width (n + a.drawnCount) row

end

/-- **The graph that a chart asks for.** -/
def Chart.outline (width : Nat) (c : Chart) : Graph :=
  ⟨c.entities.map (Entity.node width), Arc.rowsOutline width 1 c.rows⟩

/-! ## 2. The carried number is the counted one -/

/-- The cluster of a container, and nothing for other arcs. -/
def Arc.frame (width n : Nat) (a : Arc) : List Statement :=
  match a.rows with
  | none => []
  | some rows => [.cluster n a.caption (Arc.rowsOutline width (n + 1) rows)]

theorem Arc.outline_eq (width n : Nat) (a : Arc) :
    a.outline width n = if a.wellFormed then a.figure width n :: a.frame width n else [] := by
  rcases a with ⟨_, _, _, _, _, _ | _⟩ <;> rfl

mutual

/-- **The statements of an arc and the number given out last.** Behind the number `n` the arc has
    the number `n + 1`, and every drawn arc in it takes one number. -/
theorem Arc.statements_eq (width n : Nat) : ∀ a : Arc,
    a.statements width n = (a.outline width (n + 1), n + a.drawnCount)
  | ⟨k, s, t, l, p, none⟩ => by
      by_cases h : (Arc.mk k s t l p none).wellFormed = true
      · rw [Arc.statements, Arc.outline, Arc.drawnCount_of_wellFormed h]
        simp only [h, if_true]
        rfl
      · rw [Arc.statements, Arc.outline, Arc.drawnCount_of_malformed h]
        simp only [h]
        rfl
  | ⟨k, s, t, l, p, some rows⟩ => by
      -- the test does not look at the rows, so it may be made with them or without
      have hsame : (Arc.mk k s t l p (some rows)).wellFormed = (Arc.mk k s t l p none).wellFormed :=
        rfl
      by_cases h : (Arc.mk k s t l p none).wellFormed = true
      · have hrows := Arc.rowsStatements_eq width (n + 1) rows
        have hcount : n + (Arc.mk k s t l p (some rows)).drawnCount =
            n + 1 + drawnAmong rows.flatten := by
          rw [Arc.drawnCount_of_wellFormed (hsame.trans h), Nat.add_right_comm n 1]
          rfl
        rw [Arc.statements, Arc.outline, hrows, hcount]
        simp only [hsame, h, if_true]
        rfl
      · rw [Arc.statements, Arc.outline,
          Arc.drawnCount_of_malformed (fun e => h (hsame.symm.trans e))]
        simp only [hsame, h]
        rfl

theorem Arc.rowsStatements_eq (width n : Nat) : ∀ rows : List Row,
    Arc.rowsStatements width n rows =
      (Arc.rowsOutline width (n + 1) rows, n + drawnAmong rows.flatten)
  | [] => rfl
  | row :: rows => by
      have hrow := Arc.rowStatements_eq width n row
      have hrows := Arc.rowsStatements_eq width (n + drawnAmong row) rows
      have hn : n + drawnAmong row + 1 = n + 1 + drawnAmong row :=
        Nat.add_right_comm n _ 1
      rw [hn] at hrows
      simp only [Arc.rowsStatements, Arc.rowsOutline, hrow, hrows, List.flatten_cons,
        drawnAmong_append, Nat.add_assoc]

theorem Arc.rowStatements_eq (width n : Nat) : ∀ row : Row,
    Arc.rowStatements width n row =
      (Arc.rowOutline width (n + 1) row, n + drawnAmong row)
  | [] => rfl
  | a :: row => by
      have ha := Arc.statements_eq width n a
      have hrow := Arc.rowStatements_eq width (n + a.drawnCount) row
      have hn : n + a.drawnCount + 1 = n + 1 + a.drawnCount := Nat.add_right_comm n _ 1
      rw [hn] at hrow
      simp only [Arc.rowStatements, Arc.rowOutline, ha, hrow, drawnAmong_cons, Nat.add_assoc]

end

/-- **A chart is drawn as the graph it asks for.** -/
theorem Chart.graph_eq_outline (width : Nat) (c : Chart) : c.graph width = c.outline width := by
  unfold Chart.graph Chart.outline
  rw [Arc.rowsStatements_eq]

/-- The number given out last is the number of drawn arcs. -/
theorem Chart.lastNumber_eq (width : Nat) (c : Chart) : c.lastNumber width = c.drawn.length := by
  unfold Chart.lastNumber
  rw [Arc.rowsStatements_eq, Chart.drawn, Chart.reached_eq]
  exact Nat.zero_add _

end SequenceChart
