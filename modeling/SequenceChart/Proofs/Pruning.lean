import SequenceChart.Proofs.Refusal
import SequenceChart.Proofs.Settling

/-!
# Charts without their malformed arcs

An arc that lacks its kind, source or target is not drawn and not checked, and neither is what is
nested in it. So a chart may as well be written without such arcs.

* `Chart.pruned` is a chart without its malformed arcs, at any depth. Its rows all stay, also
  those that are empty then;
* `Chart.graph_pruned` and `Chart.violation_pruned` say that drawing and checking do not see the
  difference;
* but it is the normal form that is drawn and checked, where ends have traded places and arcs to
  everyone have been spread out. `spread_filter_wellFormed` says that no copy of a malformed arc is
  well formed, and `Chart.pruned_normal_pruned` that it does not matter whether malformed arcs are
  taken away before the rewriting or behind it.
-/

namespace SequenceChart

/-! ## 1. Pruning -/

mutual

/-- The arc without the malformed arcs nested in it. -/
def Arc.pruned : Arc → Arc
  | ⟨k, s, t, l, p, none⟩ => ⟨k, s, t, l, p, none⟩
  | ⟨k, s, t, l, p, some rows⟩ => ⟨k, s, t, l, p, some (Arc.prunedRows rows)⟩

/-- The rows without malformed arcs. Every row stays. -/
def Arc.prunedRows : List Row → List Row
  | [] => []
  | row :: rows => Arc.prunedRow row :: Arc.prunedRows rows

/-- The row without malformed arcs. A malformed arc goes with all that is nested in it. -/
def Arc.prunedRow : Row → Row
  | [] => []
  | a :: row => if a.wellFormed then Arc.pruned a :: Arc.prunedRow row else Arc.prunedRow row

end

/-- **The chart without its malformed arcs**, at any depth. -/
def Chart.pruned (c : Chart) : Chart :=
  { c with rows := Arc.prunedRows c.rows }

theorem Arc.pruned_eq (a : Arc) : a.pruned = { a with rows := a.rows.map Arc.prunedRows } := by
  rcases a with ⟨_, _, _, _, _, _ | _⟩ <;> rfl

/-- Whether an arc is malformed does not depend on its nested rows. -/
theorem Arc.wellFormed_pruned (a : Arc) : a.pruned.wellFormed = a.wellFormed := by
  rw [Arc.pruned_eq]
  rfl

theorem Arc.prunedRow_eq (row : Row) :
    Arc.prunedRow row = (row.filter Arc.wellFormed).map Arc.pruned := by
  induction row with
  | nil => rfl
  | cons a row ih =>
    by_cases h : a.wellFormed = true <;> simp [Arc.prunedRow, h, ih]

theorem Arc.prunedRows_eq (rows : List Row) : Arc.prunedRows rows = rows.map Arc.prunedRow := by
  induction rows with
  | nil => rfl
  | cons row rows ih => rw [Arc.prunedRows, ih, List.map_cons]

/-- Pruned rows hold the well-formed arcs of the rows, each of them pruned. -/
theorem flatten_prunedRows (rows : List Row) :
    (Arc.prunedRows rows).flatten = (rows.flatten.filter Arc.wellFormed).map Arc.pruned := by
  rw [Arc.prunedRows_eq, List.filter_flatten, List.map_flatten, List.map_map]
  exact congrArg List.flatten (List.map_congr_left fun row _ => Arc.prunedRow_eq row)

theorem Arc.inside_pruned (a : Arc) :
    a.pruned.inside = (a.inside.filter Arc.wellFormed).map Arc.pruned := by
  rw [Arc.pruned_eq]
  unfold Arc.inside
  cases a.rows with
  | none => rfl
  | some rows => exact flatten_prunedRows rows

/-- No malformed arc is left in an arc that is well formed itself. -/
theorem Arc.everyArc_pruned (a : Arc) : a.wellFormed = true →
    ∀ b ∈ a.pruned.everyArc, b.wellFormed = true := by
  induction a using Arc.inside_induct with
  | step a ih =>
    intro ha b hb
    rw [Arc.everyArc_eq, Arc.inside_pruned, List.flatMap_map] at hb
    rcases List.mem_cons.mp hb with rfl | hb
    · rw [Arc.wellFormed_pruned, ha]
    · obtain ⟨x, hx, hb⟩ := List.mem_flatMap.mp hb
      exact ih x (List.mem_filter.mp hx).1 (List.mem_filter.mp hx).2 b hb

/-- **No malformed arc is left.** -/
theorem Chart.everyArc_pruned (c : Chart) : ∀ a ∈ c.pruned.everyArc, a.wellFormed = true := by
  intro a ha
  rw [Chart.everyArc_eq, Chart.pruned, flatten_prunedRows, List.flatMap_map] at ha
  obtain ⟨x, hx, ha⟩ := List.mem_flatMap.mp ha
  exact x.everyArc_pruned (List.mem_filter.mp hx).2 a ha

/-! ## 2. Drawing and checking -/

theorem Arc.statements_of_malformed (width n : Nat) {a : Arc} (h : ¬ a.wellFormed = true) :
    a.statements width n = ([], n) := by
  rw [Arc.statements_eq, Arc.outline_eq, if_neg h, Arc.drawnCount_of_malformed h]
  rfl

theorem Arc.violation_of_malformed (o : Options) (declared : String → Bool) {a : Arc}
    (h : ¬ a.wellFormed = true) : a.violation o declared = none := by
  rw [Arc.violation_eq, Arc.reached_of_fail Arc.wellFormed h]
  rfl

mutual

/-- **Drawing an arc does not see the malformed arcs in it**, nor does the numbering. -/
theorem Arc.statements_pruned (width n : Nat) : ∀ a : Arc,
    a.pruned.statements width n = a.statements width n
  | ⟨_, _, _, _, _, none⟩ => rfl
  | ⟨k, s, t, l, p, some rows⟩ => by
      have hrows := Arc.rowsStatements_pruned width (n + 1) rows
      simp only [Arc.pruned, Arc.statements, hrows]

theorem Arc.rowsStatements_pruned (width n : Nat) : ∀ rows : List Row,
    Arc.rowsStatements width n (Arc.prunedRows rows) = Arc.rowsStatements width n rows
  | [] => rfl
  | row :: rows => by
      have hrow := Arc.rowStatements_pruned width n row
      have hrows := Arc.rowsStatements_pruned width (Arc.rowStatements width n row).2 rows
      simp only [Arc.prunedRows, Arc.rowsStatements, hrow, hrows]

theorem Arc.rowStatements_pruned (width n : Nat) : ∀ row : Row,
    Arc.rowStatements width n (Arc.prunedRow row) = Arc.rowStatements width n row
  | [] => rfl
  | a :: row => by
      have ha := Arc.statements_pruned width n a
      have hrow := Arc.rowStatements_pruned width (Arc.statements width n a).2 row
      by_cases h : a.wellFormed = true
      · simp only [Arc.prunedRow, h, if_true, Arc.rowStatements, ha, hrow]
      · rw [Arc.statements_of_malformed width n h] at hrow
        simp [Arc.prunedRow, h, Arc.rowStatements, Arc.statements_of_malformed width n h, hrow]

end

mutual

/-- **Checking an arc does not see the malformed arcs in it.** -/
theorem Arc.violation_pruned (o : Options) (declared : String → Bool) : ∀ a : Arc,
    a.pruned.violation o declared = a.violation o declared
  | ⟨_, _, _, _, _, none⟩ => rfl
  | ⟨k, s, t, l, p, some rows⟩ => by
      have hrows := Arc.rowsViolation_pruned o declared rows
      simp only [Arc.pruned, Arc.violation, hrows]

theorem Arc.rowsViolation_pruned (o : Options) (declared : String → Bool) : ∀ rows : List Row,
    Arc.rowsViolation o declared (Arc.prunedRows rows) = Arc.rowsViolation o declared rows
  | [] => rfl
  | row :: rows => by
      have hrow := Arc.rowViolation_pruned o declared row
      have hrows := Arc.rowsViolation_pruned o declared rows
      simp only [Arc.prunedRows, Arc.rowsViolation, hrow, hrows]

theorem Arc.rowViolation_pruned (o : Options) (declared : String → Bool) : ∀ row : Row,
    Arc.rowViolation o declared (Arc.prunedRow row) = Arc.rowViolation o declared row
  | [] => rfl
  | a :: row => by
      have ha := Arc.violation_pruned o declared a
      have hrow := Arc.rowViolation_pruned o declared row
      by_cases h : a.wellFormed = true
      · simp only [Arc.prunedRow, h, if_true, Arc.rowViolation, ha, hrow]
      · simp [Arc.prunedRow, h, Arc.rowViolation, Arc.violation_of_malformed o declared h, hrow]

end

theorem Chart.graph_pruned (width : Nat) (c : Chart) : c.pruned.graph width = c.graph width :=
  congrArg (fun drawing => Dot.Graph.mk _ drawing.1) (Arc.rowsStatements_pruned width 0 c.rows)

theorem Chart.violation_pruned (o : Options) (c : Chart) : c.pruned.violation o = c.violation o :=
  Arc.rowsViolation_pruned o c.declares c.rows

/-! ## 3. The rewriting keeps malformed arcs malformed -/

variable (es : List Entity)

/-- A kind and its left-to-right spelling are both given. -/
theorem ne_empty_of_rightward? {kind right : String} (h : rightward? kind = some right) :
    kind ≠ "" ∧ right ≠ "" := by
  have hmem := rightward?_eq_some h
  simp only [leftwardKinds, List.mem_cons, List.not_mem_nil, or_false, Prod.mk.injEq] at hmem
  rcases hmem with ⟨rfl, rfl⟩ | ⟨rfl, rfl⟩ | ⟨rfl, rfl⟩ | ⟨rfl, rfl⟩ | ⟨rfl, rfl⟩ | ⟨rfl, rfl⟩ <;>
    decide

/-- Turning an arc round exchanges its ends, so that both are given or one is missing as before. -/
theorem Arc.wellFormed_forward (a : Arc) : a.forward.wellFormed = a.wellFormed := by
  unfold Arc.forward
  cases h : rightward? a.kind with
  | none => rfl
  | some right =>
    have hkind := bne_iff_ne.mpr (ne_empty_of_rightward? h).1
    have hright := bne_iff_ne.mpr (ne_empty_of_rightward? h).2
    simp only [Arc.wellFormed, hkind, hright, Bool.true_and]
    exact Bool.and_comm _ _

theorem Arc.wellFormed_normal (a : Arc) : (a.normal es).wellFormed = a.wellFormed := by
  rw [Arc.normal_eq]
  exact Arc.wellFormed_forward _

/-- **No copy of a malformed arc to everyone is well formed.** Its target is a star and not missing,
    so it lacks its kind or source, and these are the same in every copy. -/
theorem Arc.copies_malformed {a : Arc} (hgo : a.broadcast = true) (h : ¬ a.wellFormed = true) :
    (a.copies es).filter Arc.wellFormed = [] := by
  have htarget : a.target = "*" := beq_iff_eq.mp hgo
  have hlacks : a.kind = "" ∨ a.source = "" := by
    refine Classical.byContradiction fun hgiven => h ?_
    rw [not_or] at hgiven
    simp [Arc.wellFormed, hgiven.1, hgiven.2, htarget]
  refine List.filter_eq_nil_iff.mpr fun x hx => ?_
  obtain ⟨e, _, rfl⟩ := List.mem_map.mp hx
  rcases hlacks with hkind | hsource
  · simp [Arc.wellFormed, hkind]
  · simp [Arc.wellFormed, hsource]

/-- Items that a function sends to nothing may be left out before it. -/
theorem flatMap_filter_of_nil {α β : Type} {p : α → Bool} {f : α → List β} : ∀ {l : List α},
    (∀ x ∈ l, ¬ p x = true → f x = []) → (l.filter p).flatMap f = l.flatMap f
  | [], _ => rfl
  | x :: l, h => by
      have ih := flatMap_filter_of_nil fun y hy => h y (List.mem_cons_of_mem x hy)
      by_cases hx : p x = true
      · rw [List.filter_cons_of_pos hx, List.flatMap_cons, List.flatMap_cons, ih]
      · rw [List.filter_cons_of_neg hx, List.flatMap_cons, h x List.mem_cons_self hx, ih]
        rfl

/-- **The well-formed arcs of a spread row come from well-formed arcs.** -/
theorem spread_filter_wellFormed (row : Row) :
    (spread es (row.filter Arc.wellFormed)).filter Arc.wellFormed =
      (spread es row).filter Arc.wellFormed := by
  have hstays : ((row.filter Arc.wellFormed).filter fun x => !x.broadcast).filter Arc.wellFormed =
      (row.filter fun x => !x.broadcast).filter Arc.wellFormed := by
    simp only [List.filter_filter]
    exact List.filter_congr fun x _ => by cases x.wellFormed <;> simp
  have hgoes : ((row.filter Arc.wellFormed).filter Arc.broadcast).flatMap
        (fun x => (x.copies es).filter Arc.wellFormed) =
      (row.filter Arc.broadcast).flatMap fun x => (x.copies es).filter Arc.wellFormed := by
    have hcomm : (row.filter Arc.wellFormed).filter Arc.broadcast =
        (row.filter Arc.broadcast).filter Arc.wellFormed := by
      simp only [List.filter_filter, Bool.and_comm]
    rw [hcomm]
    exact flatMap_filter_of_nil fun x hx h =>
      Arc.copies_malformed es (List.mem_filter.mp hx).2 h
  rw [spread_eq, spread_eq, List.filter_append, List.filter_append, List.filter_flatMap,
    List.filter_flatMap, hstays, hgoes]

/-- Arcs may be spread before or after they are pruned. -/
theorem spread_map_pruned (row : Row) :
    spread es (row.map Arc.pruned) = (spread es row).map Arc.pruned := by
  have hcopies : ∀ a : Arc, a.pruned.copies es = (a.copies es).map Arc.pruned := by
    intro a
    unfold Arc.copies
    rw [Arc.pruned_eq, List.map_map]
    exact List.map_congr_left fun e _ => (Arc.pruned_eq { a with target := e.name }).symm
  have hstar : ∀ a : Arc, a.pruned.broadcast = a.broadcast := by
    intro a
    rw [Arc.pruned_eq]
    rfl
  have hstays : (row.map Arc.pruned).filter (fun x => !x.broadcast) =
      (row.filter fun x => !x.broadcast).map Arc.pruned :=
    filter_map_of_keeps fun x _ => by rw [hstar]
  have hgoes : (row.map Arc.pruned).filter Arc.broadcast =
      (row.filter Arc.broadcast).map Arc.pruned := filter_map_of_keeps fun x _ => hstar x
  rw [spread_eq, spread_eq, hstays, hgoes, List.map_append, List.map_flatMap, List.flatMap_map]
  simp only [hcopies]

/-! ## 4. Pruning before and behind the rewriting -/

/-- A pruned row is pruned again behind the rewriting, and that leaves what pruning behind the
    rewriting alone leaves, if this holds of every arc. -/
theorem prunedRow_spread {row : Row}
    (h : ∀ a ∈ row, (a.pruned.normal es).pruned = (a.normal es).pruned) :
    Arc.prunedRow (spread es ((Arc.prunedRow row).map (Arc.normal es))) =
      Arc.prunedRow (spread es (row.map (Arc.normal es))) := by
  have hfilter : ∀ l : Row, (l.filter Arc.wellFormed).map Arc.pruned =
      (l.map Arc.pruned).filter Arc.wellFormed :=
    fun l => (filter_map_of_keeps fun a _ => a.wellFormed_pruned).symm
  have hnormal : (row.filter Arc.wellFormed).map (Arc.normal es) =
      (row.map (Arc.normal es)).filter Arc.wellFormed :=
    (filter_map_of_keeps fun a _ => a.wellFormed_normal es).symm
  calc Arc.prunedRow (spread es ((Arc.prunedRow row).map (Arc.normal es)))
      = (spread es (((Arc.prunedRow row).map (Arc.normal es)).map Arc.pruned)).filter
          Arc.wellFormed := by
        rw [Arc.prunedRow_eq (spread _ _), hfilter, spread_map_pruned]
    _ = (spread es (((row.filter Arc.wellFormed).map (Arc.normal es)).map Arc.pruned)).filter
          Arc.wellFormed := by
        rw [Arc.prunedRow_eq row, List.map_map, List.map_map, List.map_map]
        congr 2
        exact List.map_congr_left fun a ha => h a (List.mem_filter.mp ha).1
    _ = (spread es ((row.map (Arc.normal es)).map Arc.pruned)).filter Arc.wellFormed := by
        rw [hnormal, hfilter, spread_filter_wellFormed]
    _ = Arc.prunedRow (spread es (row.map (Arc.normal es))) := by
        rw [Arc.prunedRow_eq, hfilter, spread_map_pruned]

theorem prunedRows_normalRows {rows : List Row}
    (h : ∀ row ∈ rows, ∀ a ∈ row, (a.pruned.normal es).pruned = (a.normal es).pruned) :
    Arc.prunedRows (Arc.normalRows es (Arc.prunedRows rows)) =
      Arc.prunedRows (Arc.normalRows es rows) := by
  simp only [Arc.prunedRows_eq, Arc.normalRows_eq, List.map_map]
  exact List.map_congr_left fun row hrow => prunedRow_spread es (h row hrow)

theorem Arc.pruned_normal (a : Arc) : (a.normal es).pruned = { a.forward.painted es with
    rows := (a.rows.map (Arc.normalRows es)).map Arc.prunedRows } := by
  rw [Arc.pruned_eq, Arc.normal_withRows]

/-- **Pruning before the rewriting takes nothing away that pruning behind it would leave.** -/
theorem Arc.pruned_normal_pruned (a : Arc) :
    (a.pruned.normal es).pruned = (a.normal es).pruned := by
  induction a using Arc.induct with
  | step a ih =>
    have hrows : ((a.rows.map Arc.prunedRows).map (Arc.normalRows es)).map Arc.prunedRows =
        (a.rows.map (Arc.normalRows es)).map Arc.prunedRows := by
      cases hinner : a.rows with
      | none => rfl
      | some inner => exact congrArg some (prunedRows_normalRows es (ih inner hinner))
    have hown : a.pruned.forward.painted es =
        { a.forward.painted es with rows := a.rows.map Arc.prunedRows } := by
      rw [Arc.pruned_eq, Arc.forward_withRows]
      rfl
    have hinner : a.pruned.rows = a.rows.map Arc.prunedRows := by rw [Arc.pruned_eq]
    rw [Arc.pruned_normal, Arc.pruned_normal, hown, hinner, hrows]

theorem Chart.pruned_normal_pruned (c : Chart) : c.pruned.normal.pruned = c.normal.pruned :=
  congrArg (Chart.mk _) (prunedRows_normalRows c.entities fun _ _ a _ => a.pruned_normal_pruned _)

/-! ## 5. Whole charts -/

/-- What is drawn and what is refused is the same for two charts whose normal forms differ only in
    malformed arcs. -/
theorem Chart.rendered_alike_of_pruned {c d : Chart} (h : c.normal.pruned = d.normal.pruned) :
    (∀ width, c.normal.graph width = d.normal.graph width) ∧
      ∀ o, c.normal.violation o = d.normal.violation o := by
  constructor
  · intro width
    rw [← c.normal.graph_pruned, h, d.normal.graph_pruned]
  · intro o
    rw [← c.normal.violation_pruned, h, d.normal.violation_pruned]

/-- **Malformed arcs are invisible.** A chart and the same chart without its malformed arcs are drawn
    as the same graph, with the same numbers, and rendered as the same text, or refused for the same
    violation, under any options. -/
theorem malformed_arcs_invisible (c : Chart) :
    (∀ a ∈ c.pruned.everyArc, a.wellFormed = true) ∧
      (∀ width, c.pruned.normal.graph width = c.normal.graph width) ∧
      (∀ o, c.pruned.render o = c.render o) ∧
      ∀ width, c.pruned.renderLenient width = c.renderLenient width := by
  obtain ⟨hgraph, hviolation⟩ := Chart.rendered_alike_of_pruned c.pruned_normal_pruned
  have hlenient : ∀ width, c.pruned.renderLenient width = c.renderLenient width :=
    fun width => congrArg Dot.Graph.print (hgraph width)
  have hrender : ∀ o, c.pruned.render o = c.render o := by
    intro o
    unfold Chart.render
    rw [hviolation o, hlenient]
  exact ⟨c.everyArc_pruned, hgraph, hrender, hlenient⟩

end SequenceChart
