import SequenceChart.Proofs.Settling
import Mathlib.Algebra.BigOperators.Ring.List
import Mathlib.Algebra.Ring.Nat

/-!
# How many arcs a normal form has

In the normal form of a chart an arc that goes to one entity stands once, and an arc to everyone as
often as it has recipients. Each copy holds all that is nested in the arc, so that containers within
containers multiply.

* `copiesAmong` multiplies the recipients of the arcs to everyone in a list, and `Placed.copyCount`
  is this product for an arc and the containers around it;
* `Arc.count_normal` says how many arcs there are in the normal form of one arc, by those nested in
  it, and `Arc.sum_placed` turns this into a sum over the walk through the arc;
* `Arc.skeleton` is an arc without its texts and colours, which leaves the shape of its rows. It
  stays the same where no arc goes to everyone.
-/

namespace SequenceChart

/-! ## 1. Copies -/

/-- How many recipients the arcs to everyone in a list have, multiplied. -/
def copiesAmong (es : List Entity) (arcs : List Arc) : Nat :=
  ((arcs.filter Arc.toEveryone).map fun a => (a.recipients es).length).prod

/-- **How often an arc of the walk stands in the normal form.** It has a copy for each of its
    recipients, if it goes to everyone, in each copy of the containers around it. -/
def Placed.copyCount (es : List Entity) (p : Placed) : Nat :=
  copiesAmong es (p.arc :: p.around)

variable (es : List Entity)

theorem copiesAmong_cons (a : Arc) (arcs : List Arc) :
    copiesAmong es (a :: arcs) = copiesAmong es [a] * copiesAmong es arcs := by
  unfold copiesAmong
  by_cases h : a.toEveryone = true
  · simp [h]
  · simp [h]

/-- The copies of an arc hold the same arcs. -/
theorem Arc.count_goingTo (name : String) (a : Arc) : (a.goingTo name).count = a.count := by
  rw [Arc.count_eq, Arc.count_eq]
  rfl

theorem sum_flatMap {α β : Type} (f : β → Nat) (g : α → List β) (l : List α) :
    ((l.flatMap g).map f).sum = (l.map fun x => ((g x).map f).sum).sum := by
  rw [List.map_flatMap, List.flatMap_def, List.sum_flatten, List.map_map]
  rfl

/-- Whatever is added up over a row that is spread out, its arcs to everyone count with all their
    copies. -/
theorem sum_spread (f : Arc → Nat) (row : Row) : ((spread es row).map f).sum =
    (row.map fun a => if a.broadcast then ((a.copies es).map f).sum else f a).sum := by
  induction row with
  | nil => rfl
  | cons a row ih =>
    rw [spread_eq, List.map_append, List.sum_append] at ih ⊢
    by_cases h : a.broadcast = true
    · simp [h] at ih ⊢
      omega
    · simp [h] at ih ⊢
      omega

theorem countRow_eq_sum (row : Row) : Arc.countRow row = (row.map Arc.count).sum := by
  induction row with
  | nil => rfl
  | cons a row ih => rw [Arc.countRow, ih, List.map_cons, List.sum_cons]

/-- The copies of an arc in normal form, with everything nested in them, make as many arcs as one of
    them does, times their number. -/
theorem Arc.sum_copies_normal (a : Arc) : (((a.normal es).copies es).map Arc.count).sum =
    (a.recipients es).length * (a.normal es).count := by
  have hsame : ∀ name ∈ a.recipients es, (Arc.count ∘ fun n => (a.normal es).goingTo n) name =
      (a.normal es).count := fun name _ => Arc.count_goingTo name (a.normal es)
  rw [Arc.copies_normal_self, List.map_map, List.map_congr_left hsame, List.map_const',
    List.sum_replicate_nat]

/-! ## 2. The arcs of a normal form -/

/-- An arc makes as many arcs of a row in normal form as it has copies, times what a copy holds. -/
theorem countRow_spread_normal (row : Row) :
    Arc.countRow (spread es (row.map (Arc.normal es))) =
      (row.map fun a => copiesAmong es [a] * (a.normal es).count).sum := by
  rw [countRow_eq_sum, sum_spread, List.map_map]
  refine congrArg List.sum (List.map_congr_left fun a _ => ?_)
  show (if (a.normal es).broadcast = true then _ else _) = _
  rw [Arc.broadcast_normal, Arc.sum_copies_normal]
  unfold copiesAmong
  by_cases h : a.toEveryone = true
  · simp [h]
  · simp [h]

theorem countRows_normalRows (rows : List Row) : Arc.countRows (Arc.normalRows es rows) =
    (rows.flatten.map fun a => copiesAmong es [a] * (a.normal es).count).sum := by
  induction rows with
  | nil => rfl
  | cons row rows ih =>
    rw [Arc.normalRows, Arc.countRows, ih, Arc.normalRow_eq, countRow_spread_normal,
      List.flatten_cons, List.map_append, List.sum_append]

/-- The normal form of an arc holds the copies of what is nested in the arc. -/
theorem Arc.count_normal (a : Arc) : (a.normal es).count =
    1 + (a.inside.map fun b => copiesAmong es [b] * (b.normal es).count).sum := by
  have hrows : (a.normal es).rows.getD [] = Arc.normalRows es (a.rows.getD []) := by
    rw [Arc.rows_normal]
    cases a.rows <;> rfl
  rw [Arc.count_eq, hrows, countRows_normalRows]
  rfl

/-- **The walk through an arc, each arc counted with its copies**, gives the arcs of its normal
    form, once for each copy of the arc and of the containers around it. -/
theorem Arc.sum_placed (a : Arc) : ∀ around : List Arc,
    ((a.placed around).map (Placed.copyCount es)).sum =
      copiesAmong es around * (copiesAmong es [a] * (a.normal es).count) := by
  induction a using Arc.inside_induct with
  | step a ih =>
    intro around
    have hinside : ((a.inside.flatMap (Arc.placed (a :: around))).map (Placed.copyCount es)).sum =
        copiesAmong es (a :: around) *
          (a.inside.map fun b => copiesAmong es [b] * (b.normal es).count).sum := by
      rw [sum_flatMap, ← List.sum_map_mul_left]
      exact congrArg List.sum (List.map_congr_left fun b hb => ih b hb (a :: around))
    rw [Arc.placed_eq, List.map_cons, List.sum_cons, hinside, Arc.count_normal es a]
    show copiesAmong es (a :: around) + _ = _
    rw [← mul_one_add, copiesAmong_cons, Nat.mul_comm (copiesAmong es [a]), Nat.mul_assoc]

/-- **How many arcs the normal form has**: each arc as often as it is copied, by itself and with the
    containers around it. -/
theorem Chart.arcCount_normal (c : Chart) :
    c.normal.arcCount = (c.placed.map (Placed.copyCount c.entities)).sum := by
  unfold Chart.arcCount Chart.placed
  rw [Arc.rowsPlaced_eq, sum_flatMap]
  show Arc.countRows (Arc.normalRows c.entities c.rows) = _
  rw [countRows_normalRows]
  refine congrArg List.sum (List.map_congr_left fun a _ => ?_)
  rw [Arc.sum_placed]
  exact (Nat.one_mul _).symm

/-- An arc to everyone in a container that goes to everyone: each of the two containers holds two
    arcs, and the third entity sends neither. -/
example : Chart.arcCount (Chart.normal
    { entities := [{ name := "a" }, { name := "b" }, { name := "c" }]
      rows := [[{ kind := "loop", source := "a", target := "*",
                  rows := some [[{ kind := "<-", source := "*", target := "b" }]] }]] }) = 6 := by
  decide

/-! ## 3. Where the arcs stand -/

/-- **A row in normal form** holds its arcs to one entity in their order, and behind them the copies
    of its arcs to everyone, one for each recipient. -/
theorem Arc.normalRows_eq_copies (rows : List Row) : Arc.normalRows es rows = rows.map fun row =>
    (row.filter fun a => !a.toEveryone).map (Arc.normal es) ++
      (row.filter Arc.toEveryone).flatMap fun a =>
        (a.recipients es).map fun name => (a.normal es).goingTo name := by
  rw [Arc.normalRows_eq]
  refine List.map_congr_left fun row _ => ?_
  have hstays : (row.map (Arc.normal es)).filter (fun a => !a.broadcast) =
      (row.filter fun a => !a.toEveryone).map (Arc.normal es) := by
    rw [List.filter_map]
    exact congrArg _ (List.filter_congr fun a _ => congrArg not (Arc.broadcast_normal es a))
  have hgoes : (row.map (Arc.normal es)).filter Arc.broadcast =
      (row.filter Arc.toEveryone).map (Arc.normal es) := by
    rw [List.filter_map]
    exact congrArg _ (List.filter_congr fun a _ => Arc.broadcast_normal es a)
  rw [spread_eq, hstays, hgoes, List.flatMap_map]
  congr 1
  exact flatMap_congr_of_mem fun a _ => Arc.copies_normal_self es a

/-! ## 4. Shape -/

mutual

/-- The arc without its texts and colours. -/
def Arc.skeleton : Arc → Arc
  | ⟨_, _, _, _, _, none⟩ => {}
  | ⟨_, _, _, _, _, some rows⟩ => { rows := some (Arc.skeletonRows rows) }

/-- Rows of arcs without their texts and colours. -/
def Arc.skeletonRows : List Row → List Row
  | [] => []
  | row :: rows => Arc.skeletonRow row :: Arc.skeletonRows rows

/-- A row of arcs without their texts and colours. -/
def Arc.skeletonRow : Row → Row
  | [] => []
  | a :: row => Arc.skeleton a :: Arc.skeletonRow row

end

/-- **The shape of a chart**: its rows and arcs, at every depth, without texts and colours. -/
def Chart.skeleton (c : Chart) : List Row :=
  Arc.skeletonRows c.rows

theorem Arc.skeleton_eq (a : Arc) : a.skeleton = { rows := a.rows.map Arc.skeletonRows } := by
  rcases a with ⟨_, _, _, _, _, _ | _⟩ <;> rfl

theorem Arc.skeletonRow_eq (row : Row) : Arc.skeletonRow row = row.map Arc.skeleton := by
  induction row with
  | nil => rfl
  | cons a row ih => rw [Arc.skeletonRow, ih, List.map_cons]

theorem Arc.skeletonRows_eq (rows : List Row) :
    Arc.skeletonRows rows = rows.map fun row => row.map Arc.skeleton := by
  induction rows with
  | nil => rfl
  | cons row rows ih => rw [Arc.skeletonRows, ih, Arc.skeletonRow_eq, List.map_cons]

/-- Rows without an arc to everyone keep their arcs, one by one. -/
theorem skeletonRows_normalRows {rows : List Row}
    (hone : ∀ row ∈ rows, ∀ a ∈ row, a.toEveryone = false)
    (hsame : ∀ row ∈ rows, ∀ a ∈ row, (a.normal es).skeleton = a.skeleton) :
    Arc.skeletonRows (Arc.normalRows es rows) = Arc.skeletonRows rows := by
  rw [Arc.normalRows_eq_copies, Arc.skeletonRows_eq, Arc.skeletonRows_eq, List.map_map]
  refine List.map_congr_left fun row hrow => ?_
  have hstays : row.filter (fun a => !a.toEveryone) = row :=
    List.filter_eq_self.mpr fun a ha => by rw [hone row hrow a ha]; rfl
  have hnone : row.filter Arc.toEveryone = [] :=
    List.filter_eq_nil_iff.mpr fun a ha => by rw [hone row hrow a ha]; decide
  rw [Function.comp_apply, hstays, hnone, List.flatMap_nil, List.append_nil, List.map_map]
  exact List.map_congr_left fun a ha => hsame row hrow a ha

/-- An arc keeps its shape if it does not go to everyone, and no arc in it does. -/
theorem Arc.skeleton_normal (a : Arc) : (∀ b ∈ a.everyArc, b.toEveryone = false) →
    (a.normal es).skeleton = a.skeleton := by
  induction a using Arc.induct with
  | step a ih =>
    intro hone
    rw [Arc.skeleton_eq, Arc.skeleton_eq, Arc.rows_normal, Option.map_map]
    cases hrows : a.rows with
    | none => rfl
    | some rows =>
      have hnested : ∀ row ∈ rows, ∀ b ∈ row, ∀ x ∈ b.everyArc, x.toEveryone = false :=
        fun row hrow b hb x hx =>
          hone x (Arc.mem_everyArc.mpr (.inr ⟨rows, hrows, row, hrow, b, hb, hx⟩))
      have hself : ∀ row ∈ rows, ∀ b ∈ row, b.toEveryone = false := fun row hrow b hb =>
        hnested row hrow b hb b (Arc.mem_everyArc.mpr (.inl rfl))
      have hsame : ∀ row ∈ rows, ∀ b ∈ row, (b.normal es).skeleton = b.skeleton :=
        fun row hrow b hb => ih rows hrows row hrow b hb (hnested row hrow b hb)
      rw [Option.map_some, Option.map_some, Function.comp_apply,
        skeletonRows_normalRows es hself hsame]

/-- A chart without arcs to everyone keeps its shape. -/
theorem Chart.skeleton_normal {c : Chart} (hone : ∀ a ∈ c.everyArc, a.toEveryone = false) :
    c.normal.skeleton = c.skeleton := by
  rw [Chart.everyArc_eq] at hone
  have hnested : ∀ row ∈ c.rows, ∀ a ∈ row, ∀ b ∈ a.everyArc, b.toEveryone = false :=
    fun row hrow a ha b hb => hone b (mem_everyArc_of_rows.mpr ⟨row, hrow, a, ha, hb⟩)
  refine skeletonRows_normalRows c.entities (fun row hrow a ha => ?_) fun row hrow a ha => ?_
  · exact hnested row hrow a ha a (Arc.mem_everyArc.mpr (.inl rfl))
  · exact Arc.skeleton_normal c.entities a (hnested row hrow a ha)

/-! ## 5. The whole account -/

theorem Chart.names_normal (c : Chart) : c.normal.names = c.names := by
  show (c.entities.map Entity.labelled).map Entity.name = c.entities.map Entity.name
  rw [List.map_map]
  rfl

/-- **The normal form loses no arc and makes none up.** The entities keep their names and their
    order, and the rows their number. There are as many arcs as the product of recipients says: over
    every arc, those of the arcs to everyone among it and the containers around it. At every depth a
    row holds its arcs to one entity and then the copies of the others, each with all the rows of
    the arc in normal form; and if no arc goes to everyone, the shape of the chart stays as it
    is. -/
theorem normal_accounts_for_arcs (c : Chart) :
    c.normal.names = c.names ∧ c.normal.rows.length = c.rows.length ∧
    c.normal.arcCount = (c.placed.map fun p =>
      (((p.arc :: p.around).filter Arc.toEveryone).map fun a =>
        (a.recipients c.entities).length).prod).sum ∧
    c.normal.rows = Arc.normalRows c.entities c.rows ∧
    (∀ rows, Arc.normalRows c.entities rows = rows.map fun row =>
      (row.filter fun a => !a.toEveryone).map (Arc.normal c.entities) ++
        (row.filter Arc.toEveryone).flatMap fun a =>
          (a.recipients c.entities).map fun name => (a.normal c.entities).goingTo name) ∧
    (∀ (a : Arc) (name : String), ((a.normal c.entities).goingTo name).rows =
      a.rows.map (Arc.normalRows c.entities)) ∧
    ((∀ a ∈ c.everyArc, a.toEveryone = false) → c.normal.skeleton = c.skeleton) := by
  have hlength : c.normal.rows.length = c.rows.length := by
    show (Arc.normalRows c.entities c.rows).length = _
    rw [Arc.normalRows_eq, List.length_map]
  exact ⟨c.names_normal, hlength, c.arcCount_normal, rfl, Arc.normalRows_eq_copies c.entities,
    fun a _ => Arc.rows_normal c.entities a, Chart.skeleton_normal⟩

/-- A chart whose only arc with the target `*` leaves it when it is read from left to right. -/
def answered : Chart :=
  { entities := [{ name := "a" }, { name := "b" }]
    rows := [[{ kind := "loop", source := "a", target := "b",
                rows := some [[{ kind := "<-", source := "a", target := "*" }], []] },
              { kind := "note", source := "b", target := "a" }]] }

theorem answered_keeps_shape : (∀ a ∈ answered.everyArc, a.toEveryone = false) ∧
    answered.normal.skeleton = answered.skeleton := by
  have hone : ∀ a ∈ answered.everyArc, a.toEveryone = false := by decide
  exact ⟨hone, (normal_accounts_for_arcs answered).2.2.2.2.2.2 hone⟩

end SequenceChart
