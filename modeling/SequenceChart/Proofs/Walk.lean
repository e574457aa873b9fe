import SequenceChart.Chart.Basic

/-!
# Walking through a chart

Drawing, checking and counting go through the arcs of a chart in one order: row by row, and a
container before what it holds. This file fixes that order once, without a counter and without a
way to leave an arc out:

* `Arc.inside` are the arcs in the rows of an arc, row by row;
* `Placed` is an arc together with the containers around it, and `Chart.placed` lists all arcs of
  a chart in the order of the walk;
* `Chart.standing f q` keeps those arcs that pass the test `f` and stand only in containers that pass
  the test `q`. `standing_eq` says that this is the walk that does not enter what fails `q`;
* `Chart.reached q` are the arcs of this walk that pass `q` themselves, and `Chart.drawn` those
  reached through well-formed arcs alone.
-/

namespace SequenceChart

/-! ## 1. One level down -/

/-- The arcs directly in the rows of an arc, row by row. -/
def Arc.inside (a : Arc) : List Arc :=
  (a.rows.getD []).flatten

/-- Functions that agree on the items of a list put the same lists in their place. -/
theorem flatMap_congr_of_mem {α β : Type} {f g : α → List β} {l : List α}
    (h : ∀ x ∈ l, f x = g x) : l.flatMap f = l.flatMap g := by
  rw [List.flatMap_def, List.flatMap_def, List.map_congr_left h]

/-- What is put together row by row, and in a row arc by arc, is put together arc by arc. -/
theorem rows_eq_flatMap {β : Type} {ofArc : Arc → List β} (ofRow : Row → List β)
    {ofRows : List Row → List β} (hempty : ofRow [] = [])
    (harc : ∀ a row, ofRow (a :: row) = ofArc a ++ ofRow row) (hnone : ofRows [] = [])
    (hrow : ∀ row rows, ofRows (row :: rows) = ofRow row ++ ofRows rows) (rows : List Row) :
    ofRows rows = rows.flatten.flatMap ofArc := by
  have hflat : ∀ row : Row, ofRow row = row.flatMap ofArc := by
    intro row
    induction row with
    | nil => exact hempty
    | cons a row ih => rw [harc, ih, List.flatMap_cons]
  induction rows with
  | nil => exact hnone
  | cons row rows ih => rw [hrow, ih, hflat, List.flatten_cons, List.flatMap_append]

/-- Induction over nested rows, with the rows of an arc laid end to end. -/
theorem Arc.inside_induct {P : Arc → Prop} (step : ∀ a : Arc, (∀ b ∈ a.inside, P b) → P a) :
    ∀ a, P a := by
  intro a
  induction a using Arc.induct with
  | step a ih =>
    refine step a fun b hb => ?_
    unfold Arc.inside at hb
    obtain ⟨row, hrow, hb⟩ := List.mem_flatten.mp hb
    cases hr : a.rows with
    | none => rw [hr] at hrow; cases hrow
    | some rows =>
      rw [hr] at hrow
      exact ih rows hr row hrow b hb

/-! ## 2. All arcs with their surroundings -/

/-- An arc and the containers around it, innermost first. -/
structure Placed where
  arc : Arc
  around : List Arc

/-- The arc and all containers around it pass a test. -/
def Placed.all (q : Arc → Bool) (p : Placed) : Bool :=
  q p.arc && p.around.all q

mutual

/-- The arc and everything nested in it, in the order of the walk. -/
def Arc.placed (around : List Arc) : Arc → List Placed
  | ⟨k, s, t, l, p, none⟩ => [⟨⟨k, s, t, l, p, none⟩, around⟩]
  | ⟨k, s, t, l, p, some rows⟩ =>
    ⟨⟨k, s, t, l, p, some rows⟩, around⟩ ::
      Arc.rowsPlaced (⟨k, s, t, l, p, some rows⟩ :: around) rows

/-- All arcs of rows inside the given containers. -/
def Arc.rowsPlaced (around : List Arc) : List Row → List Placed
  | [] => []
  | row :: rows => Arc.rowPlaced around row ++ Arc.rowsPlaced around rows

/-- All arcs of a row inside the given containers. -/
def Arc.rowPlaced (around : List Arc) : Row → List Placed
  | [] => []
  | a :: row => Arc.placed around a ++ Arc.rowPlaced around row

end

/-- **All arcs of a chart**, at every depth, each with the containers around it. -/
def Chart.placed (c : Chart) : List Placed :=
  Arc.rowsPlaced [] c.rows

/-- All arcs of a chart, at every depth. -/
def Chart.everyArc (c : Chart) : List Arc :=
  c.placed.map (·.arc)

theorem Arc.rowsPlaced_eq (around : List Arc) (rows : List Row) :
    Arc.rowsPlaced around rows = rows.flatten.flatMap (Arc.placed around) :=
  rows_eq_flatMap (Arc.rowPlaced around) rfl (fun _ _ => rfl) rfl (fun _ _ => rfl) rows

/-- An arc comes before what it holds. -/
theorem Arc.placed_eq (around : List Arc) (a : Arc) :
    a.placed around = ⟨a, around⟩ :: a.inside.flatMap (Arc.placed (a :: around)) := by
  rcases a with ⟨k, s, t, l, p, _ | rows⟩
  · rfl
  · rw [Arc.placed, Arc.rowsPlaced_eq]
    rfl

/-- Whatever stands around an arc of the walk is on the walk itself, or stands around all of it. -/
theorem Arc.around_placed (a : Arc) : ∀ (around : List Arc), ∀ p ∈ a.placed around,
    ∀ b ∈ p.around, b ∈ around ∨ ∃ p' ∈ a.placed around, p'.arc = b := by
  induction a using Arc.inside_induct with
  | step a ih =>
    intro around p hp b hb
    rw [Arc.placed_eq] at hp ⊢
    rcases List.mem_cons.mp hp with rfl | hp
    · exact Or.inl hb
    · obtain ⟨x, hx, hp⟩ := List.mem_flatMap.mp hp
      rcases ih x hx (a :: around) p hp b hb with h | ⟨p', hp', rfl⟩
      · rcases List.mem_cons.mp h with rfl | h
        · exact Or.inr ⟨_, List.mem_cons_self, rfl⟩
        · exact Or.inl h
      · exact Or.inr ⟨p', List.mem_cons_of_mem _ (List.mem_flatMap.mpr ⟨x, hx, hp'⟩), rfl⟩

/-! ## 3. Counting -/

theorem Arc.countRow_eq (around : List Arc) : ∀ row : Row,
    (∀ a ∈ row, a.count = (a.placed around).length) →
    Arc.countRow row = (row.flatMap (Arc.placed around)).length
  | [], _ => rfl
  | a :: row, h => by
      rw [Arc.countRow, h a List.mem_cons_self,
        Arc.countRow_eq around row fun b hb => h b (List.mem_cons_of_mem _ hb),
        List.flatMap_cons, List.length_append]

theorem Arc.countRows_eq (around : List Arc) : ∀ rows : List Row,
    (∀ a ∈ rows.flatten, a.count = (a.placed around).length) →
    Arc.countRows rows = (rows.flatten.flatMap (Arc.placed around)).length
  | [], _ => rfl
  | row :: rows, h => by
      have hrow : ∀ a ∈ row, a.count = (a.placed around).length :=
        fun a ha => h a (List.mem_flatten.mpr ⟨row, List.mem_cons_self, ha⟩)
      have hrows : ∀ a ∈ rows.flatten, a.count = (a.placed around).length := by
        intro a ha
        rw [List.flatten_cons] at h
        exact h a (List.mem_append_right _ ha)
      rw [Arc.countRows, Arc.countRow_eq around row hrow, Arc.countRows_eq around rows hrows,
        List.flatten_cons, List.flatMap_append, List.length_append]

/-- The count of an arc is the length of the walk through it. -/
theorem Arc.count_eq_length (a : Arc) : ∀ around, a.count = (a.placed around).length := by
  induction a using Arc.inside_induct with
  | step a ih =>
    intro around
    rw [Arc.count_eq, Arc.placed_eq, List.length_cons,
      Arc.countRows_eq (a :: around) _ fun b hb => ih b hb (a :: around), Nat.add_comm]
    rfl

theorem Chart.arcCount_eq_length (c : Chart) : c.arcCount = c.placed.length := by
  rw [Chart.arcCount, Chart.placed, Arc.rowsPlaced_eq]
  exact Arc.countRows_eq [] c.rows fun a _ => a.count_eq_length []

/-! ## 4. Walks that do not enter every arc -/

/-- The arc passes the test `f`, and all containers around it pass the test `q`. -/
def Placed.standing (f q : Arc → Bool) (p : Placed) : Bool :=
  f p.arc && p.around.all q

/-- The arcs that pass the test `f` and stand only in containers that pass the test `q`, out of an
    arc and what is nested in it. -/
def Arc.standing (f q : Arc → Bool) (a : Arc) : List Arc :=
  ((a.placed []).filter (·.standing f q)).map (·.arc)

/-- The arcs of a chart that pass the test `f` and stand only in containers that pass the test
    `q`. -/
def Chart.standing (f q : Arc → Bool) (c : Chart) : List Arc :=
  (c.placed.filter (·.standing f q)).map (·.arc)

/-- The arcs reached through arcs that pass a test, the arc itself first. -/
def Arc.reached (q : Arc → Bool) (a : Arc) : List Arc :=
  ((a.placed []).filter (·.all q)).map (·.arc)

/-- The arcs of a chart that pass a test and stand only in containers that pass it. -/
def Chart.reached (q : Arc → Bool) (c : Chart) : List Arc :=
  (c.placed.filter (·.all q)).map (·.arc)

/-- **The arcs that are drawn**: well formed, and only in well-formed containers. -/
def Chart.drawn (c : Chart) : List Arc :=
  c.reached Arc.wellFormed

variable (f q : Arc → Bool)

/-- No arc stands only in containers that pass the test if one around them all fails it. -/
theorem Arc.filter_placed_of_fail (a : Arc) : ∀ around : List Arc, around.all q = false →
    (a.placed around).filter (·.standing f q) = [] := by
  induction a using Arc.inside_induct with
  | step a ih =>
    intro around h
    have hself : ¬ (Placed.mk a around).standing f q = true := by
      show ¬ (f a && around.all q) = true
      rw [h, Bool.and_false]
      decide
    rw [Arc.placed_eq, List.filter_cons_of_neg hself, List.filter_flatMap]
    refine List.flatMap_eq_nil_iff.mpr fun b hb => ih b hb (a :: around) ?_
    rw [List.all_cons, h, Bool.and_false]

/-- Where an arc stands depends on the containers around all of the walk only through their passing
    the test. -/
theorem Arc.map_filter_placed (a : Arc) : ∀ around : List Arc, around.all q = true →
    ((a.placed around).filter (·.standing f q)).map (·.arc) =
      (if f a then [a] else []) ++ if q a then a.inside.flatMap (Arc.standing f q) else [] := by
  induction a using Arc.inside_induct with
  | step a ih =>
    intro around h
    have hall : (a :: around).all q = q a := by rw [List.all_cons, h, Bool.and_true]
    have hself : (Placed.mk a around).standing f q = f a := by
      show (f a && around.all q) = f a
      rw [h, Bool.and_true]
    have hnested : ((a.inside.flatMap (Arc.placed (a :: around))).filter
        (·.standing f q)).map (·.arc) =
          if q a then a.inside.flatMap (Arc.standing f q) else [] := by
      rw [List.filter_flatMap, List.map_flatMap]
      by_cases ha : q a = true
      · rw [if_pos ha]
        refine flatMap_congr_of_mem fun b hb => ?_
        exact (ih b hb (a :: around) (hall.trans ha)).trans (ih b hb [] rfl).symm
      · have hfail : q a = false := by simpa using ha
        rw [if_neg ha]
        refine List.flatMap_eq_nil_iff.mpr fun b _ => ?_
        rw [Arc.filter_placed_of_fail f q b (a :: around) (hall.trans hfail)]
        rfl
    rw [Arc.placed_eq, List.filter_cons, hself, ← hnested]
    split <;> rfl

/-- **The walk through the containers that pass a test.** An arc that fails it is not entered. -/
theorem Arc.standing_eq (a : Arc) : a.standing f q =
    (if f a then [a] else []) ++ if q a then a.inside.flatMap (Arc.standing f q) else [] :=
  Arc.map_filter_placed f q a [] rfl

theorem Chart.standing_eq (c : Chart) :
    c.standing f q = c.rows.flatten.flatMap (Arc.standing f q) := by
  rw [Chart.standing, Chart.placed, Arc.rowsPlaced_eq, List.filter_flatMap, List.map_flatMap]
  rfl

/-- A second test of the arcs may be made together with the first. -/
theorem Chart.filter_standing (g : Arc → Bool) (c : Chart) :
    (c.standing f q).filter g = c.standing (fun a => g a && f a) q := by
  unfold Chart.standing
  rw [List.filter_map, List.filter_filter]
  refine congrArg _ (List.filter_congr fun p _ => ?_)
  exact (Bool.and_assoc _ _ _).symm

/-- **The walk does not enter an arc that fails the test.** -/
theorem Arc.reached_eq (a : Arc) :
    a.reached q = if q a then a :: a.inside.flatMap (Arc.reached q) else [] := by
  have hself : a.reached q = a.standing q q := rfl
  rw [hself, Arc.standing_eq]
  by_cases h : q a = true
  · rw [if_pos h, if_pos h, if_pos h]
    rfl
  · rw [if_neg h, if_neg h, if_neg h]
    rfl

theorem Arc.reached_of_pass {a : Arc} (h : q a = true) :
    a.reached q = a :: a.inside.flatMap (Arc.reached q) := by
  rw [Arc.reached_eq, if_pos h]

theorem Arc.reached_of_fail {a : Arc} (h : ¬ q a = true) : a.reached q = [] := by
  rw [Arc.reached_eq, if_neg h]

theorem Chart.reached_eq (c : Chart) : c.reached q = c.rows.flatten.flatMap (Arc.reached q) :=
  c.standing_eq q q

/-! ## 5. The walk through all arcs -/

/-- The arc and everything nested in it, in the order of the walk. -/
def Arc.everyArc (a : Arc) : List Arc :=
  a.reached fun _ => true

theorem Arc.everyArc_eq (a : Arc) : a.everyArc = a :: a.inside.flatMap Arc.everyArc :=
  Arc.reached_of_pass (fun _ => true) rfl

/-- All arcs of a chart are those of its rows, one arc after the other. -/
theorem Chart.everyArc_eq (c : Chart) : c.everyArc = c.rows.flatten.flatMap Arc.everyArc := by
  have hall : c.placed.filter (·.all fun _ => true) = c.placed := by
    refine List.filter_eq_self.mpr fun p _ => ?_
    show (true && p.around.all fun _ => true) = true
    rw [Bool.true_and, List.all_eq_true]
    exact fun _ _ => rfl
  have hreached : c.everyArc = c.reached fun _ => true := by
    rw [Chart.reached, hall]
    rfl
  rw [hreached, Chart.reached_eq]
  rfl

/-- The arcs of a list of rows, at every depth. -/
theorem mem_everyArc_of_rows {rows : List Row} {b : Arc} :
    b ∈ rows.flatten.flatMap Arc.everyArc ↔ ∃ row ∈ rows, ∃ a ∈ row, b ∈ a.everyArc := by
  constructor
  · intro h
    obtain ⟨a, ha, hb⟩ := List.mem_flatMap.mp h
    obtain ⟨row, hrow, ha⟩ := List.mem_flatten.mp ha
    exact ⟨row, hrow, a, ha, hb⟩
  · rintro ⟨row, hrow, a, ha, hb⟩
    exact List.mem_flatMap.mpr ⟨a, List.mem_flatten.mpr ⟨row, hrow, ha⟩, hb⟩

/-- An arc of a container is the container itself or stands in one of its rows. -/
theorem Arc.mem_everyArc {a b : Arc} : b ∈ a.everyArc ↔
    b = a ∨ ∃ rows, a.rows = some rows ∧ ∃ row ∈ rows, ∃ x ∈ row, b ∈ x.everyArc := by
  rw [Arc.everyArc_eq, List.mem_cons, Arc.inside, mem_everyArc_of_rows]
  cases a.rows with
  | none => simp
  | some rows => simp

/-! ## 6. How many arcs are drawn -/

theorem Chart.length_drawn_le (c : Chart) : c.drawn.length ≤ c.arcCount := by
  rw [Chart.arcCount_eq_length, Chart.drawn, Chart.reached, List.length_map]
  exact List.length_filter_le _ _

/-- Containers of a chart are arcs of the chart. -/
theorem Chart.around_mem_everyArc (c : Chart) {p : Placed} (hp : p ∈ c.placed) {b : Arc}
    (hb : b ∈ p.around) : b ∈ c.everyArc := by
  unfold Chart.placed at hp
  rw [Arc.rowsPlaced_eq] at hp
  obtain ⟨a, ha, hp⟩ := List.mem_flatMap.mp hp
  rcases Arc.around_placed a [] p hp b hb with h | ⟨p', hp', rfl⟩
  · exact absurd h List.not_mem_nil
  · refine List.mem_map.mpr ⟨p', ?_, rfl⟩
    unfold Chart.placed
    rw [Arc.rowsPlaced_eq]
    exact List.mem_flatMap.mpr ⟨a, ha, hp'⟩

/-- **All arcs are drawn exactly when none is malformed**, at any depth. -/
theorem Chart.length_drawn_eq_iff (c : Chart) :
    c.drawn.length = c.arcCount ↔ ∀ a ∈ c.everyArc, a.wellFormed = true := by
  rw [Chart.arcCount_eq_length, Chart.drawn, Chart.reached, List.length_map,
    List.length_filter_eq_length_iff]
  constructor
  · intro h a ha
    obtain ⟨p, hp, rfl⟩ := List.mem_map.mp ha
    have := h p hp
    rw [Placed.all, Bool.and_eq_true] at this
    exact this.1
  · intro h p hp
    have hself := h p.arc (List.mem_map_of_mem hp)
    have haround : p.around.all Arc.wellFormed = true :=
      List.all_eq_true.mpr fun b hb => h b (c.around_mem_everyArc hp hb)
    rw [Placed.all, hself, haround]
    rfl

end SequenceChart
