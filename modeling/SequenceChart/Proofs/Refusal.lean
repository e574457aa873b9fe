import SequenceChart.Proofs.Rendering

/-!
# Which charts are refused

The options may ask that every kind is known and every end declared. The check walks the chart for
itself; this file says that it asks exactly the arcs that are drawn, in the order of their numbers.

* `Arc.Offends` is what an arc can be refused for, and `Arc.Reports` what is said of it;
* `violation_eq` and its companions compare the check with the walk of `Walk.lean`;
* the last section speaks of whole charts. Where references are asked for, it says of the text
  itself, as the reader finds it, that every end of an edge or of a box is one of its nodes.
-/

namespace SequenceChart

open SequenceChart.Dot

/-! ## 1. What an arc is refused for -/

/-- The chart has an entity of this name. -/
def Chart.Declared (c : Chart) (name : String) : Prop :=
  ∃ e ∈ c.entities, e.name = name

/-- Kinds are asked for, and the kind of the arc is not in the vocabulary. -/
def Arc.KindOffends (o : Options) (a : Arc) : Prop :=
  o.rejectUnknownKinds = true ∧ Category.ofKind a.kind = .unknown

/-- Ends are asked for, and this end is not declared. -/
def EndOffends (o : Options) (c : Chart) (name : String) : Prop :=
  o.validateReferences = true ∧ ¬ c.Declared name

/-- **There is something to refuse an arc for**, what is nested in it left out. -/
def Arc.Offends (o : Options) (c : Chart) (a : Arc) : Prop :=
  a.KindOffends o ∨ EndOffends o c a.source ∨ EndOffends o c a.target

/-- **What is said of an arc that is refused**: its kind before its source, its source before its
    target. -/
inductive Arc.Reports (o : Options) (c : Chart) (a : Arc) : Violation → Prop where
  | kind (h : a.KindOffends o) : Arc.Reports o c a (.unknownKind a.kind)
  | source (hkind : ¬ a.KindOffends o) (h : EndOffends o c a.source) :
      Arc.Reports o c a (.undeclared a.kind a.source)
  | target (hkind : ¬ a.KindOffends o) (hsource : ¬ EndOffends o c a.source)
      (h : EndOffends o c a.target) : Arc.Reports o c a (.undeclared a.kind a.target)

theorem Chart.declares_iff (c : Chart) (name : String) :
    c.declares name = true ↔ c.Declared name := by
  unfold Chart.declares Chart.Declared
  simp only [List.any_eq_true, beq_iff_eq]

theorem kindTest_iff (o : Options) (a : Arc) :
    (o.rejectUnknownKinds && Category.ofKind a.kind = .unknown) = true ↔ a.KindOffends o := by
  rw [Bool.and_eq_true, decide_eq_true_eq]
  rfl

theorem endTest_iff (o : Options) (c : Chart) (name : String) :
    (o.validateReferences && !c.declares name) = true ↔ EndOffends o c name := by
  unfold EndOffends
  rw [Bool.and_eq_true, ← Chart.declares_iff, Bool.not_eq_true', Bool.not_eq_true]

/-- The check of one arc says what is to be said of it. -/
theorem Arc.ownViolation_eq_some_iff (o : Options) (c : Chart) (a : Arc) (v : Violation) :
    a.ownViolation o c.declares = some v ↔ a.Reports o c v := by
  have hkindIff := kindTest_iff o a
  have hsourceIff := endTest_iff o c a.source
  have htargetIff := endTest_iff o c a.target
  unfold Arc.ownViolation
  constructor
  · intro h
    split at h
    · rename_i hkind
      cases h
      exact .kind (hkindIff.mp hkind)
    · rename_i hkind
      split at h
      · rename_i hsource
        cases h
        exact .source (fun e => hkind (hkindIff.mpr e)) (hsourceIff.mp hsource)
      · rename_i hsource
        split at h
        · rename_i htarget
          cases h
          exact .target (fun e => hkind (hkindIff.mpr e)) (fun e => hsource (hsourceIff.mpr e))
            (htargetIff.mp htarget)
        · cases h
  · intro h
    cases h with
    | kind h => rw [if_pos (hkindIff.mpr h)]
    | source hkind h =>
      rw [if_neg fun e => hkind (hkindIff.mp e), if_pos (hsourceIff.mpr h)]
    | target hkind hsource h =>
      rw [if_neg fun e => hkind (hkindIff.mp e), if_neg fun e => hsource (hsourceIff.mp e),
        if_pos (htargetIff.mpr h)]

/-- Something is said of an arc exactly when it offends. -/
theorem Arc.exists_reports_iff (o : Options) (c : Chart) (a : Arc) :
    (∃ v, a.Reports o c v) ↔ a.Offends o c := by
  constructor
  · rintro ⟨v, h⟩
    cases h with
    | kind h => exact .inl h
    | source _ h => exact .inr (.inl h)
    | target _ _ h => exact .inr (.inr h)
  · intro h
    by_cases hkind : a.KindOffends o
    · exact ⟨_, .kind hkind⟩
    · by_cases hsource : EndOffends o c a.source
      · exact ⟨_, .source hkind hsource⟩
      · rcases h with h | h | h
        · exact absurd h hkind
        · exact absurd h hsource
        · exact ⟨_, .target hkind hsource h⟩

theorem Arc.ownViolation_eq_none_iff (o : Options) (c : Chart) (a : Arc) :
    a.ownViolation o c.declares = none ↔ ¬ a.Offends o c := by
  rw [Option.eq_none_iff_forall_ne_some, ← Arc.exists_reports_iff, not_exists]
  simp only [ne_eq, Arc.ownViolation_eq_some_iff]

/-! ## 2. The check asks the drawn arcs -/

theorem findSome?_cons_or {α β : Type} (f : α → Option β) (a : α) (l : List α) :
    (a :: l).findSome? f = (f a).or (l.findSome? f) := by
  rw [List.findSome?_cons]
  cases f a <;> rfl

variable (o : Options) (declared : String → Bool)

mutual

/-- **The first violation of an arc is the first among the arcs drawn for it.** -/
theorem Arc.violation_eq : ∀ a : Arc,
    a.violation o declared = (a.reached Arc.wellFormed).findSome? (Arc.ownViolation o declared)
  | ⟨k, s, t, l, p, none⟩ => by
      by_cases h : (Arc.mk k s t l p none).wellFormed = true
      · rw [Arc.violation, Arc.reached_of_pass Arc.wellFormed h, findSome?_cons_or]
        simp only [h, if_true]
        exact Option.or_none.symm
      · rw [Arc.violation, Arc.reached_of_fail Arc.wellFormed h]
        simp only [h]
        rfl
  | ⟨k, s, t, l, p, some rows⟩ => by
      -- neither test looks at the rows, so both may be made with them or without
      have hsame : (Arc.mk k s t l p (some rows)).wellFormed = (Arc.mk k s t l p none).wellFormed :=
        rfl
      have hown : Arc.ownViolation o declared (Arc.mk k s t l p (some rows)) =
          Arc.ownViolation o declared (Arc.mk k s t l p none) := rfl
      by_cases h : (Arc.mk k s t l p none).wellFormed = true
      · have hrows := Arc.rowsViolation_eq rows
        rw [Arc.violation, Arc.reached_of_pass Arc.wellFormed (hsame.trans h), findSome?_cons_or,
          hown]
        simp only [h, if_true]
        rw [hrows]
        rfl
      · rw [Arc.violation, Arc.reached_of_fail Arc.wellFormed fun e => h (hsame.symm.trans e)]
        simp only [h]
        rfl

theorem Arc.rowsViolation_eq : ∀ rows : List Row,
    Arc.rowsViolation o declared rows =
      (rows.flatten.flatMap (Arc.reached Arc.wellFormed)).findSome? (Arc.ownViolation o declared)
  | [] => rfl
  | row :: rows => by
      have hrow := Arc.rowViolation_eq row
      have hrows := Arc.rowsViolation_eq rows
      rw [Arc.rowsViolation, hrow, hrows, List.flatten_cons, List.flatMap_append,
        List.findSome?_append]

theorem Arc.rowViolation_eq : ∀ row : Row,
    Arc.rowViolation o declared row =
      (row.flatMap (Arc.reached Arc.wellFormed)).findSome? (Arc.ownViolation o declared)
  | [] => rfl
  | a :: row => by
      have ha := Arc.violation_eq a
      have hrow := Arc.rowViolation_eq row
      rw [Arc.rowViolation, ha, hrow, List.flatMap_cons, List.findSome?_append]

end

/-- The first violation of a chart is the first among the arcs it draws. -/
theorem Chart.violation_eq (c : Chart) :
    c.violation o = c.drawn.findSome? (Arc.ownViolation o c.declares) := by
  rw [Chart.violation, Arc.rowsViolation_eq, Chart.drawn, Chart.reached_eq]

/-- A chart is let through exactly when no drawn arc offends. -/
theorem Chart.violation_eq_none_iff (c : Chart) :
    c.violation o = none ↔ ∀ a ∈ c.drawn, ¬ a.Offends o c := by
  rw [Chart.violation_eq, List.findSome?_eq_none_iff]
  simp only [Arc.ownViolation_eq_none_iff]

/-- What is said of a chart is said of the first drawn arc that offends. -/
theorem Chart.violation_eq_some_iff (c : Chart) (v : Violation) :
    c.violation o = some v ↔ ∃ before a after, c.drawn = before ++ a :: after ∧
      (∀ b ∈ before, ¬ b.Offends o c) ∧ a.Reports o c v := by
  rw [Chart.violation_eq, List.findSome?_eq_some_iff]
  simp only [Arc.ownViolation_eq_none_iff, Arc.ownViolation_eq_some_iff]
  constructor
  · rintro ⟨before, a, after, hdrawn, hreports, hbefore⟩
    exact ⟨before, a, after, hdrawn, hbefore, hreports⟩
  · rintro ⟨before, a, after, hdrawn, hbefore, hreports⟩
    exact ⟨before, a, after, hdrawn, hreports, hbefore⟩

/-! ## 3. References in the text -/

/-- The figure of an arc ties the two ends of the arc together. -/
theorem Arc.ends_figure (width n : Nat) (a : Arc) :
    (a.figure width n).ends = [a.source, a.target] := by
  unfold Arc.figure
  split <;> rfl

/-- Every name that the graph of a chart ties together is an end of a drawn arc. -/
theorem Chart.ends_graph (width : Nat) (c : Chart) {s : Statement}
    (hs : s ∈ Statement.allInOrder (c.graph width).statements) {name : String}
    (hname : name ∈ s.ends) : ∃ a ∈ c.drawn, name = a.source ∨ name = a.target := by
  rw [Chart.inOrder_graph] at hs
  obtain ⟨p, hp, hs⟩ := List.mem_flatMap.mp hs
  have ha : p.1 ∈ c.drawn := List.fst_mem_of_mem_zipIdx hp
  rcases List.mem_cons.mp hs with rfl | hs
  · rw [Arc.ends_figure] at hname
    rcases List.mem_cons.mp hname with h | h
    · exact ⟨p.1, ha, .inl h⟩
    · exact ⟨p.1, ha, .inr (List.mem_singleton.mp h)⟩
  · split at hs
    · rw [List.mem_singleton] at hs
      rw [hs] at hname
      cases hname
    · cases hs

/-- A declared name is the name of a node. -/
theorem Chart.node_of_declared (width : Nat) {c : Chart} {name : String} (h : c.Declared name) :
    ∃ n ∈ (c.graph width).nodes, n.name = name := by
  obtain ⟨e, he, hname⟩ := h
  exact ⟨e.node width, List.mem_map_of_mem he, hname⟩

theorem Chart.ends_declared {c : Chart} (hrefs : o.validateReferences = true)
    (h : ∀ a ∈ c.drawn, ¬ a.Offends o c) {a : Arc} (ha : a ∈ c.drawn) :
    c.Declared a.source ∧ c.Declared a.target := by
  have hsource : ¬ EndOffends o c a.source := fun e => h a ha (.inr (.inl e))
  have htarget : ¬ EndOffends o c a.target := fun e => h a ha (.inr (.inr e))
  exact ⟨Classical.byContradiction fun e => hsource ⟨hrefs, e⟩,
    Classical.byContradiction fun e => htarget ⟨hrefs, e⟩⟩

/-! ## 4. Whole charts -/

/-- A chart is rendered as a text exactly when no drawn arc of its normal form offends, and the text
    is then the one that is rendered without asking. -/
theorem Chart.render_eq_ok_iff (c : Chart) (text : String) :
    c.render o = .ok text ↔
      (∀ a ∈ c.normal.drawn, ¬ a.Offends o c.normal) ∧ text = c.renderLenient o.wrapWidth := by
  rw [← Chart.violation_eq_none_iff]
  unfold Chart.render
  split
  · rename_i v hv
    rw [hv]
    constructor
    · intro h
      cases h
    · intro h
      cases h.1
  · rename_i hnone
    rw [hnone]
    exact ⟨fun h => ⟨rfl, (Except.ok.inj h).symm⟩, fun h => by rw [h.2]⟩

theorem Chart.render_eq_error_iff (c : Chart) (v : Violation) :
    c.render o = .error v ↔ ∃ before a after, c.normal.drawn = before ++ a :: after ∧
      (∀ b ∈ before, ¬ b.Offends o c.normal) ∧ a.Reports o c.normal v := by
  rw [← Chart.violation_eq_some_iff]
  unfold Chart.render
  split
  · rename_i w hw
    rw [hw]
    exact ⟨fun h => by rw [Except.error.inj h], fun h => by rw [Option.some.inj h]⟩
  · rename_i hnone
    rw [hnone]
    constructor
    · intro h
      cases h
    · intro h
      cases h

/-- Some drawn arc offends exactly when there is a first one, of which something is said. -/
theorem Chart.exists_error_iff (c : Chart) :
    (∃ v, c.render o = .error v) ↔ ∃ a ∈ c.normal.drawn, a.Offends o c.normal := by
  constructor
  · rintro ⟨v, h⟩
    obtain ⟨before, a, after, hdrawn, _, hreports⟩ := (c.render_eq_error_iff o v).mp h
    refine ⟨a, ?_, (a.exists_reports_iff o c.normal).mp ⟨v, hreports⟩⟩
    rw [hdrawn]
    exact List.mem_append_right _ List.mem_cons_self
  · rintro ⟨a, ha, hoffends⟩
    cases hrender : c.render o with
    | error v => exact ⟨v, rfl⟩
    | ok text => exact absurd hoffends (((c.render_eq_ok_iff o text).mp hrender).1 a ha)

/-- **The options refuse a chart exactly for the arcs that are drawn.** There is an error if and
    only if a drawn arc offends, and it is that of the first one in the order in which the rendering
    numbers them; otherwise the text is the lenient one. The text is read back as statements that
    number the same arcs in the same order, and where references are asked for, every end of an edge
    or of a box is a node of the text. -/
theorem render_refuses_first_offence (o : Options) (c : Chart) :
    let d := c.normal
    ((∃ v, c.render o = .error v) ↔ ∃ a ∈ d.drawn, a.Offends o d) ∧
      (∀ v, c.render o = .error v ↔ ∃ before a after, d.drawn = before ++ a :: after ∧
        (∀ b ∈ before, ¬ b.Offends o d) ∧ a.Reports o d v) ∧
      (∀ text, c.render o = .ok text ↔
        (∀ a ∈ d.drawn, ¬ a.Offends o d) ∧ text = c.renderLenient o.wrapWidth) ∧
      ∃ g, Graph.read? (c.renderLenient o.wrapWidth) = some g ∧
        Statement.allInOrder g.statements =
          (d.drawn.zipIdx 1).flatMap (fun p => p.1.figure o.wrapWidth p.2 ::
            if p.1.container then [.cluster p.2 p.1.caption []] else []) ∧
        (o.validateReferences = true → (∃ text, c.render o = .ok text) →
          ∀ s ∈ Statement.allInOrder g.statements, ∀ name ∈ s.ends,
            ∃ n ∈ g.nodes, n.name = name) := by
  intro d
  refine ⟨c.exists_error_iff o, c.render_eq_error_iff o, c.render_eq_ok_iff o,
    d.graph o.wrapWidth, c.read?_graph o.wrapWidth, d.inOrder_graph o.wrapWidth, ?_⟩
  rintro hrefs ⟨text, hok⟩ s hs name hname
  obtain ⟨a, ha, hend⟩ := d.ends_graph o.wrapWidth hs hname
  have hdeclared := Chart.ends_declared o hrefs ((c.render_eq_ok_iff o text).mp hok).1 ha
  rcases hend with rfl | rfl
  · exact Chart.node_of_declared o.wrapWidth hdeclared.1
  · exact Chart.node_of_declared o.wrapWidth hdeclared.2

end SequenceChart
