import SequenceChart.Proofs.Copies
import SequenceChart.Proofs.Refusal
import SequenceChart.Render.Trace

/-!
# What a rendering reports

The events of a rendering come from two walks: through the chart as it was written, for the arcs to
everyone, and through its normal form, for the arcs that are left out and those of an unknown kind.
This file compares them with the arcs themselves.

* `Event.exploding?` and its companions read one kind of event off a trace;
* `Chart.explosions_perm` says that every arc to everyone is reported once, however often the
  containers around it are copied;
* `Chart.met` are the arcs that drawing comes to. `Chart.remarks_eq` says that each of them makes its
  own remarks, in the order of the walk; those that are not drawn are `Chart.skipped`;
* `Chart.arcCount_eq_drawn_add` says that every arc is drawn or stands in exactly one of these;
* `Chart.trace_lenient` says that nothing is missing where nothing is refused;
* `Chart.render_of_kinds` compares the check with the remarks on unknown kinds.
-/

namespace SequenceChart

/-! ## 1. Events of one kind -/

/-- The kind and the source of an arc to everyone. -/
def Event.exploding? : Event → Option (String × String)
  | .exploding kind source => some (kind, source)
  | _ => none

/-- The number of arcs that drawing starts with. -/
def Event.arcs? : Event → Option Nat
  | .rendering _ _ arcs => some arcs
  | _ => none

/-- The kind, the source and the target of an arc that is left out. -/
def Event.malformed? : Event → Option (String × String × String)
  | .malformed kind source target => some (kind, source, target)
  | _ => none

/-- The kind of an arc that is drawn without a style. -/
def Event.unknownKind? : Event → Option String
  | .unknownKind kind => some kind
  | _ => none

/-- The number that was given out last. -/
def Event.numbered? : Event → Option Nat
  | .rendered numbered _ => some numbered
  | _ => none

/-- What each item that passes a test adds to a list, and no other item does. -/
theorem flatMap_if_eq_map_filter {α β : Type} (p : α → Bool) (f : α → β) (l : List α) :
    (l.flatMap fun x => if p x then [f x] else []) = (l.filter p).map f := by
  induction l with
  | nil => rfl
  | cons x l ih =>
    rw [List.flatMap_cons, ih, List.filter_cons]
    split <;> rfl

/-! ## 2. Arcs to everyone -/

/-- An arc to everyone is reported as it reads from left to right. -/
def Arc.explosion (a : Arc) : Event :=
  .exploding a.forward.kind a.forward.source

theorem Arc.rowsExplosions_eq (rows : List Row) :
    Arc.rowsExplosions rows = rows.flatten.flatMap Arc.explosions :=
  rows_eq_flatMap Arc.rowExplosions rfl (fun _ _ => rfl) rfl (fun _ _ => rfl) rows

/-- Nested rows play no part in the report on an arc itself. -/
theorem Arc.ownExplosion_withRows (a : Arc) (rows : Option (List Row)) :
    Arc.ownExplosion { a with rows := rows } = a.ownExplosion := by
  unfold Arc.ownExplosion
  rw [Arc.forward_withRows]
  rfl

/-- The arcs in the rows are reported before the arc. -/
theorem Arc.explosions_eq (a : Arc) :
    a.explosions = a.inside.flatMap Arc.explosions ++ a.ownExplosion := by
  obtain ⟨k, s, t, l, p, rows⟩ := a
  cases rows with
  | none => rfl
  | some rows =>
    rw [Arc.explosions, Arc.rowsExplosions_eq,
      ← Arc.ownExplosion_withRows ⟨k, s, t, l, p, none⟩ (some rows)]
    rfl

/-- **Every arc is reported once if it goes to everyone**, and else not at all. -/
theorem Arc.explosions_perm (a : Arc) :
    a.explosions.Perm ((a.everyArc.filter Arc.toEveryone).map Arc.explosion) := by
  rw [← flatMap_if_eq_map_filter]
  show a.explosions.Perm (a.everyArc.flatMap Arc.ownExplosion)
  induction a using Arc.inside_induct with
  | step a ih =>
    rw [Arc.explosions_eq, Arc.everyArc_eq, List.flatMap_cons, List.flatMap_assoc]
    exact List.perm_append_comm.trans ((List.Perm.flatMap_left a.inside ih).append_left _)

theorem Chart.explosions_perm (c : Chart) : (Arc.rowsExplosions c.rows).Perm
    ((c.everyArc.filter Arc.toEveryone).map Arc.explosion) := by
  rw [Arc.rowsExplosions_eq, Chart.everyArc_eq, List.filter_flatMap, List.map_flatMap]
  exact List.Perm.flatMap_left _ fun a _ => a.explosions_perm

/-! ## 3. Arcs that drawing comes to -/

/-- **The arcs that drawing comes to**, well formed or not: those in well-formed containers only. -/
def Chart.met (c : Chart) : List Arc :=
  c.standing (fun _ => true) Arc.wellFormed

/-- **The arcs that are left out**: malformed, and in well-formed containers only. -/
def Chart.skipped (c : Chart) : List Arc :=
  c.standing (fun a => !a.wellFormed) Arc.wellFormed

/-- The arcs that are left out of an arc, which can be the arc itself. -/
def Arc.skipped (a : Arc) : List Arc :=
  a.standing (fun b => !b.wellFormed) Arc.wellFormed

/-- The kinds of the drawn arcs that are not in the vocabulary, in the order of drawing. -/
def Chart.unknownKinds (c : Chart) : List String :=
  (c.drawn.filter fun a => Category.ofKind a.kind = .unknown).map Arc.kind

/-- What is reported of an arc that drawing comes to, its nested rows left out. -/
def Arc.remark (a : Arc) : List Event :=
  if a.wellFormed then a.ownRemark else [.malformed a.kind a.source a.target]

theorem Arc.rowsRemarks_eq (rows : List Row) :
    Arc.rowsRemarks rows = rows.flatten.flatMap Arc.remarks :=
  rows_eq_flatMap Arc.rowRemarks rfl (fun _ _ => rfl) rfl (fun _ _ => rfl) rows

/-- The arc is reported before the arcs in its rows, and they are not if it is malformed. -/
theorem Arc.remarks_eq (a : Arc) :
    a.remarks = a.remark ++ if a.wellFormed then a.inside.flatMap Arc.remarks else [] := by
  obtain ⟨k, s, t, l, p, rows⟩ := a
  -- the tests do not look at the rows, so they may be made with them or without
  have hsame : (Arc.mk k s t l p rows).wellFormed = (Arc.mk k s t l p none).wellFormed := rfl
  have hremark : (Arc.mk k s t l p rows).remark = (Arc.mk k s t l p none).remark := rfl
  rw [hsame, hremark]
  unfold Arc.remark
  cases rows with
  | none =>
    rw [Arc.remarks]
    split <;> exact (List.append_nil _).symm
  | some rows =>
    rw [Arc.remarks, Arc.rowsRemarks_eq]
    split <;> rfl

/-- The arcs that drawing comes to make their remarks one after the other. -/
theorem Arc.remarks_eq_flatMap (a : Arc) :
    a.remarks = (a.standing (fun _ => true) Arc.wellFormed).flatMap Arc.remark := by
  induction a using Arc.inside_induct with
  | step a ih =>
    rw [Arc.remarks_eq, Arc.standing_eq, if_pos rfl, List.flatMap_append, List.flatMap_singleton]
    split
    · rw [List.flatMap_assoc, flatMap_congr_of_mem ih]
    · rfl

/-- **Drawing reports the arcs that it comes to**, in the order of the walk. -/
theorem Chart.remarks_eq (c : Chart) : Arc.rowsRemarks c.rows = c.met.flatMap Arc.remark := by
  rw [Arc.rowsRemarks_eq, Chart.met, Chart.standing_eq, List.flatMap_assoc]
  exact flatMap_congr_of_mem fun a _ => a.remarks_eq_flatMap

theorem Chart.filter_met_wellFormed (c : Chart) : c.met.filter Arc.wellFormed = c.drawn := by
  rw [Chart.met, Chart.filter_standing]
  simp only [Bool.and_true]
  rfl

theorem Chart.filter_met_malformed (c : Chart) :
    c.met.filter (fun a => !a.wellFormed) = c.skipped := by
  rw [Chart.met, Chart.filter_standing]
  simp only [Bool.and_true]
  rfl

/-! ## 4. Events of one kind in a trace -/

section Reading

variable {β : Type} (read : Event → Option β)

/-- What is not said of an arc to everyone is not read off their reports. -/
theorem Chart.filterMap_explosions (c : Chart)
    (hnone : ∀ kind source, read (.exploding kind source) = none) :
    (Arc.rowsExplosions c.rows).filterMap read = [] := by
  have hperm := c.explosions_perm.filterMap read
  have hempty : ∀ arcs : List Arc, (arcs.map Arc.explosion).filterMap read = [] := by
    intro arcs
    rw [List.filterMap_map]
    exact List.filterMap_eq_nil_iff.mpr fun a _ => hnone a.forward.kind a.forward.source
  rw [hempty] at hperm
  exact hperm.eq_nil

theorem filterMap_one (e : Event) : [e].filterMap read = (read e).toList := by
  rw [List.filterMap_cons]
  cases read e <;> rfl

/-- What is read off the remark of one arc. -/
theorem Arc.filterMap_remark (a : Arc) : a.remark.filterMap read =
    if a.wellFormed then
      if Category.ofKind a.kind = .unknown then (read (.unknownKind a.kind)).toList else []
    else (read (.malformed a.kind a.source a.target)).toList := by
  unfold Arc.remark Arc.ownRemark
  split
  · split
    · exact filterMap_one read _
    · rfl
  · exact filterMap_one read _

/-- What is read off the remarks of the arcs that drawing comes to. -/
theorem Chart.filterMap_remarks (c : Chart) :
    (Arc.rowsRemarks c.rows).filterMap read = c.met.flatMap fun a => a.remark.filterMap read := by
  rw [Chart.remarks_eq, List.filterMap_flatMap]

theorem Chart.filterMap_malformed (c : Chart) :
    (Arc.rowsRemarks c.rows).filterMap Event.malformed? =
      c.skipped.map fun a => (a.kind, a.source, a.target) := by
  rw [Chart.filterMap_remarks, ← Chart.filter_met_malformed, ← flatMap_if_eq_map_filter]
  refine flatMap_congr_of_mem fun a _ => ?_
  rw [Arc.filterMap_remark]
  cases a.wellFormed <;> simp [Event.malformed?]

theorem Chart.filterMap_unknownKind (c : Chart) :
    (Arc.rowsRemarks c.rows).filterMap Event.unknownKind? = c.unknownKinds := by
  rw [Chart.filterMap_remarks, Chart.unknownKinds, ← Chart.filter_met_wellFormed,
    List.filter_filter, ← flatMap_if_eq_map_filter]
  refine flatMap_congr_of_mem fun a _ => ?_
  rw [Arc.filterMap_remark]
  cases a.wellFormed <;> simp [Event.unknownKind?]

/-- What is said neither of malformed arcs nor of unknown kinds is not read off any remark. -/
theorem Chart.filterMap_remarks_eq_nil (c : Chart)
    (hmalformed : ∀ kind source target, read (.malformed kind source target) = none)
    (hunknown : ∀ kind, read (.unknownKind kind) = none) :
    (Arc.rowsRemarks c.rows).filterMap read = [] := by
  rw [Chart.filterMap_remarks]
  refine List.flatMap_eq_nil_iff.mpr fun a _ => ?_
  rw [Arc.filterMap_remark, hmalformed, hunknown]
  simp

/-- **What is read off the trace of a rendering that refuses nothing.** -/
theorem Chart.filterMap_lenientTrace (width : Nat) (c : Chart) :
    (c.lenientTrace width).filterMap read =
      (Arc.rowsExplosions c.rows).filterMap read ++
        (read (.rendering c.normal.entities.length c.normal.rows.length
          c.normal.arcCount)).toList ++
        (Arc.rowsRemarks c.normal.rows).filterMap read ++
        (read (.rendered c.normal.drawn.length
          (c.normal.graph width).print.utf8ByteSize)).toList := by
  unfold Chart.lenientTrace Chart.drawingTrace
  rw [Chart.lastNumber_eq, ← List.singleton_append, List.filterMap_append, List.filterMap_append,
    List.filterMap_append, filterMap_one, filterMap_one, List.append_assoc, List.append_assoc]

variable (width : Nat) (c : Chart)

/-- The arcs to everyone are reported once each. -/
theorem Chart.exploding_lenientTrace : ((c.lenientTrace width).filterMap Event.exploding?).Perm
    ((c.everyArc.filter Arc.toEveryone).map fun a => (a.forward.kind, a.forward.source)) := by
  have hperm := c.explosions_perm.filterMap Event.exploding?
  have hread : ∀ arcs : List Arc, (arcs.map Arc.explosion).filterMap Event.exploding? =
      arcs.map fun a => (a.forward.kind, a.forward.source) := by
    intro arcs
    rw [List.filterMap_map]
    exact congrFun List.filterMap_eq_map arcs
  rw [hread] at hperm
  rw [Chart.filterMap_lenientTrace,
    Chart.filterMap_remarks_eq_nil _ c.normal (fun _ _ _ => rfl) fun _ => rfl]
  simpa [Event.exploding?] using hperm

/-- The arcs that are left out are reported in the order of the walk. -/
theorem Chart.malformed_lenientTrace : (c.lenientTrace width).filterMap Event.malformed? =
    c.normal.skipped.map fun a => (a.kind, a.source, a.target) := by
  rw [Chart.filterMap_lenientTrace, Chart.filterMap_malformed,
    Chart.filterMap_explosions _ c fun _ _ => rfl]
  simp [Event.malformed?]

/-- The unknown kinds of the drawn arcs are reported in the order of the walk. -/
theorem Chart.unknownKind_lenientTrace :
    (c.lenientTrace width).filterMap Event.unknownKind? = c.normal.unknownKinds := by
  rw [Chart.filterMap_lenientTrace, Chart.filterMap_unknownKind,
    Chart.filterMap_explosions _ c fun _ _ => rfl]
  simp [Event.unknownKind?]

theorem Chart.arcs_lenientTrace :
    (c.lenientTrace width).filterMap Event.arcs? = [c.normal.arcCount] := by
  rw [Chart.filterMap_lenientTrace, Chart.filterMap_explosions _ c fun _ _ => rfl,
    Chart.filterMap_remarks_eq_nil _ c.normal (fun _ _ _ => rfl) fun _ => rfl]
  rfl

theorem Chart.numbered_lenientTrace :
    (c.lenientTrace width).filterMap Event.numbered? = [c.normal.drawn.length] := by
  rw [Chart.filterMap_lenientTrace, Chart.filterMap_explosions _ c fun _ _ => rfl,
    Chart.filterMap_remarks_eq_nil _ c.normal (fun _ _ _ => rfl) fun _ => rfl]
  rfl

theorem mem_filterMap_unknownKind {kind : String} {trace : List Event} :
    kind ∈ trace.filterMap Event.unknownKind? ↔ .unknownKind kind ∈ trace := by
  rw [List.mem_filterMap]
  constructor
  · intro h
    obtain ⟨e, he, hkind⟩ := h
    cases e with
    | unknownKind k => exact Option.some.inj hkind ▸ he
    | _ => cases hkind
  · intro h
    exact ⟨.unknownKind kind, h, rfl⟩

end Reading

/-! ## 5. Every arc is drawn or left out -/

/-- If this is so of each of some arcs, they are drawn or stand in an arc that is left out. -/
theorem sum_count_eq : ∀ arcs : List Arc,
    (∀ a ∈ arcs, a.count = a.drawnCount + (a.skipped.map Arc.count).sum) →
    (arcs.map Arc.count).sum =
      drawnAmong arcs + ((arcs.flatMap Arc.skipped).map Arc.count).sum
  | [], _ => rfl
  | a :: arcs, h => by
      have ih := sum_count_eq arcs fun b hb => h b (List.mem_cons_of_mem a hb)
      rw [List.map_cons, List.sum_cons, h a List.mem_cons_self, ih, drawnAmong_cons,
        List.flatMap_cons, List.map_append, List.sum_append]
      omega

theorem countRows_eq_sum (rows : List Row) :
    Arc.countRows rows = (rows.flatten.map Arc.count).sum := by
  induction rows with
  | nil => rfl
  | cons row rows ih =>
    rw [Arc.countRows, ih, countRow_eq_sum, List.flatten_cons, List.map_append, List.sum_append]

/-- The arcs of an arc are drawn, or they stand in an arc that is left out. -/
theorem Arc.count_eq_drawn_add (a : Arc) :
    a.count = a.drawnCount + (a.skipped.map Arc.count).sum := by
  induction a using Arc.inside_induct with
  | step a ih =>
    by_cases h : a.wellFormed = true
    · have hskipped : a.skipped = a.inside.flatMap Arc.skipped := by
        rw [Arc.skipped, Arc.standing_eq, h]
        rfl
      have hinside : Arc.countRows (a.rows.getD []) = (a.inside.map Arc.count).sum :=
        countRows_eq_sum _
      rw [Arc.count_eq, hinside, sum_count_eq a.inside ih, hskipped, Arc.drawnCount_of_wellFormed h]
      omega
    · have hfail : a.wellFormed = false := by simpa using h
      have hself : a.skipped = [a] := by
        rw [Arc.skipped, Arc.standing_eq, hfail]
        rfl
      rw [hself, Arc.drawnCount_of_malformed h]
      simp

/-- **Every arc of a chart is drawn, or it is one of those left out or nested in one of them.** -/
theorem Chart.arcCount_eq_drawn_add (c : Chart) :
    c.arcCount = c.drawn.length + (c.skipped.map Arc.count).sum := by
  have hdrawn : c.drawn.length = drawnAmong c.rows.flatten := by
    rw [Chart.drawn, Chart.reached_eq]
    rfl
  rw [Chart.arcCount, countRows_eq_sum, Chart.skipped, Chart.standing_eq, hdrawn]
  exact sum_count_eq c.rows.flatten fun a _ => a.count_eq_drawn_add

/-! ## 6. Refusing nothing, and refusing unknown kinds -/

/-- Lenient options refuse nothing, so the whole trace is there. -/
theorem Chart.trace_lenient (width : Nat) (c : Chart) :
    c.trace (Options.lenient.withWrapWidth width) = c.lenientTrace width := by
  have hnone : c.normal.violation (Options.lenient.withWrapWidth width) = none := by
    rw [Chart.violation_eq, List.findSome?_eq_none_iff]
    exact fun a _ => rfl
  rw [Chart.trace, hnone]
  rfl

/-- Where only kinds are asked for, the first unknown kind is the first violation. -/
theorem Chart.violation_of_kinds (width : Nat) (c : Chart) :
    c.violation { wrapWidth := width, rejectUnknownKinds := true, validateReferences := false } =
      c.unknownKinds.head?.map .unknownKind := by
  rw [Chart.violation_eq, Chart.unknownKinds]
  induction c.drawn with
  | nil => rfl
  | cons a arcs ih =>
    rw [findSome?_cons_or, ih]
    unfold Arc.ownViolation
    by_cases hkind : Category.ofKind a.kind = .unknown
    · simp [hkind]
    · simp [hkind]

/-- **A chart is refused for its kinds alone exactly when a drawn arc has an unknown kind**, and then
    for the first of them. -/
theorem Chart.render_of_kinds (width : Nat) (c : Chart) (v : Violation) :
    c.render { wrapWidth := width, rejectUnknownKinds := true, validateReferences := false } =
        .error v ↔
      ∃ kind, c.normal.unknownKinds.head? = some kind ∧ v = .unknownKind kind := by
  unfold Chart.render
  rw [Chart.violation_of_kinds]
  cases c.normal.unknownKinds.head? with
  | none => simp
  | some kind => simp [eq_comm]

/-! ## 7. The whole account -/

/-- **The trace of a rendering that refuses nothing accounts for every arc.** There is a report for
    each arc to everyone, at any depth, and no other: as many as there are such arcs in the chart as
    it was written, whatever becomes of the containers around them. The arcs that drawing starts
    with are those that are numbered and those that are reported as left out, these with all that
    is nested in them. The unknown kinds are those of the numbered arcs, in their order; so a
    chart is refused for its kinds alone exactly when one is reported, and then for the first. -/
theorem trace_accounts_for_arcs (width : Nat) (c : Chart) :
    let trace := c.trace (Options.lenient.withWrapWidth width)
    let d := c.normal
    (trace.filterMap Event.exploding?).length =
        (c.everyArc.filter fun a => a.forward.target = "*").length ∧
      (trace.filterMap Event.exploding?).Perm
        ((c.everyArc.filter fun a => a.forward.target = "*").map fun a =>
          (a.forward.kind, a.forward.source)) ∧
      trace.filterMap Event.malformed? = d.skipped.map (fun a => (a.kind, a.source, a.target)) ∧
      (∃ arcs numbered, trace.filterMap Event.arcs? = [arcs] ∧
        trace.filterMap Event.numbered? = [numbered] ∧ numbered = d.drawn.length ∧
        arcs = numbered + (d.skipped.map Arc.count).sum) ∧
      trace.filterMap Event.unknownKind? =
        (d.drawn.filter fun a => Category.ofKind a.kind = .unknown).map Arc.kind ∧
      ∀ w, let o : Options :=
          { wrapWidth := w, rejectUnknownKinds := true, validateReferences := false }
        ((∃ v, c.render o = .error v) ↔ ∃ kind, .unknownKind kind ∈ trace) ∧
          ∀ v, c.render o = .error v ↔
            ∃ kind, (trace.filterMap Event.unknownKind?).head? = some kind ∧
              v = .unknownKind kind := by
  intro trace d
  have htrace : trace = c.lenientTrace width := c.trace_lenient width
  have hsame : (c.everyArc.filter fun a => a.forward.target = "*") =
      c.everyArc.filter Arc.toEveryone :=
    List.filter_congr fun a _ => (beq_eq_decide a.forward.target "*").symm
  have hexploding := c.exploding_lenientTrace width
  have hunknown := c.unknownKind_lenientTrace width
  rw [hsame, htrace]
  refine ⟨?_, hexploding, c.malformed_lenientTrace width, ?_, hunknown, fun w => ⟨?_, fun v => ?_⟩⟩
  · rw [hexploding.length_eq, List.length_map]
  · exact ⟨_, _, c.arcs_lenientTrace width, c.numbered_lenientTrace width, rfl,
      d.arcCount_eq_drawn_add⟩
  · simp only [Chart.render_of_kinds, ← hunknown, ← mem_filterMap_unknownKind]
    cases (c.lenientTrace width).filterMap Event.unknownKind? with
    | nil => simp
    | cons kind kinds => simp
  · rw [Chart.render_of_kinds, hunknown]

end SequenceChart
