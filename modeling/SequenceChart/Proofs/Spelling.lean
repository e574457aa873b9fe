import SequenceChart.Proofs.Settling
import SequenceChart.Session

/-!
# Right-to-left and left-to-right spelling

An arc written from right to left says the same as its left-to-right spelling with the ends
exchanged. A chart may use either, and each of its arcs for itself:

* `Chart.respell chosen` spells those arcs from left to right whose places are chosen, at any
  depth, and leaves all others as they are written;
* `Arc.normal_respell` says that the normal form does not see the difference: not the sender that
  decides on the colours, and not whether an arc goes to everyone.
-/

namespace SequenceChart

/-! ## 1. Spelling chosen arcs from left to right -/

/-- The arc read from left to right if it is chosen, and as it is written otherwise. -/
def Arc.forwardIf (chosen : Bool) (a : Arc) : Arc :=
  if chosen then a.forward else a

mutual

/-- The arc with the chosen arcs in it spelled from left to right. Places are counted from the arc
    on, so that its own place is the empty path. -/
def Arc.respell (chosen : Path → Bool) : Arc → Arc
  | ⟨k, s, t, l, p, none⟩ => Arc.forwardIf (chosen []) ⟨k, s, t, l, p, none⟩
  | ⟨k, s, t, l, p, some rows⟩ =>
    Arc.forwardIf (chosen []) ⟨k, s, t, l, p, some (Arc.respellRows chosen 0 rows)⟩

/-- The rows from the row `r` on, with the chosen arcs in them spelled from left to right. -/
def Arc.respellRows (chosen : Path → Bool) (r : Nat) : List Row → List Row
  | [] => []
  | row :: rows => Arc.respellRow chosen r 0 row :: Arc.respellRows chosen (r + 1) rows

/-- The arcs of the row `r` from the index `i` on, with the chosen ones spelled from left to
    right. -/
def Arc.respellRow (chosen : Path → Bool) (r i : Nat) : Row → Row
  | [] => []
  | a :: row =>
    Arc.respell (fun path => chosen ((r, i) :: path)) a :: Arc.respellRow chosen r (i + 1) row

end

/-- **The chart with the arcs at the chosen places spelled from left to right.** -/
def Chart.respell (chosen : Path → Bool) (c : Chart) : Chart :=
  { c with rows := Arc.respellRows chosen 0 c.rows }

/-! ## 2. One arc -/

variable (es : List Entity)

theorem Arc.rows_forward (a : Arc) : a.forward.rows = a.rows := by
  unfold Arc.forward
  cases rightward? a.kind <;> rfl

/-- What is read from left to right is not turned round again. -/
theorem Arc.forward_forward (a : Arc) : a.forward.forward = a.forward := by
  have hfinal := Arc.rightward?_forward a
  rw [Arc.forward, hfinal]

theorem Arc.normal_forward (a : Arc) : a.forward.normal es = a.normal es := by
  rw [Arc.normal_eq, Arc.normal_eq, Arc.forward_withRows, Arc.forward_withRows,
    Arc.forward_forward, Arc.rows_forward]

theorem Arc.normal_forwardIf (chosen : Bool) (a : Arc) :
    (a.forwardIf chosen).normal es = a.normal es := by
  cases chosen with
  | true => exact Arc.normal_forward es a
  | false => rfl

/-! ## 3. All arcs -/

mutual

/-- **The normal form of an arc does not depend on how the arcs in it are spelled.** -/
theorem Arc.normal_respell : ∀ (a : Arc) (chosen : Path → Bool),
    (a.respell chosen).normal es = a.normal es
  | ⟨k, s, t, l, p, none⟩, chosen => by
      rw [Arc.respell, Arc.normal_forwardIf]
  | ⟨k, s, t, l, p, some rows⟩, chosen => by
      have hrows := Arc.normalRows_respell rows chosen 0
      rw [Arc.respell, Arc.normal_forwardIf, Arc.normal, Arc.normal, hrows]

theorem Arc.normalRows_respell : ∀ (rows : List Row) (chosen : Path → Bool) (r : Nat),
    Arc.normalRows es (Arc.respellRows chosen r rows) = Arc.normalRows es rows
  | [], _, _ => rfl
  | row :: rows, chosen, r => by
      have hrow := Arc.normalRow_respell row chosen r 0
      have hrows := Arc.normalRows_respell rows chosen (r + 1)
      rw [Arc.respellRows, Arc.normalRows, Arc.normalRows, hrow, hrows]

theorem Arc.normalRow_respell : ∀ (row : Row) (chosen : Path → Bool) (r i : Nat),
    Arc.normalRow es (Arc.respellRow chosen r i row) = Arc.normalRow es row
  | [], _, _, _ => rfl
  | a :: row, chosen, r, i => by
      have ha := Arc.normal_respell a fun path => chosen ((r, i) :: path)
      have hrow := Arc.normalRow_respell row chosen r (i + 1)
      rw [Arc.respellRow, Arc.normalRow, Arc.normalRow, ha, hrow]

end

/-! ## 4. Whole charts -/

theorem Chart.normal_respell (chosen : Path → Bool) (c : Chart) :
    (c.respell chosen).normal = c.normal :=
  congrArg (Chart.mk _) (Arc.normalRows_respell c.entities c.rows chosen 0)

/-- Charts with the same normal form are rendered alike. -/
theorem Chart.render_congr {c d : Chart} (h : c.normal = d.normal) (o : Options) :
    c.render o = d.render o := by
  unfold Chart.render Chart.renderLenient
  rw [h]

/-- **Spelling does not matter.** Whichever arcs of a chart are respelled from left to right, at
    any depth, the normal form is the same, and so are the text and the violation that a rendering
    gives under any options. -/
theorem respelled_rendered_alike (chosen : Path → Bool) (c : Chart) :
    (c.respell chosen).normal = c.normal ∧
      ∀ o : Options, (c.respell chosen).render o = c.render o := by
  have hnormal := c.normal_respell chosen
  exact ⟨hnormal, Chart.render_congr hnormal⟩

/-- An arc inside an arc to everyone is respelled, and the one around it is not. -/
example :
    let inner : Arc := { kind := "x-", source := "*", target := "" }
    let outer : Arc := { kind := "<-", source := "*", target := "a", rows := some [[], [inner]] }
    (Chart.mk [] [[outer]]).respell (· == [(0, 0), (1, 0)]) =
      Chart.mk [] [[{ outer with
        rows := some [[], [{ kind := "-x", source := "", target := "*" }]] }]] := by
  decide

end SequenceChart
