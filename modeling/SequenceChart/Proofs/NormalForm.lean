import SequenceChart.Proofs.Settling

/-!
# Charts in normal form

What it means to be in normal form, said of a chart as it stands and without the rewriting that
leads there:

* `LastNamed` is the entity that decides for a name, and `ColourFinal` says of one colour of an arc
  that there is nothing to fill in;
* `Arc.InNormalForm` is what is asked of one arc, and `Chart.InNormalForm` of a chart, at every
  depth.

If no entity is named `*`, the rewriting leads to a chart in normal form, and the charts in normal
form are those that it leaves alone.
-/

namespace SequenceChart

/-! ## 1. What is asked of a chart -/

/-- The last entity of a name. -/
def LastNamed (es : List Entity) (name : String) (e : Entity) : Prop :=
  ∃ before after, es = before ++ e :: after ∧ e.name = name ∧ ∀ x ∈ after, x.name ≠ name

/-- A colour of an arc needs no filling in: it is chosen, or the last entity of the name that the
    arc leaves has none to give. An undeclared name has no such entity. -/
def ColourFinal (es : List Entity) (a : Arc) (colour : Paint → Option String) : Prop :=
  colour a.paint ≠ none ∨ ∀ e, LastNamed es a.source e → colour e.arcPaint = none

/-- **An arc in normal form**, what is nested in it left out. -/
structure Arc.InNormalForm (es : List Entity) (a : Arc) : Prop where
  rightward : ∀ right, (a.kind, right) ∉ leftwardKinds
  target : a.target ≠ "*"
  line : ColourFinal es a Paint.line
  text : ColourFinal es a Paint.text
  fill : ColourFinal es a Paint.fill

/-- **A chart in normal form.** -/
structure Chart.InNormalForm (c : Chart) : Prop where
  labels : ∀ e ∈ c.entities, e.label ≠ none
  arcs : ∀ a ∈ c.everyArc, a.InNormalForm c.entities

/-! ## 2. One arc -/

variable {es : List Entity}

theorem rightward?_eq_none_iff (kind : String) :
    rightward? kind = none ↔ ∀ right, (kind, right) ∉ leftwardKinds := by
  unfold rightward?
  rw [List.lookup_eq_none_iff]
  constructor
  · intro h right hmem
    have hne := h (kind, right) hmem
    simp at hne
  · intro h p hp
    rw [bne_iff_ne]
    rintro rfl
    exact h p.2 hp

theorem lastNamed_iff {name : String} {e : Entity} :
    LastNamed es name e ↔ es.reverse.find? (·.name == name) = some e := by
  rw [List.find?_eq_some_iff_append]
  constructor
  · rintro ⟨before, after, rfl, hname, hafter⟩
    refine ⟨beq_iff_eq.mpr hname, after.reverse, before.reverse, ?_, fun x hx => ?_⟩
    · rw [List.reverse_append, List.reverse_cons, List.append_assoc, List.singleton_append]
    · have hne := hafter x (List.mem_reverse.mp hx)
      simpa using hne
  · rintro ⟨hname, later, earlier, hes, hlater⟩
    refine ⟨earlier.reverse, later.reverse, ?_, beq_iff_eq.mp hname, fun x hx => ?_⟩
    · rw [← List.reverse_reverse es, hes, List.reverse_append, List.reverse_cons,
        List.append_assoc, List.singleton_append]
    · have hne := hlater x (List.mem_reverse.mp hx)
      simpa using hne

/-- The paint that the arcs leaving a name take over is that of the last entity of the name. -/
theorem senderPaint_final_iff {name : String} {colour : Paint → Option String}
    (hblank : colour {} = none) :
    (∀ e, LastNamed es name e → colour e.arcPaint = none) ↔
      colour (senderPaint es name) = none := by
  unfold senderPaint
  cases hfind : es.reverse.find? (·.name == name) with
  | none =>
    refine ⟨fun _ => hblank, fun _ e he => ?_⟩
    rw [lastNamed_iff, hfind] at he
    cases he
  | some last =>
    constructor
    · exact fun h => h last (lastNamed_iff.mpr hfind)
    · intro h e he
      rw [lastNamed_iff, hfind] at he
      cases he
      exact h

theorem or_eq_left_iff {α : Type} (x y : Option α) : x.or y = x ↔ x ≠ none ∨ y = none := by
  cases x <;> simp

theorem colourFinal_iff {a : Arc} (colour : Paint → Option String) (hblank : colour {} = none) :
    ColourFinal es a colour ↔
      (colour a.paint).or (colour (senderPaint es a.source)) = colour a.paint := by
  rw [or_eq_left_iff, ← senderPaint_final_iff hblank]
  rfl

theorem Paint.orElse_eq_left_iff (p q : Paint) : p.orElse q = p ↔
    p.line.or q.line = p.line ∧ p.text.or q.text = p.text ∧ p.fill.or q.fill = p.fill := by
  cases p
  simp [Paint.orElse]

/-- An arc is in normal form when it is upright and does not go to everyone. -/
theorem Arc.inNormalForm_iff {a : Arc} :
    a.InNormalForm es ↔ a.Upright es ∧ a.broadcast = false := by
  have hkind := rightward?_eq_none_iff a.kind
  have htarget : a.broadcast = false ↔ a.target ≠ "*" := beq_eq_false_iff_ne
  have hpaint := Paint.orElse_eq_left_iff a.paint (senderPaint es a.source)
  rw [← colourFinal_iff Paint.line rfl, ← colourFinal_iff Paint.text rfl,
    ← colourFinal_iff Paint.fill rfl] at hpaint
  constructor
  · rintro ⟨hright, hstar, hline, htext, hfill⟩
    exact ⟨⟨hkind.mpr hright, hpaint.mpr ⟨hline, htext, hfill⟩⟩, htarget.mpr hstar⟩
  · rintro ⟨⟨hright, hcolours⟩, hstar⟩
    obtain ⟨hline, htext, hfill⟩ := hpaint.mp hcolours
    exact ⟨hkind.mp hright, htarget.mp hstar, hline, htext, hfill⟩

/-! ## 3. The rewriting leads to the normal form -/

/-- Rows whose arcs are in normal form, at every depth. -/
def RowsInNormalForm (es : List Entity) (rows : List Row) : Prop :=
  ∀ b ∈ rows.flatten.flatMap Arc.everyArc, b.InNormalForm es

theorem rowsInNormalForm_iff {rows : List Row} : RowsInNormalForm es rows ↔
    ∀ row ∈ rows, ∀ a ∈ row, a.InNormalForm es ∧
      ∀ inner, a.rows = some inner → RowsInNormalForm es inner := by
  unfold RowsInNormalForm
  simp only [mem_everyArc_of_rows]
  constructor
  · intro h row hrow a ha
    refine ⟨h a ⟨row, hrow, a, ha, Arc.mem_everyArc.mpr (.inl rfl)⟩, fun inner hinner b hb => ?_⟩
    exact h b ⟨row, hrow, a, ha, Arc.mem_everyArc.mpr (.inr ⟨inner, hinner, hb⟩)⟩
  · rintro h b ⟨row, hrow, a, ha, hb⟩
    obtain ⟨hself, hnested⟩ := h row hrow a ha
    rcases Arc.mem_everyArc.mp hb with rfl | ⟨inner, hinner, hb⟩
    · exact hself
    · exact hnested inner hinner b hb

/-- No arc to everyone is left in a row where no entity is named `*`. -/
theorem inNormalForm_of_mem_spread (hstar : ∀ e ∈ es, e.name ≠ "*") {row : Row} {x : Arc}
    (hx : x ∈ spread es (row.map (Arc.normal es))) : x.InNormalForm es := by
  refine Arc.inNormalForm_iff.mpr ⟨upright_spread hx, ?_⟩
  by_cases hgo : x.broadcast = true
  · obtain ⟨a, _, _, hname, _⟩ := star_of_broadcast hx hgo
    obtain ⟨e, he, hname⟩ := List.mem_map.mp hname
    exact absurd hname (hstar e (List.mem_filter.mp he).1)
  · simpa using hgo

theorem normalRows_inNormalForm (hstar : ∀ e ∈ es, e.name ≠ "*") {rows : List Row}
    (h : ∀ row ∈ rows, ∀ a ∈ row, ∀ inner, a.rows = some inner →
      RowsInNormalForm es (Arc.normalRows es inner)) :
    RowsInNormalForm es (Arc.normalRows es rows) := by
  rw [Arc.normalRows_eq]
  refine rowsInNormalForm_iff.mpr fun row' hrow' x hx => ?_
  obtain ⟨row, hrow, rfl⟩ := List.mem_map.mp hrow'
  refine ⟨inNormalForm_of_mem_spread hstar hx, fun inner' hinner' => ?_⟩
  obtain ⟨a, ha, _, hrows⟩ := kept_of_mem_spread hx
  rw [hrows, Arc.rows_normal] at hinner'
  obtain ⟨inner, hinner, rfl⟩ := Option.map_eq_some_iff.mp hinner'
  exact h row hrow a ha inner hinner

/-- The rows nested in an arc are brought into normal form with everything in them. -/
theorem nested_inNormalForm (hstar : ∀ e ∈ es, e.name ≠ "*") (a : Arc) : ∀ inner,
    a.rows = some inner → RowsInNormalForm es (Arc.normalRows es inner) := by
  induction a using Arc.induct with
  | step a ih =>
    intro inner hinner
    exact normalRows_inNormalForm hstar fun row hrow b hb => ih inner hinner row hrow b hb

/-! ## 4. The rewriting leaves the normal form alone -/

theorem spread_of_inNormalForm {row : Row} (h : ∀ x ∈ row, x.broadcast = false) :
    spread es row = row := by
  have hnone : ∀ x ∈ row, ¬ x.broadcast = true := fun x hx => by rw [h x hx]; decide
  refine (spread_eq_iff fun x hx hgo => absurd hgo (hnone x hx)).mpr
    ⟨fun x hx hgo => absurd hgo (hnone x hx), ?_⟩
  exact pairwise_of_mem fun x hx _ _ hgo => absurd hgo (hnone x hx)

theorem normalRows_of_inNormalForm {rows : List Row} (hrows : RowsInNormalForm es rows)
    (h : ∀ row ∈ rows, ∀ a ∈ row, ∀ inner, a.rows = some inner → RowsInNormalForm es inner →
      Arc.normalRows es inner = inner) : Arc.normalRows es rows = rows := by
  rw [Arc.normalRows_eq]
  refine (List.map_congr_left fun row hrow => ?_).trans (List.map_id rows)
  have hself : ∀ a ∈ row, a.normal es = a := by
    intro a ha
    obtain ⟨hown, hnested⟩ := rowsInNormalForm_iff.mp hrows row hrow a ha
    refine (Arc.normal_eq_self_iff (Arc.inNormalForm_iff.mp hown).1).mpr fun inner hinner => ?_
    exact h row hrow a ha inner hinner (hnested inner hinner)
  have hstays : ∀ a ∈ row, a.broadcast = false := fun a ha =>
    (Arc.inNormalForm_iff.mp (rowsInNormalForm_iff.mp hrows row hrow a ha).1).2
  rw [(List.map_congr_left hself).trans (List.map_id row), spread_of_inNormalForm hstays]
  rfl

theorem nested_of_inNormalForm (a : Arc) : ∀ inner, a.rows = some inner →
    RowsInNormalForm es inner → Arc.normalRows es inner = inner := by
  induction a using Arc.induct with
  | step a ih =>
    intro inner hinner hform
    exact normalRows_of_inNormalForm hform fun row hrow b hb => ih inner hinner row hrow b hb

/-! ## 5. Whole charts -/

theorem Entity.labelled_of_label {e : Entity} (h : e.label ≠ none) : e.labelled = e := by
  obtain ⟨label, hlabel⟩ := Option.ne_none_iff_exists'.mp h
  unfold Entity.labelled
  rw [hlabel]
  show ({ e with label := some label } : Entity) = e
  rw [← hlabel]

/-- Labels do not matter to the arcs. -/
theorem Arc.inNormalForm_labelled {a : Arc} :
    a.InNormalForm (es.map Entity.labelled) ↔ a.InNormalForm es := by
  rw [Arc.inNormalForm_iff, Arc.inNormalForm_iff]
  constructor
  · rintro ⟨⟨hkind, hpaint⟩, hstays⟩
    rw [senderPaint_labelled] at hpaint
    exact ⟨⟨hkind, hpaint⟩, hstays⟩
  · rintro ⟨⟨hkind, hpaint⟩, hstays⟩
    refine ⟨⟨hkind, ?_⟩, hstays⟩
    rw [senderPaint_labelled]
    exact hpaint

theorem Chart.inNormalForm_normal {c : Chart} (hstar : ∀ e ∈ c.entities, e.name ≠ "*") :
    c.normal.InNormalForm := by
  constructor
  · intro e he
    obtain ⟨e', _, rfl⟩ := List.mem_map.mp he
    exact Option.some_ne_none _
  · intro a ha
    rw [Chart.everyArc_eq] at ha
    refine Arc.inNormalForm_labelled.mpr ?_
    exact normalRows_inNormalForm hstar (fun _ _ b _ => nested_inNormalForm hstar b) a ha

theorem Chart.normal_of_inNormalForm {c : Chart} (h : c.InNormalForm) : c.normal = c := by
  have hentities : c.entities.map Entity.labelled = c.entities :=
    (List.map_congr_left fun e he => Entity.labelled_of_label (h.labels e he)).trans
      (List.map_id c.entities)
  have hrows : RowsInNormalForm c.entities c.rows := by
    intro a ha
    rw [← Chart.everyArc_eq] at ha
    exact h.arcs a ha
  unfold Chart.normal
  rw [hentities, normalRows_of_inNormalForm hrows fun _ _ b _ => nested_of_inNormalForm b]

/-- **Charts in normal form are what the rewriting leads to, and what it leaves alone**, if no
    entity is named `*`. -/
theorem inNormalForm_normal_and_fixed (c : Chart) (h : "*" ∉ c.names) :
    c.normal.InNormalForm ∧ (c.normal = c ↔ c.InNormalForm) := by
  have hstar : ∀ e ∈ c.entities, e.name ≠ "*" := by
    intro e he hname
    exact h (List.mem_map.mpr ⟨e, he, hname⟩)
  have hnormal := Chart.inNormalForm_normal hstar
  refine ⟨hnormal, fun hfixed => ?_, Chart.normal_of_inNormalForm⟩
  rw [hfixed] at hnormal
  exact hnormal

/-- A chart that has everything to rewrite: an entity without a label, two entities of one name, and
    an arc to everyone that is written from right to left and holds another one. -/
def unsettled : Chart :=
  { entities := [{ name := "a", arcPaint := { line := some "red" } }, { name := "b" },
      { name := "a", label := some "A", arcPaint := { text := some "blue" } }]
    rows := [[{ kind := "<-", source := "*", target := "a",
                rows := some [[{ kind := "note", source := "b", target := "*" }]] },
              { kind := "->", source := "a", target := "b" }]] }

theorem inNormalForm_unsettled : "*" ∉ unsettled.names ∧
    unsettled.normal.InNormalForm ∧ (unsettled.normal = unsettled ↔ unsettled.InNormalForm) := by
  have hnames : "*" ∉ unsettled.names := by decide
  exact ⟨hnames, inNormalForm_normal_and_fixed unsettled hnames⟩

end SequenceChart
