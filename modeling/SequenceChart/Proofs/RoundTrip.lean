import SequenceChart.Format.Chart
import SequenceChart.Proofs.WrittenText

/-!
# A chart that is written is read back

A chart is written as a JSON value, and the value as a text. Both are read back as the chart itself,
whatever its texts are and however deep its rows are nested; only the reader of texts gives up where
too many brackets are open at once.

* `Stands` says that a value is written for a record, a list or a text and is read as that;
* `Gives` says which members are written for the fields of a record, one field after the other;
  `stands_record` says that they are read as the record;
* `Entity.stands`, `Arc.stands` and `Chart.stands` go through the three records;
* `written_chart_read_back` is the round trip for whole charts.
-/

namespace SequenceChart

open SequenceChart.Json (mostOpen)

namespace Format

/-! ## 1. What a value stands for -/

/-- **The value is written for this.** It has the form its shape asks for, and is read as `x`. -/
def Stands (s : Shape) (v : Json) (x : s.Carrier) : Prop :=
  Written s v ∧ ofJson s v = .ok x

theorem stands_text (s : String) : Stands .text (.string s) s := by
  refine ⟨.text s, ?_⟩
  rw [ofJson]

theorem ofItems_map {item : Shape} {f : item.Carrier → Json} : ∀ xs : List item.Carrier,
    (∀ x ∈ xs, ofJson item (f x) = .ok x) → ofItems item (xs.map f) = .ok xs
  | [], _ => rfl
  | x :: xs, h => by
      have hx := h x List.mem_cons_self
      have hxs := ofItems_map xs fun y hy => h y (List.mem_cons_of_mem x hy)
      rw [List.map_cons, ofItems, hx]
      simp only [hxs]

/-- A list stands for a list when its items stand for the items. -/
theorem stands_list {item : Shape} {f : item.Carrier → Json} {xs : List item.Carrier}
    (h : ∀ x ∈ xs, Stands item (f x) x) : Stands (.list item) (.array (xs.map f)) xs := by
  refine ⟨.list fun v hv => ?_, ?_⟩
  · obtain ⟨x, hx, rfl⟩ := List.mem_map.mp hv
    exact (h x hx).1
  · rw [ofJson]
    exact ofItems_map xs fun x hx => (h x hx).2

/-! ## 2. Records -/

/-- **These members are written for these fields**, one after the other. Reading them turns the
    record `x` into `y`. -/
inductive Gives {ρ : Type} : List (Field ρ) → ρ → Json.Members → ρ → Prop where
  | done (x : ρ) : Gives [] x [] x
  | absent {f : Field ρ} {fs : List (Field ρ)} {x y : ρ} {ms : Json.Members}
      (hfree : f.required = false) (h : Gives fs x ms y) : Gives (f :: fs) x ms y
  | present {f : Field ρ} {fs : List (Field ρ)} {x y : ρ} {ms : Json.Members} {v : Json}
      {a : f.shape.Carrier} (hv : Stands f.shape v a) (h : Gives fs (f.put a x) ms y) :
      Gives (f :: fs) x ((f.name, v) :: ms) y

/-- An optional text is written where it is there. -/
theorem Gives.text {ρ : Type} {name : String} {otherName : Option String}
    {put : Option String → ρ → ρ} {fs : List (Field ρ)} {x y : ρ} {ms : Json.Members}
    {text : Option String} (hblank : put none x = x) (h : Gives fs (put text x) ms y) :
    Gives (.text name otherName put :: fs) x (field? name text ++ ms) y := by
  cases text with
  | none =>
    rw [hblank] at h
    exact .absent rfl h
  | some s => exact .present (stands_text s) h

/-- A field is found by its name. -/
theorem Record.field?_name : ∀ r : Record, ∀ f ∈ r.fields, r.field? f.name = some f
  | .chart => by
      simp only [Record.fields, chartFields, List.forall_mem_cons]
      exact ⟨rfl, rfl, fun _ h => absurd h List.not_mem_nil⟩
  | .entity => by
      simp only [Record.fields, entityFields, List.forall_mem_cons]
      exact ⟨rfl, rfl, rfl, rfl, rfl, rfl, rfl, rfl, fun _ h => absurd h List.not_mem_nil⟩
  | .arc => by
      simp only [Record.fields, arcFields, List.forall_mem_cons]
      exact ⟨rfl, rfl, rfl, rfl, rfl, rfl, rfl, rfl, fun _ h => absurd h List.not_mem_nil⟩

/-- No two fields of a record have the same name. -/
theorem Record.nodup_names (r : Record) : (r.fields.map Field.name).Nodup := by
  cases r <;> decide

/-- Members that are written for fields are keyed by these fields. -/
theorem Gives.written {r : Record} {fs : List (Field r.Carrier)} {x y : r.Carrier}
    {ms : Json.Members} (h : Gives fs x ms y) (hfs : ∀ f ∈ fs, r.field? f.name = some f) :
    WrittenMembers r ms := by
  induction h with
  | done x => exact fun _ h => absurd h List.not_mem_nil
  | absent _ _ ih => exact ih fun f hf => hfs f (List.mem_cons_of_mem _ hf)
  | @present f fs _ _ ms v _ hv _ ih =>
    have hrest := ih fun g hg => hfs g (List.mem_cons_of_mem f hg)
    exact List.forall_mem_cons.mpr ⟨⟨f, hfs f List.mem_cons_self, hv.1⟩, hrest⟩

/-- **Members are read as the fields they are written for.** The draft keeps the names that were
    given, and has those of all fields that have to be given. -/
theorem Gives.read {r : Record} {fs : List (Field r.Carrier)} {x y : r.Carrier}
    {ms : Json.Members} (h : Gives fs x ms y) : (∀ f ∈ fs, r.field? f.name = some f) →
    (fs.map Field.name).Nodup → ∀ d : Draft r.Carrier, d.value = x →
    (∀ f ∈ fs, f.name ∉ d.given) → ∃ d', ofMembers r d ms = .ok d' ∧ d'.value = y ∧
      d.given ⊆ d'.given ∧ ∀ f ∈ fs, f.required = true → f.name ∈ d'.given := by
  induction h with
  | done x =>
    intro _ _ d hd _
    refine ⟨d, rfl, hd, List.Subset.refl _, fun _ h => absurd h List.not_mem_nil⟩
  | @absent f fs _ _ ms hfree _ ih =>
    intro hfs hnodup d hd hnew
    obtain ⟨d', hread, hvalue, hsub, hreq⟩ := ih (fun g hg => hfs g (List.mem_cons_of_mem f hg))
      (List.nodup_cons.mp hnodup).2 d hd fun g hg => hnew g (List.mem_cons_of_mem f hg)
    refine ⟨d', hread, hvalue, hsub, List.forall_mem_cons.mpr ⟨fun hr => ?_, hreq⟩⟩
    rw [hfree] at hr
    cases hr
  | @present f fs x _ ms v a hv _ ih =>
    intro hfs hnodup d hd hnew
    obtain ⟨hapart, hnodup⟩ := List.nodup_cons.mp hnodup
    -- the name of this field is given from here on, and no later field has it
    have hlater : ∀ g ∈ fs, g.name ∉ (d.give f (some a)).given := by
      intro g hg hgiven
      rcases List.mem_cons.mp hgiven with hsame | hgiven
      · exact hapart (hsame ▸ List.mem_map_of_mem hg)
      · exact hnew g (List.mem_cons_of_mem f hg) hgiven
    obtain ⟨d', hread, hvalue, hsub, hreq⟩ := ih (fun g hg => hfs g (List.mem_cons_of_mem f hg))
      hnodup (d.give f (some a)) (congrArg (f.put a) hd) hlater
    have hhas : ¬ d.has f = true := fun h =>
      hnew f List.mem_cons_self (List.contains_iff_mem.mp h)
    refine ⟨d', ?_, hvalue, fun n hn => hsub (List.mem_cons_of_mem _ hn),
      List.forall_mem_cons.mpr ⟨fun _ => hsub List.mem_cons_self, hreq⟩⟩
    rw [ofMembers_cons (hfs f List.mem_cons_self) hv.1.plain.ne_null, if_neg hhas, hv.2]
    exact hread

/-- **An object stands for a record** when its members are written for the record's fields. -/
theorem stands_record {r : Record} {ms : Json.Members} {x : r.Carrier}
    (h : Gives r.fields r.blank ms x) : Stands (.record r) (.object ms) x := by
  refine ⟨(h.written r.field?_name).written, ?_⟩
  obtain ⟨d, hread, hvalue, _, hreq⟩ := h.read r.field?_name r.nodup_names r.draft rfl
    fun _ _ => List.not_mem_nil
  have hnone : r.fields.find? (fun f => f.required && !d.has f) = none := by
    rw [List.find?_eq_none]
    intro f hf hmissing
    obtain ⟨hr, hnot⟩ := Bool.and_eq_true_iff.mp hmissing
    have hhas : d.has f = true := List.contains_iff_mem.mpr (hreq f hf hr)
    rw [hhas] at hnot
    cases hnot
  rw [ofJson, hread]
  simp only [Record.finish, hnone, hvalue]

end Format

/-! ## 3. Charts -/

open Format

/-- **The object of an entity stands for the entity.** -/
theorem Entity.stands (e : Entity) : Stands (.record .entity) e.toJson e := by
  refine stands_record ?_
  simp only [List.append_assoc]
  rw [← List.append_nil (Format.field? "arcfillcolor" e.arcPaint.fill)]
  refine .present (stands_text e.name) ?_
  exact .text rfl (.text rfl (.text rfl (.text rfl (.text rfl (.text rfl (.text rfl (.done e)))))))

/-- The members of an arc but for its nested rows, which are the last of its eight fields. -/
theorem Arc.gives_own (a : Arc) {ms : Json.Members} {b : Arc}
    (h : Gives (arcFields.drop 7) ⟨a.kind, a.source, a.target, a.label, a.paint, none⟩ ms b) :
    Gives arcFields {} (a.ownMembers ++ ms) b := by
  unfold Arc.ownMembers
  simp only [List.cons_append, List.append_assoc]
  refine .present (stands_text a.kind) (.present (stands_text a.source)
    (.present (stands_text a.target) ?_))
  exact .text rfl (.text rfl (.text rfl (.text rfl h)))

/-- The list of rows stands for the rows, if the objects of their arcs stand for the arcs. -/
theorem stands_rows {rows : List Row}
    (h : ∀ row ∈ rows, ∀ a ∈ row, Stands (.record .arc) a.toJson a) :
    Stands (.list (.list (.record .arc))) (.array (Arc.rowsToJson rows)) rows := by
  rw [Arc.rowsToJson_eq]
  exact stands_list fun row hrow => stands_list (h row hrow)

/-- **The object of an arc stands for the arc**, with everything nested in it. -/
theorem Arc.stands (a : Arc) : Stands (.record .arc) a.toJson a := by
  induction a using Arc.induct with
  | step a ih =>
    rcases a with ⟨k, s, t, l, p, _ | rows⟩
    · have hown := Arc.gives_own ⟨k, s, t, l, p, none⟩ (.absent rfl (.done _))
      rw [List.append_nil] at hown
      exact stands_record hown
    · have hrows := stands_rows (ih rows rfl)
      exact stands_record (Arc.gives_own ⟨k, s, t, l, p, none⟩ (.present hrows (.done _)))

/-- **The object of a chart stands for the chart.** -/
theorem Chart.stands (c : Chart) : Stands (.record .chart) c.toJson c := by
  refine stands_record ?_
  refine .present (stands_list fun e _ => e.stands) ?_
  refine .present (stands_rows fun _ _ a _ => a.stands) ?_
  exact .done c

/-! ## 4. Whole charts -/

/-- **A chart is read back from what is written for it.** The value is read as the chart, whatever
    the chart holds and however deep it is nested. The text is read as the chart exactly when it
    never has 128 brackets open at once; otherwise the message says that the limit of nesting is
    exceeded, and where. -/
theorem written_chart_read_back (c : Chart) :
    Chart.fromJson c.toJson = .ok c ∧
      (Chart.fromText c.toText = .ok c ↔ mostOpen c.toText.toList < 128) ∧
      (¬ mostOpen c.toText.toList < 128 → ∃ u, Chart.fromText c.toText = .error u ∧
        ∃ p : Json.Place, Chart.unreadableMessage u = "Invalid chart document JSON: " ++
          ("recursion limit exceeded" ++ " at line " ++ toString p.line ++
            " column " ++ toString p.column)) := by
  obtain ⟨hwritten, hread⟩ := c.stands
  obtain ⟨hiff, hdeep⟩ := fromText_print hwritten hread
  refine ⟨?_, hiff, fun h => ?_⟩
  · unfold Chart.fromJson Format.fromJson
    rw [hread]
    rfl
  · obtain ⟨p, hp⟩ := hdeep h
    exact ⟨_, hp, p, rfl⟩

end SequenceChart
