/-!
# Charts: entities, arcs and rows

A message sequence chart declares its entities and then lists rows of arcs. This file fixes the
data and the questions that every later stage asks of it:

* `Paint` holds the three colours that an entity, an arc, or the arcs leaving an entity may carry;
* `Arc` is one step of the chart; a container arc holds rows of its own, to any depth, so `Arc`
  is recursive through a list of rows;
* `arcCount` counts arcs with everything nested in them, by recursion on the tree;
* `Arc.induct` is the induction over nested rows that the theory of charts uses.
-/

namespace SequenceChart

/-! ## 1. Data -/

/-- The colours of one drawn thing: its line, the text on it, and its background. -/
structure Paint where
  line : Option String := none
  text : Option String := none
  fill : Option String := none
  deriving DecidableEq, Repr, Inhabited

/-- Each colour of the first paint, or the second paint's where the first leaves it open. -/
def Paint.orElse (p q : Paint) : Paint :=
  ⟨p.line.or q.line, p.text.or q.text, p.fill.or q.fill⟩

/-- A participant of the chart. `arcPaint` is what the arcs leaving it are painted with where
    they choose no colour themselves. -/
structure Entity where
  name : String
  label : Option String := none
  paint : Paint := {}
  arcPaint : Paint := {}
  deriving DecidableEq, Repr, Inhabited

/-- One step of the chart, from a source to a target entity. An empty kind, source or target
    counts as absent. `rows` is there exactly for containers, and may then still be empty. -/
structure Arc where
  kind : String := ""
  source : String := ""
  target : String := ""
  label : Option String := none
  paint : Paint := {}
  rows : Option (List (List Arc)) := none
  deriving Repr, Inhabited

/-- Arcs at the same height of the chart. -/
abbrev Row := List Arc

/-- A whole chart. -/
structure Chart where
  entities : List Entity := []
  rows : List Row := []
  deriving Repr, Inhabited

/-! ## 2. Equality -/

mutual

/-- Whether two arcs are the same tree. -/
def Arc.decEq : (a b : Arc) → Decidable (a = b)
  | ⟨k, s, t, l, p, none⟩, ⟨k', s', t', l', p', none⟩ =>
    if h : k = k' ∧ s = s' ∧ t = t' ∧ l = l' ∧ p = p' then isTrue (by simp [h])
    else isFalse (by simpa using h)
  | ⟨k, s, t, l, p, some r⟩, ⟨k', s', t', l', p', some r'⟩ =>
    match Arc.decEqRows r r' with
    | isTrue e =>
      if h : k = k' ∧ s = s' ∧ t = t' ∧ l = l' ∧ p = p' then isTrue (by simp [h, e])
      else isFalse (by simpa [e] using h)
    | isFalse e => isFalse (by simp [e])
  | ⟨_, _, _, _, _, none⟩, ⟨_, _, _, _, _, some _⟩ => isFalse (by simp)
  | ⟨_, _, _, _, _, some _⟩, ⟨_, _, _, _, _, none⟩ => isFalse (by simp)

/-- Whether two lists of rows are the same. -/
def Arc.decEqRows : (rs ss : List Row) → Decidable (rs = ss)
  | [], [] => isTrue rfl
  | [], _ :: _ => isFalse (by simp)
  | _ :: _, [] => isFalse (by simp)
  | r :: rs, s :: ss =>
    match Arc.decEqRow r s, Arc.decEqRows rs ss with
    | isTrue e, isTrue f => isTrue (by simp [e, f])
    | isFalse e, _ => isFalse (by simp [e])
    | _, isFalse f => isFalse (by simp [f])

/-- Whether two rows are the same. -/
def Arc.decEqRow : (r s : Row) → Decidable (r = s)
  | [], [] => isTrue rfl
  | [], _ :: _ => isFalse (by simp)
  | _ :: _, [] => isFalse (by simp)
  | a :: r, b :: s =>
    match Arc.decEq a b, Arc.decEqRow r s with
    | isTrue e, isTrue f => isTrue (by simp [e, f])
    | isFalse e, _ => isFalse (by simp [e])
    | _, isFalse f => isFalse (by simp [f])

end

instance : DecidableEq Arc := Arc.decEq

deriving instance DecidableEq for Chart

/-! ## 3. Questions about one arc -/

namespace Arc

/-- Kind, source and target are all given. -/
def wellFormed (a : Arc) : Bool :=
  a.kind != "" && a.source != "" && a.target != ""

/-- The arc holds rows of its own, be it none. -/
def container (a : Arc) : Bool :=
  a.rows.isSome

/-- The arc goes to everyone: its target is a star. -/
def broadcast (a : Arc) : Bool :=
  a.target == "*"

end Arc

/-! ## 4. Counting with everything nested -/

mutual

/-- The arc itself and all arcs nested in it. -/
def Arc.count : Arc → Nat
  | ⟨_, _, _, _, _, none⟩ => 1
  | ⟨_, _, _, _, _, some rows⟩ => 1 + Arc.countRows rows

/-- All arcs of a list of rows. -/
def Arc.countRows : List Row → Nat
  | [] => 0
  | row :: rows => Arc.countRow row + Arc.countRows rows

/-- All arcs of a row. -/
def Arc.countRow : Row → Nat
  | [] => 0
  | arc :: row => Arc.count arc + Arc.countRow row

end

/-- The number of arcs of a chart, nested ones included. -/
def Chart.arcCount (c : Chart) : Nat :=
  Arc.countRows c.rows

/-- The names the chart declares, in order. -/
def Chart.names (c : Chart) : List String :=
  c.entities.map Entity.name

/-- The chart declares an entity of this name. -/
def Chart.declares (c : Chart) (name : String) : Bool :=
  c.entities.any (·.name == name)

/-! ## 5. Recursion on the tree -/

/-- An arc counts itself and the rows it holds. -/
theorem Arc.count_eq (a : Arc) : a.count = 1 + Arc.countRows (a.rows.getD []) := by
  rcases a with ⟨_, _, _, _, _, _ | rows⟩ <;> simp [Arc.count, Arc.countRows]

/-- **Induction over nested rows.** A property holds of every arc once it holds of each arc
    whose nested arcs all have it. -/
theorem Arc.induct {P : Arc → Prop}
    (step : ∀ a : Arc, (∀ rows, a.rows = some rows → ∀ row ∈ rows, ∀ b ∈ row, P b) → P a) :
    ∀ a, P a := by
  intro a
  refine Arc.rec (motive_1 := P)
    (motive_2 := fun rows => ∀ rs, rows = some rs → ∀ row ∈ rs, ∀ b ∈ row, P b)
    (motive_3 := fun rows => ∀ row ∈ rows, ∀ b ∈ row, P b)
    (motive_4 := fun row => ∀ b ∈ row, P b) ?_ ?_ ?_ ?_ ?_ ?_ ?_ a
  · intro k s t l p rows ih
    exact step ⟨k, s, t, l, p, rows⟩ ih
  · intro rs h
    cases h
  · intro rows ih rs h
    cases h
    exact ih
  · intro row h
    cases h
  · intro row rows hrow hrows r hr
    rcases List.mem_cons.mp hr with rfl | hr
    · exact hrow
    · exact hrows r hr
  · intro b h
    cases h
  · intro b row hb hrow x hx
    rcases List.mem_cons.mp hx with rfl | hx
    · exact hb
    · exact hrow x hx

end SequenceChart
