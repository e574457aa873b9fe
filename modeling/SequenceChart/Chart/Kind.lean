/-!
# Kinds of arcs

A chart writes the kind of an arc as a word of an open vocabulary (`->`, `<<=>>`, `note`, `loop`,
...). This file holds the vocabulary and the two things the rest of the project reads off a kind:

* `Category.ofKind` sorts every kind into one of five ways to draw it; it is total, and what the
  vocabulary does not hold is `unknown`;
* `rightward?` gives the left-to-right spelling of a kind written right to left. The spelling
  it gives is never itself written right to left (`rightward?_of_rightward?`).
-/

namespace SequenceChart

/-- How an arc is drawn. -/
inductive Category where
  /-- A note or box that spans the ends of the arc. -/
  | box
  /-- An arrow from the source to the target. -/
  | directional
  /-- An arrow with a head at both ends. -/
  | bidirectional
  /-- A line without heads. -/
  | nondirectional
  /-- A kind outside the vocabulary. -/
  | unknown
  deriving DecidableEq, Repr, Inhabited

/-! ## 1. The vocabulary -/

/-- Left-to-right arrows. -/
def rightwardKinds : List String :=
  ["->", "=>", "=>>", ">>", ":>", "-x"]

/-- Each right-to-left arrow with the left-to-right arrow that says the same. -/
def leftwardKinds : List (String × String) :=
  [("<-", "->"), ("<=", "=>"), ("<<=", "=>>"), ("<<", ">>"), ("<:", ":>"), ("x-", "-x")]

/-- Arrows with two heads. -/
def twoWayKinds : List String :=
  ["<->", "<=>", "<<=>>", "<<>>", "<:>"]

/-- Lines without a head, and the three kinds of separators. -/
def lineKinds : List String :=
  ["--", "==", "..", "::", "|||", "...", "---"]

/-- Notes and boxes. -/
def boxKinds : List String :=
  ["note", "box", "abox", "rbox"]

/-- Inline expressions, in lower case. They are recognised in any mix of ASCII cases. -/
def expressionKinds : List String :=
  ["alt", "else", "opt", "break", "par", "seq", "strict", "neg", "critical", "ignore",
   "consider", "assert", "loop", "ref", "exc"]

/-- The kind names an inline expression. Only ASCII letters are compared without their case. -/
def inlineExpression (kind : String) : Bool :=
  expressionKinds.contains kind.toLower

/-! ## 2. Sorting kinds -/

/-- The left-to-right spelling of a kind written right to left, and nothing for all others. -/
def rightward? (kind : String) : Option String :=
  leftwardKinds.lookup kind

/-- **How a kind is drawn.** Boxes and arrows are spelled exactly; inline expressions, which are
    drawn as plain lines, may be spelled in any case. -/
def Category.ofKind (kind : String) : Category :=
  if rightwardKinds.contains kind || (rightward? kind).isSome then .directional
  else if twoWayKinds.contains kind then .bidirectional
  else if lineKinds.contains kind then .nondirectional
  else if boxKinds.contains kind then .box
  else if inlineExpression kind then .nondirectional
  else .unknown

/-! ## 3. Names of categories -/

/-- The name of a category. -/
def Category.name : Category → String
  | .box => "box"
  | .directional => "directional"
  | .bidirectional => "bidirectional"
  | .nondirectional => "nondirectional"
  | .unknown => "unknown"

/-- All categories, in the order in which they are listed to a reader. -/
def Category.all : List Category :=
  [.box, .directional, .bidirectional, .nondirectional, .unknown]

/-- The category of a name, spelled exactly. -/
def Category.ofName? (name : String) : Option Category :=
  Category.all.find? (·.name == name)

theorem Category.ofName?_name (c : Category) : Category.ofName? c.name = some c := by
  cases c <;> decide

/-! ## 4. The left-to-right spelling is final -/

/-- A kind that is written right to left is one of the six listed. -/
theorem rightward?_eq_some {kind right : String} (h : rightward? kind = some right) :
    (kind, right) ∈ leftwardKinds := by
  unfold rightward? at h
  obtain ⟨l₁, l₂, e, _⟩ := List.lookup_eq_some_iff.mp h
  rw [e]
  simp

theorem rightward?_of_rightward? {kind right : String} (h : rightward? kind = some right) :
    rightward? right = none := by
  have := rightward?_eq_some h
  simp only [leftwardKinds, List.mem_cons, List.not_mem_nil, or_false, Prod.mk.injEq] at this
  rcases this with ⟨_, rfl⟩ | ⟨_, rfl⟩ | ⟨_, rfl⟩ | ⟨_, rfl⟩ | ⟨_, rfl⟩ | ⟨_, rfl⟩ <;> decide

end SequenceChart
