import SequenceChart.Chart.Basic
import SequenceChart.Chart.Kind
import SequenceChart.Json.Fault

/-!
# Charts that are refused

The options of a rendering say how wide attribute texts may be, and which charts are refused. The
strict options ask two things of a chart in normal form: every kind is in the vocabulary, and
every source and target is declared. Only arcs that are drawn are asked, in the order in which they
are drawn, and the first one at fault decides: its kind before its source, its source before its
target.
-/

namespace SequenceChart

/-! ## 1. Options -/

/-- The options of a rendering. -/
structure Options where
  /-- The columns at which attribute texts are wrapped. Width 0 does not wrap. -/
  wrapWidth : Nat := 40
  /-- Refuse a chart with an arc of a kind outside the vocabulary. -/
  rejectUnknownKinds : Bool := false
  /-- Refuse a chart with an arc from or to an entity that is not declared. -/
  validateReferences : Bool := false
  deriving DecidableEq, Repr, Inhabited

/-- Options that refuse no chart. -/
def Options.lenient : Options := {}

/-- Options that refuse whatever can be refused. -/
def Options.strict : Options := { rejectUnknownKinds := true, validateReferences := true }

/-- The options with another width. -/
def Options.withWrapWidth (width : Nat) (o : Options) : Options :=
  { o with wrapWidth := width }

/-! ## 2. Violations -/

/-- Why a chart is refused. -/
inductive Violation where
  | unknownKind (kind : String)
  /-- An arc of this kind has an end of this name. -/
  | undeclared (kind name : String)
  deriving DecidableEq, Repr

/-- The violation in words. -/
def Violation.message : Violation → String
  | .unknownKind kind => "unknown arc kind: " ++ Text.spell kind
  | .undeclared kind name =>
    "arc " ++ Text.spell kind ++ " references undeclared entity " ++ Text.spell name

/-- What is wrong with an arc, its nested rows left out. `declared` tells which names are
    declared. -/
def Arc.ownViolation (o : Options) (declared : String → Bool) (a : Arc) : Option Violation :=
  if o.rejectUnknownKinds && Category.ofKind a.kind = .unknown then some (.unknownKind a.kind)
  else if o.validateReferences && !declared a.source then some (.undeclared a.kind a.source)
  else if o.validateReferences && !declared a.target then some (.undeclared a.kind a.target)
  else none

mutual

/-- The first violation of an arc and what is nested in it. -/
def Arc.violation (o : Options) (declared : String → Bool) : Arc → Option Violation
  | ⟨k, s, t, l, p, none⟩ =>
    let a : Arc := ⟨k, s, t, l, p, none⟩
    if a.wellFormed then a.ownViolation o declared else none
  | ⟨k, s, t, l, p, some rows⟩ =>
    let a : Arc := ⟨k, s, t, l, p, none⟩
    if a.wellFormed then (a.ownViolation o declared).or (Arc.rowsViolation o declared rows)
    else none

/-- The first violation of rows. -/
def Arc.rowsViolation (o : Options) (declared : String → Bool) : List Row → Option Violation
  | [] => none
  | row :: rows => (Arc.rowViolation o declared row).or (Arc.rowsViolation o declared rows)

/-- The first violation of a row. -/
def Arc.rowViolation (o : Options) (declared : String → Bool) : Row → Option Violation
  | [] => none
  | a :: row => (Arc.violation o declared a).or (Arc.rowViolation o declared row)

end

/-- **The first violation of a chart** in normal form. -/
def Chart.violation (o : Options) (c : Chart) : Option Violation :=
  Arc.rowsViolation o c.declares c.rows

end SequenceChart
