import SequenceChart.Proofs.Quoting
import SequenceChart.Proofs.Tokens

/-!
# Reading graphs back

One reader for the texts that graphs are written as. It knows the grammar and nothing of the graph
that was written or of the width at which its texts were wrapped.

* The tokens behind the preamble are cut into events: the line of a node, a whole edge or box, the
  opening of a cluster, a closing brace (`event?`, `events`);
* the events are nested, with the clusters that are still open on a stack (`nest`);
* `Graph.read?` puts these together. It refuses a text that it does not read to its end.
-/

namespace SequenceChart.Dot

open SequenceChart.Text

/-! ## 1. Names, numbers and attributes -/

/-- The name that stands between quotes. -/
def nameOf (raw : List Char) : String :=
  String.ofList (unescape raw)

/-- The attribute that a word and a quoted text make. -/
def attributeOf (name raw : List Char) : Attribute :=
  ⟨String.ofList name, readLines raw⟩

/-- The number that is written with these digits and no others: there is no zero in front. -/
def number? (digits : List Char) : Option Nat :=
  if (toString (Nat.ofDigitChars 10 digits 0)).toList = digits then
    some (Nat.ofDigitChars 10 digits 0)
  else none

/-- The number in a name that is made of a fixed beginning and a number. -/
def numberBehind? (front : String) (w : List Char) : Option Nat :=
  (front.toList.isPrefixOf? w).bind number?

/-- Attributes up to the closing bracket, and what stands behind it. -/
def attributes? : List Token → Option (List Attribute × List Token)
  | .word n :: .mark '=' :: .text raw :: .mark ',' :: ts =>
    (attributes? ts).map fun read => (attributeOf n raw :: read.1, read.2)
  | .word n :: .mark '=' :: .text raw :: .mark ']' :: ts => some ([attributeOf n raw], ts)
  | _ => none

/-- Attributes in brackets if there is a bracket, and what stands behind them. -/
def block? : List Token → Option (List Attribute × List Token)
  | .mark '[' :: ts => attributes? ts
  | ts => some ([], ts)

/-! ## 2. Events -/

/-- What a statement or the edge of a cluster is read as. -/
inductive Event where
  | node (n : Node)
  /-- An edge, or a box with its ties. -/
  | whole (s : Statement)
  | opening (number : Nat) (caption : Option String)
  | closing

/-- The line of a node, once its attributes are read. A semicolon closes it. -/
def nodeEvent? (name : String) : List Attribute × List Token → Option (Event × List Token)
  | (as, .mark ';' :: rest) => some (.node ⟨name, as⟩, rest)
  | _ => none

/-- Reads on behind a quoted name: an edge to another name, or the line of a node. -/
def nameEvent? (name : String) : List Token → Option (Event × List Token)
  | .mark '-' :: .mark '-' :: .text raw :: ts =>
    (block? ts).map fun read => (.whole (.edge name (nameOf raw) read.1), read.2)
  | ts => (block? ts).bind (nodeEvent? name)

/-- The two ends that a box is tied to, in front of the attributes of the ties. -/
def ends? (w : List Char) : List Token → Option ((String × String) × List Token)
  | .word w' :: .mark '-' :: .mark '-' :: .mark '\x7b' :: .text raw :: .mark ',' :: .text raw' ::
      .mark '\x7d' :: ts =>
    if w' = w then some ((nameOf raw, nameOf raw'), ts) else none
  | _ => none

/-- Reads on behind the name of a box: its attributes, and the line that ties it. -/
def boxEvent? (w : List Char) (ts : List Token) : Option (Event × List Token) := do
  let number ← numberBehind? "box" w
  let (attributes, ts) ← block? ts
  let ((source, target), ts) ← ends? w ts
  let (ties, ts) ← block? ts
  return (.whole (.box number attributes source target ties), ts)

/-- The text at the top of a cluster, if there is one, and what stands behind it. -/
def captionOf (ts : List Token) : Option String × List Token :=
  match ts with
  | .word label :: .mark '=' :: .text raw :: .word just :: .mark '=' :: .text side :: rest =>
    if label = "label".toList ∧ just = "labeljust".toList ∧ side = "l".toList then
      (some (nameOf raw), rest)
    else (none, ts)
  | _ => (none, ts)

/-- Reads on behind the word that announces a cluster. -/
def clusterEvent? : List Token → Option (Event × List Token)
  | .word w :: .mark '\x7b' :: ts =>
    (numberBehind? "cluster_" w).map fun n => (.opening n (captionOf ts).1, (captionOf ts).2)
  | _ => none

/-- **The first event, and what stands behind it.** -/
def event? : List Token → Option (Event × List Token)
  | .text raw :: ts => nameEvent? (nameOf raw) ts
  | .word w :: ts => if w = "subgraph".toList then clusterEvent? ts else boxEvent? w ts
  | .mark '\x7d' :: ts => some (.closing, ts)
  | _ => none

/-! ## 3. Every event takes tokens -/

theorem attributes?_length : ∀ {ts rest : List Token} {as : List Attribute},
    attributes? ts = some (as, rest) → rest.length < ts.length := by
  intro ts
  induction ts using attributes?.induct with
  | case1 n raw ts ih =>
    intro rest as h
    rw [attributes?] at h
    obtain ⟨⟨as', rest'⟩, hread, e⟩ := Option.map_eq_some_iff.mp h
    cases e
    have := ih hread
    simp only [List.length_cons]
    omega
  | case2 n raw ts =>
    intro rest as h
    cases h
    simp only [List.length_cons]
    omega
  | case3 ts h₁ h₂ =>
    intro rest as h
    unfold attributes? at h
    split at h
    · exact absurd rfl (h₁ _ _ _)
    · exact absurd rfl (h₂ _ _ _)
    · cases h

theorem block?_length {ts rest : List Token} {as : List Attribute}
    (h : block? ts = some (as, rest)) : rest.length ≤ ts.length := by
  unfold block? at h
  split at h
  · exact Nat.le_succ_of_le (Nat.le_of_lt (attributes?_length h))
  · cases h
    exact Nat.le_refl _

theorem nodeEvent?_length {name : String} {as : List Attribute} {ts rest : List Token} {e : Event}
    (h : nodeEvent? name (as, ts) = some (e, rest)) : rest.length ≤ ts.length := by
  unfold nodeEvent? at h
  split at h
  · rename_i heq
    cases heq
    cases h
    exact Nat.le_succ _
  · cases h

theorem nameEvent?_length {name : String} {ts rest : List Token} {e : Event}
    (h : nameEvent? name ts = some (e, rest)) : rest.length ≤ ts.length := by
  unfold nameEvent? at h
  split at h
  · obtain ⟨⟨as, rest'⟩, hread, heq⟩ := Option.map_eq_some_iff.mp h
    cases heq
    have := block?_length hread
    simp only [List.length_cons]
    omega
  · obtain ⟨⟨as, ts'⟩, hread, hnode⟩ := Option.bind_eq_some_iff.mp h
    exact Nat.le_trans (nodeEvent?_length hnode) (block?_length hread)

theorem ends?_length {w : List Char} {ts rest : List Token} {p : String × String}
    (h : ends? w ts = some (p, rest)) : rest.length ≤ ts.length := by
  unfold ends? at h
  split at h
  · split at h
    · cases h
      simp only [List.length_cons]
      omega
    · cases h
  · cases h

theorem boxEvent?_length {w : List Char} {ts rest : List Token} {e : Event}
    (h : boxEvent? w ts = some (e, rest)) : rest.length ≤ ts.length := by
  unfold boxEvent? at h
  obtain ⟨n, _, h⟩ := Option.bind_eq_some_iff.mp h
  obtain ⟨⟨as, ts₁⟩, h₁, h⟩ := Option.bind_eq_some_iff.mp h
  obtain ⟨⟨⟨source, target⟩, ts₂⟩, h₂, h⟩ := Option.bind_eq_some_iff.mp h
  obtain ⟨⟨ties, ts₃⟩, h₃, h⟩ := Option.bind_eq_some_iff.mp h
  cases h
  have := block?_length h₁
  have := ends?_length h₂
  have := block?_length h₃
  omega

theorem captionOf_length (ts : List Token) : (captionOf ts).2.length ≤ ts.length := by
  unfold captionOf
  split
  · split
    · simp only [List.length_cons]
      omega
    · exact Nat.le_refl _
  · exact Nat.le_refl _

theorem clusterEvent?_length {ts rest : List Token} {e : Event}
    (h : clusterEvent? ts = some (e, rest)) : rest.length ≤ ts.length := by
  unfold clusterEvent? at h
  split at h
  · rename_i w ts
    obtain ⟨n, _, heq⟩ := Option.map_eq_some_iff.mp h
    cases heq
    have := captionOf_length ts
    simp only [List.length_cons]
    omega
  · cases h

theorem event?_length {ts rest : List Token} {e : Event} (h : event? ts = some (e, rest)) :
    rest.length < ts.length := by
  unfold event? at h
  split at h
  · exact Nat.lt_succ_of_le (nameEvent?_length h)
  · split at h
    · exact Nat.lt_succ_of_le (clusterEvent?_length h)
    · exact Nat.lt_succ_of_le (boxEvent?_length h)
  · cases h
    exact Nat.lt_succ_self _
  · cases h

/-! ## 4. The reader -/

/-- **The events of a whole text.** -/
def events (ts : List Token) : Option (List Event) :=
  match ts with
  | [] => some []
  | t :: ts =>
    match _h : event? (t :: ts) with
    | none => none
    | some (e, rest) => (events rest).map (e :: ·)
termination_by ts.length
decreasing_by exact event?_length ‹_›

/-- The nodes that are declared first, and the events behind them. -/
def declarations : List Event → List Node × List Event
  | .node n :: es => (n :: (declarations es).1, (declarations es).2)
  | es => ([], es)

/-- An open cluster, with the statements that stand in front of it. -/
structure Frame where
  number : Nat
  caption : Option String
  before : List Statement

/-- **Nests events.** The stack holds the open clusters, the innermost first, and `done` what has
    been read in the innermost. The brace that closes the graph is the last event. -/
def nest : List Frame → List Statement → List Event → Option (List Statement)
  | [], done, [.closing] => some done
  | f :: fs, done, .closing :: es =>
    nest fs (f.before ++ [.cluster f.number f.caption done]) es
  | fs, done, .whole s :: es => nest fs (done ++ [s]) es
  | fs, done, .opening number caption :: es => nest (⟨number, caption, done⟩ :: fs) [] es
  | _, _, _ => none

/-- A bare word. -/
def bare (s : String) : Token :=
  .word s.toList

/-- A setting whose value is a bare word. -/
def setBare (name value : String) : List Token :=
  [bare name, .mark '=', bare value]

/-- A setting whose value stands in quotes. -/
def setText (name value : String) : List Token :=
  [bare name, .mark '=', .text value.toList]

/-- The opening of a graph and the settings that hold for all of it. -/
def preamble : List Token :=
  [bare "graph", .mark '\x7b'] ++
  setBare "rankdir" "LR" ++ setBare "splines" "true" ++ setBare "ordering" "out" ++
  setText "fontname" "Helvetica" ++ setText "fontsize" "9" ++
  [bare "node", .mark '['] ++ setBare "style" "filled" ++ [.mark ','] ++
  setBare "fillcolor" "white" ++ setText "fontname" "Helvetica" ++ [.mark ','] ++
  setText "fontsize" "9" ++ [.mark ']'] ++
  [bare "edge", .mark '['] ++ setText "fontname" "Helvetica" ++ [.mark ','] ++
  setText "fontsize" "9" ++ [.mark ','] ++ setBare "arrowhead" "vee" ++ [.mark ','] ++
  setBare "arrowtail" "vee" ++ [.mark ','] ++ setBare "dir" "forward" ++ [.mark ']']

/-- **The graph that a text writes.** -/
def Graph.read? (text : String) : Option Graph := do
  let ts ← lex text.toList
  let body ← preamble.isPrefixOf? ts
  let es ← events body
  let statements ← nest [] [] (declarations es).2
  return ⟨(declarations es).1, statements⟩

end SequenceChart.Dot
