import SequenceChart.Proofs.Reading
import SequenceChart.Proofs.TextOrder

/-!
# What is written can be read back

`read?_print` says that the reader of `Reading.lean` undoes `Graph.print`. Every stage of the reader
is compared with what the graph is written as, with any text, tokens or events behind it.

* A graph is `Legible` if its attributes are: the name is a bare word, and there is at least one
  line and no line end inside a line. Names and captions may hold anything;
* `Statement.toTokens` and `Statement.toEvents` are what a statement is written as, before and
  after the tokens are cut into events;
* `run_write` compares the text with the tokens, `events_toTokens` the tokens with the events, and
  `nest_toEvents` the events with the statements.
-/

namespace SequenceChart.Dot

open SequenceChart.Text

/-! ## 1. Graphs that can be read back -/

/-- An attribute whose name is a bare word and whose lines are lines. -/
structure Attribute.Legible (a : Attribute) : Prop where
  name_ne : a.name.toList ≠ []
  name_letters : ∀ c ∈ a.name.toList, letter c = true
  lines_ne : a.lines ≠ []
  lines_clean : ∀ l ∈ a.lines, '\n' ∉ l

/-- Attributes that are all legible. -/
abbrev AllLegible (as : List Attribute) : Prop :=
  ∀ a ∈ as, a.Legible

theorem legible_of_append {as bs : List Attribute} (h : AllLegible (as ++ bs)) :
    AllLegible as ∧ AllLegible bs :=
  ⟨fun a ha => h a (List.mem_append_left bs ha), fun b hb => h b (List.mem_append_right as hb)⟩

/-- A graph all of whose attributes are legible, at any depth. -/
structure Graph.Legible (g : Graph) : Prop where
  nodes : ∀ n ∈ g.nodes, AllLegible n.attributes
  statements : ∀ s ∈ Statement.allInOrder g.statements, AllLegible s.attributes

/-! ## 2. The tokens that a graph is written as -/

/-- The tokens of an attribute. -/
def Attribute.toTokens (a : Attribute) : List Token :=
  [.word a.name.toList, .mark '=', .text (escapeLines a.lines)]

/-- The tokens of the attributes behind the first, and of the closing bracket. -/
def furtherTokens : List Attribute → List Token
  | [] => [.mark ']']
  | a :: as => .mark ',' :: (a.toTokens ++ furtherTokens as)

/-- The tokens of attributes in brackets. -/
def blockTokens : List Attribute → List Token
  | [] => []
  | a :: as => .mark '[' :: (a.toTokens ++ furtherTokens as)

/-- The token of a name. -/
def nameToken (name : String) : Token :=
  .text (escape name.toList)

/-- The token of a name made of a fixed beginning and a number. -/
def numberToken (front : String) (number : Nat) : Token :=
  .word (front.toList ++ (toString number).toList)

/-- The tokens of a node. -/
def Node.toTokens (n : Node) : List Token :=
  nameToken n.name :: (blockTokens n.attributes ++ [.mark ';'])

/-- The tokens of the text at the top of a cluster. -/
def captionTokens : Option String → List Token
  | none => []
  | some s => [bare "label", .mark '=', nameToken s] ++ setText "labeljust" "l"

/-- The tokens of the line that ties a box. -/
def tieTokens (number : Nat) (source target : String) (ties : List Attribute) : List Token :=
  [numberToken "box" number, .mark '-', .mark '-', .mark '\x7b', nameToken source, .mark ',',
    nameToken target, .mark '\x7d'] ++ blockTokens ties

mutual

/-- The tokens of a statement. -/
def Statement.toTokens : Statement → List Token
  | .edge source target attributes =>
    [nameToken source, .mark '-', .mark '-', nameToken target] ++ blockTokens attributes
  | .box number attributes source target ties =>
    numberToken "box" number :: (blockTokens attributes ++ tieTokens number source target ties)
  | .cluster number caption body =>
    [bare "subgraph", numberToken "cluster_" number, .mark '\x7b'] ++
      (captionTokens caption ++ (Statement.allToTokens body ++ [.mark '\x7d']))

/-- The tokens of statements. -/
def Statement.allToTokens : List Statement → List Token
  | [] => []
  | s :: ss => Statement.toTokens s ++ Statement.allToTokens ss

end

/-! ## 3. From the text to its tokens -/

open Mode

theorem run_text (s : String) {m m' : Mode} {ts : List Token} (h : run m s.toList = (ts, m'))
    (cs : List Char) : run m (writeText s cs) = behind ts (run m' cs) :=
  run_append_of h cs

theorem run_indent (depth : Nat) (cs : List Char) : run .free (indent depth cs) = run .free cs :=
  run_blanks cs _

theorem run_name (name : String) (cs : List Char) :
    run .free (writeName name cs) = behind [nameToken name] (run .free cs) :=
  run_quoted name.toList cs

theorem run_attribute {a : Attribute} (h : a.Legible) (cs : List Char) :
    run .free (a.write cs) = behind a.toTokens (run .free cs) := by
  have hvalue : run (.text []) (escapeLines a.lines ++ '"' :: cs) =
      behind [.text (escapeLines a.lines)] (run .free cs) := by
    rw [run_enclosed (enclosed_escapeLines a.lines)]
    rfl
  unfold Attribute.write writeText
  rw [run_letters h.name_ne h.name_letters, run_word_end (by decide), run_mark (by decide)]
  show behind _ (behind _ (run (.text []) (escapeLines a.lines ++ '"' :: cs))) = _
  rw [hvalue, behind_behind, behind_behind]
  rfl

theorem run_blank (cs : List Char) : run .free (' ' :: cs) = run .free cs := rfl

theorem run_lineEnd (cs : List Char) : run .free ('\n' :: cs) = run .free cs := rfl

theorem run_further (cs : List Char) : ∀ {as : List Attribute}, AllLegible as →
    run .free (writeAttributes as (']' :: cs)) = behind (furtherTokens as) (run .free cs)
  | [], _ => run_mark (by decide) cs
  | a :: as, h => by
      have ih := run_further cs fun b hb => h b (List.mem_cons_of_mem a hb)
      rw [writeAttributes, run_mark (by decide), run_blank, run_attribute (h a List.mem_cons_self), ih,
        behind_behind, behind_behind]
      rfl

theorem run_block (cs : List Char) : ∀ {as : List Attribute}, AllLegible as →
    run .free (writeBlock as cs) = behind (blockTokens as) (run .free cs)
  | [], _ => rfl
  | a :: as, h => by
      have hfurther := run_further cs fun b hb => h b (List.mem_cons_of_mem a hb)
      rw [writeBlock, run_blank, run_mark (by decide), run_attribute (h a List.mem_cons_self),
        hfurther, behind_behind, behind_behind]
      rfl

theorem run_node {n : Node} (h : AllLegible n.attributes) (cs : List Char) :
    run .free (n.write cs) = behind n.toTokens (run .free cs) := by
  unfold Node.write
  rw [run_indent, run_name, run_block _ h, run_mark (by decide), run_lineEnd, behind_behind,
    behind_behind]
  rfl

theorem letter_of_mem_toString {n : Nat} {c : Char} (h : c ∈ (toString n).toList) :
    letter c = true := by
  rw [Nat.toString_eq_repr, Nat.toList_repr] at h
  have hdigit := Nat.isDigit_of_mem_toDigits (by decide) (by decide) h
  simp only [letter, Char.isAlphanum, hdigit, Bool.or_true, Bool.true_or]

/-- A name that ends in a number is one bare word. -/
theorem run_number {c : Char} (hc : letter c = false) (front : String) (n : Nat) (cs : List Char) :
    run (.word front.toList) (writeText (toString n) (c :: cs)) =
      behind [numberToken front n] (run .free (c :: cs)) := by
  unfold writeText
  rw [run_word_of_letters fun d hd => letter_of_mem_toString hd, run_word_end hc]
  rfl

theorem run_boxName {c : Char} (hc : letter c = false) (n : Nat) (cs : List Char) :
    run .free (writeBoxName n (c :: cs)) = behind [numberToken "box" n] (run .free (c :: cs)) := by
  have hfront : run .free "box".toList = ([], .word "box".toList) := by decide
  unfold writeBoxName
  rw [run_text _ hfront, run_number hc]
  rfl

/-- No letter follows where attributes may follow. -/
theorem writeBlock_eq_cons (cs : List Char) : ∀ as : List Attribute,
    ∃ c ds, letter c = false ∧ writeBlock as ('\n' :: cs) = c :: ds
  | [] => ⟨'\n', cs, by decide, rfl⟩
  | _ :: _ => ⟨' ', _, by decide, rfl⟩

theorem run_caption (depth : Nat) (cs : List Char) : ∀ caption : Option String,
    run .free (writeCaption depth caption cs) = behind (captionTokens caption) (run .free cs)
  | none => rfl
  | some s => by
      have hfront : run .free " label=".toList = ([bare "label", .mark '='], .free) := by decide
      have hback : run .free " labeljust=\"l\"".toList = (setText "labeljust" "l", .free) := by
        decide
      unfold writeCaption
      rw [run_indent, run_text _ hfront, run_quoted, run_text _ hback, run_lineEnd, behind_behind,
        behind_behind]
      rfl

theorem run_ties {ties : List Attribute} (h : AllLegible ties) (depth number : Nat)
    (source target : String) (cs : List Char) :
    run .free (writeTies depth number source target ties cs) =
      behind (tieTokens number source target ties) (run .free cs) := by
  have hmiddle : run .free " -- \x7b".toList =
      ([.mark '-', .mark '-', .mark '\x7b'], .free) := by decide
  have hhead : ∀ ds, writeText " -- \x7b" ds = ' ' :: ("-- \x7b".toList ++ ds) := fun _ => rfl
  unfold writeTies
  rw [run_indent, hhead, run_boxName (by decide), ← hhead, run_text _ hmiddle, run_name,
    run_mark (by decide), run_name, run_mark (by decide), run_block _ h, run_lineEnd]
  simp only [behind_behind]
  rfl

mutual

/-- **A statement is read as its tokens**, whatever stands behind it. -/
theorem run_write (depth : Nat) (cs : List Char) : ∀ s : Statement,
    (∀ x ∈ s.inOrder, AllLegible x.attributes) →
    run .free (s.write depth cs) = behind s.toTokens (run .free cs)
  | .edge source target attributes, h => by
      have hown : AllLegible attributes := h _ List.mem_cons_self
      have hmiddle : run .free " -- ".toList = ([.mark '-', .mark '-'], .free) := by decide
      rw [Statement.write, run_indent, run_name, run_text _ hmiddle, run_name, run_block _ hown,
        run_lineEnd]
      simp only [behind_behind]
      rfl
  | .box number attributes source target ties, h => by
      obtain ⟨hattributes, hties⟩ := legible_of_append (h _ List.mem_cons_self)
      obtain ⟨c, ds, hc, hblock⟩ :=
        writeBlock_eq_cons (writeTies depth number source target ties cs) attributes
      rw [Statement.write, run_indent, hblock, run_boxName hc, ← hblock, run_block _ hattributes,
        run_lineEnd, run_ties hties]
      simp only [behind_behind]
      rfl
  | .cluster number caption body, h => by
      have hbody := run_writeAll (depth + 1) (indent depth ('\x7d' :: '\n' :: cs)) body
        fun x hx => h x (List.mem_cons_of_mem _ hx)
      have hfront : run .free "subgraph cluster_".toList =
          ([bare "subgraph"], .word "cluster_".toList) := by decide
      rw [Statement.write, run_indent, run_text _ hfront, run_number (by decide),
        run_mark (by decide), run_lineEnd, run_caption, hbody, run_indent, run_mark (by decide),
        run_lineEnd]
      simp only [behind_behind]
      rfl

theorem run_writeAll (depth : Nat) (cs : List Char) : ∀ ss : List Statement,
    (∀ x ∈ Statement.allInOrder ss, AllLegible x.attributes) →
    run .free (Statement.writeAll depth ss cs) =
      behind (Statement.allToTokens ss) (run .free cs)
  | [], _ => rfl
  | s :: ss, h => by
      have hs := run_write depth (Statement.writeAll depth ss cs) s
        fun x hx => h x (List.mem_append_left _ hx)
      have hss := run_writeAll depth cs ss fun x hx => h x (List.mem_append_right _ hx)
      rw [Statement.writeAll, hs, hss, behind_behind]
      rfl

end

theorem run_writeNodes (cs : List Char) : ∀ nodes : List Node,
    (∀ n ∈ nodes, AllLegible n.attributes) →
    run .free (nodes.foldr Node.write cs) = behind (nodes.flatMap Node.toTokens) (run .free cs)
  | [], _ => rfl
  | n :: nodes, h => by
      have ih := run_writeNodes cs nodes fun m hm => h m (List.mem_cons_of_mem n hm)
      rw [List.foldr_cons, run_node (h n List.mem_cons_self), ih, behind_behind]
      rfl

/-- The tokens of a line by itself. -/
def lineTokens (line : String) : List Token :=
  (run .free (line.toList ++ ['\n'])).1

/-- Lines that end between tokens are read one by one. -/
theorem run_lines (cs : List Char) : ∀ lines : List String,
    (∀ l ∈ lines, (run .free (l.toList ++ ['\n'])).2 = .free) →
    run .free (lines.foldr (fun line rest => indent 0 (writeText line ('\n' :: rest))) cs) =
      behind (lines.flatMap lineTokens) (run .free cs)
  | [], _ => rfl
  | l :: lines, h => by
      have ih := run_lines cs lines fun l' hl' => h l' (List.mem_cons_of_mem l hl')
      have hline : ∀ ds, run .free (writeText l ('\n' :: ds)) =
          behind (lineTokens l) (run .free ds) := by
        intro ds
        show run .free (l.toList ++ (['\n'] ++ ds)) = _
        rw [← List.append_assoc, run_append, h l List.mem_cons_self]
        rfl
      rw [List.foldr_cons, run_indent, hline, ih, behind_behind]
      rfl

/-- **The tokens of a whole graph.** -/
def Graph.toTokens (g : Graph) : List Token :=
  g.nodes.flatMap Node.toTokens ++ (Statement.allToTokens g.statements ++ [.mark '\x7d'])

theorem lex_print {g : Graph} (h : g.Legible) :
    lex g.print.toList = some (preamble ++ g.toTokens) := by
  have hbanner : run .free banner.toList = ([bare "graph", .mark '\x7b'], .free) := by
    decide +kernel
  have hends : ∀ l ∈ defaults, (run .free (l.toList ++ ['\n'])).2 = .free := by decide +kernel
  have hsettings : [bare "graph", .mark '\x7b'] ++ defaults.flatMap lineTokens = preamble := by
    decide +kernel
  have hnodes : ∀ cs, run .free (writeNodes g.nodes cs) =
      behind (g.nodes.flatMap Node.toTokens) (run .free cs) := by
    intro cs
    unfold writeNodes
    split
    · rename_i hnil
      rw [hnil]
      rfl
    · rw [run_writeNodes _ _ h.nodes, run_lineEnd]
  have hrun : run .free (g.write []) = (preamble ++ g.toTokens, .free) := by
    unfold Graph.write writeDefaults
    rw [run_text _ hbanner, run_lines _ _ hends, run_lineEnd, hnodes,
      run_writeAll _ _ _ h.statements, run_mark (by decide), ← hsettings]
    simp only [behind_behind]
    show (_ ++ [], Mode.free) = _
    rw [List.append_nil]
    simp only [Graph.toTokens, List.append_assoc]
  rw [Graph.print, String.toList_ofList, lex, hrun]
  show some (_ ++ []) = _
  rw [List.append_nil]

/-! ## 4. From the tokens to the events -/

mutual

/-- The events of a statement. -/
def Statement.toEvents : Statement → List Event
  | .edge source target attributes => [.whole (.edge source target attributes)]
  | .box number attributes source target ties =>
    [.whole (.box number attributes source target ties)]
  | .cluster number caption body =>
    .opening number caption :: (Statement.allToEvents body ++ [.closing])

/-- The events of statements. -/
def Statement.allToEvents : List Statement → List Event
  | [] => []
  | s :: ss => Statement.toEvents s ++ Statement.allToEvents ss

end

/-- Tokens that do not go on with what may be left out: attributes in brackets, and the text at
    the top of a cluster. -/
def Fresh : List Token → Prop
  | .mark '[' :: _ => False
  | .word _ :: .mark '=' :: _ => False
  | _ => True

theorem Statement.fresh (ts : List Token) : ∀ s : Statement, Fresh (s.toTokens ++ ts)
  | .edge _ _ _ => trivial
  | .box _ [] _ _ _ => trivial
  | .box _ (_ :: _) _ _ _ => trivial
  | .cluster _ _ _ => trivial

theorem Statement.allFresh {ts : List Token} (h : Fresh ts) : ∀ ss : List Statement,
    Fresh (Statement.allToTokens ss ++ ts)
  | [] => h
  | s :: ss => by
      rw [Statement.allToTokens, List.append_assoc]
      exact s.fresh _

theorem nameOf_escape (name : String) : nameOf (escape name.toList) = name := by
  rw [nameOf, unescape_escape, String.ofList_toList]

theorem attributeOf_escape {a : Attribute} (h : a.Legible) :
    attributeOf a.name.toList (escapeLines a.lines) = a := by
  unfold attributeOf
  rw [String.ofList_toList, readLines_escapeLines h.lines_ne h.lines_clean]

theorem attributes?_further (ts : List Token) : ∀ (a : Attribute) (as : List Attribute),
    AllLegible (a :: as) →
    attributes? (a.toTokens ++ furtherTokens as ++ ts) = some (a :: as, ts)
  | a, [], h => by
      show some ([attributeOf a.name.toList (escapeLines a.lines)], ts) = _
      rw [attributeOf_escape (h a List.mem_cons_self)]
  | a, b :: as, h => by
      have ih := attributes?_further ts b as
        fun x hx => h x (List.mem_cons_of_mem a hx)
      show (attributes? (b.toTokens ++ furtherTokens as ++ ts)).map
        (fun read => (attributeOf a.name.toList (escapeLines a.lines) :: read.1, read.2)) = _
      rw [ih, attributeOf_escape (h a List.mem_cons_self)]
      rfl

theorem block?_of_fresh {ts : List Token} (h : Fresh ts) : block? ts = some ([], ts) := by
  unfold block?
  split
  · exact absurd h id
  · rfl

theorem block?_tokens {ts : List Token} (hts : Fresh ts) : ∀ {as : List Attribute},
    AllLegible as → block? (blockTokens as ++ ts) = some (as, ts)
  | [], _ => block?_of_fresh hts
  | a :: as, h => attributes?_further ts a as h

theorem captionOf_tokens {ts : List Token} (hts : Fresh ts) : ∀ caption : Option String,
    captionOf (captionTokens caption ++ ts) = (caption, ts)
  | none => by
      show captionOf ts = _
      unfold captionOf
      split
      · exact absurd hts id
      · rfl
  | some s => by
      have hread : captionOf (captionTokens (some s) ++ ts) =
          if "label".toList = "label".toList ∧ "labeljust".toList = "labeljust".toList ∧
            "l".toList = "l".toList then (some (nameOf (escape s.toList)), ts)
          else (none, captionTokens (some s) ++ ts) := rfl
      rw [hread, if_pos ⟨rfl, rfl, rfl⟩, nameOf_escape]

theorem isPrefixOf?_append {α : Type} [BEq α] [LawfulBEq α] (m : List α) : ∀ l : List α,
    l.isPrefixOf? (l ++ m) = some m
  | [] => rfl
  | x :: l => by
      show (if x == x then l.isPrefixOf? (l ++ m) else none) = some m
      rw [if_pos (beq_self_eq_true x)]
      exact isPrefixOf?_append m l

theorem number?_toString (n : Nat) : number? (toString n).toList = some n := by
  have hdigits : Nat.ofDigitChars 10 (toString n).toList 0 = n := by
    rw [Nat.toString_eq_repr, Nat.toList_repr, Nat.ofDigitChars_ten_toDigits]
  rw [number?, hdigits, if_pos rfl]

theorem numberBehind?_append (front : String) (n : Nat) :
    numberBehind? front (front.toList ++ (toString n).toList) = some n := by
  rw [numberBehind?, isPrefixOf?_append]
  exact number?_toString n

theorem ends?_tie (number : Nat) (source target : String) (ties : List Attribute)
    (ts : List Token) :
    ends? ("box".toList ++ (toString number).toList) (tieTokens number source target ties ++ ts) =
      some ((source, target), blockTokens ties ++ ts) := by
  have hread : ends? ("box".toList ++ (toString number).toList)
      (tieTokens number source target ties ++ ts) =
      some ((nameOf (escape source.toList), nameOf (escape target.toList)),
        blockTokens ties ++ ts) := if_pos rfl
  rw [hread, nameOf_escape, nameOf_escape]

theorem event?_node {n : Node} (h : AllLegible n.attributes) (ts : List Token) :
    event? (n.toTokens ++ ts) = some (.node n, ts) := by
  have hfresh : Fresh (.mark ';' :: ts) := trivial
  have hblock := block?_tokens hfresh h
  -- neither a bracket nor the semicolon can be taken for an edge
  have hline : nameEvent? n.name (blockTokens n.attributes ++ .mark ';' :: ts) =
      (block? (blockTokens n.attributes ++ .mark ';' :: ts)).bind (nodeEvent? n.name) := by
    cases n.attributes <;> rfl
  unfold Node.toTokens
  rw [List.cons_append, List.append_assoc]
  show nameEvent? (nameOf (escape n.name.toList)) (blockTokens n.attributes ++ .mark ';' :: ts) = _
  rw [nameOf_escape, hline, hblock]
  rfl

theorem event?_edge {attributes : List Attribute} (h : AllLegible attributes)
    (source target : String) {ts : List Token} (hts : Fresh ts) :
    event? ((Statement.edge source target attributes).toTokens ++ ts) =
      some (.whole (.edge source target attributes), ts) := by
  show (block? (blockTokens attributes ++ ts)).map (fun read =>
    (Event.whole (.edge (nameOf (escape source.toList)) (nameOf (escape target.toList)) read.1),
      read.2)) = _
  rw [block?_tokens hts h, nameOf_escape, nameOf_escape]
  rfl

theorem event?_box {attributes ties : List Attribute} (h : AllLegible attributes)
    (hties : AllLegible ties) (number : Nat) (source target : String) {ts : List Token}
    (hts : Fresh ts) :
    event? ((Statement.box number attributes source target ties).toTokens ++ ts) =
      some (.whole (.box number attributes source target ties), ts) := by
  have htie : Fresh (tieTokens number source target ties ++ ts) := trivial
  have hword : ("box".toList ++ (toString number).toList) ≠ "subgraph".toList :=
    fun e => absurd (List.cons.inj e).1 (by decide)
  rw [Statement.toTokens, List.cons_append, List.append_assoc, numberToken, event?, if_neg hword,
    boxEvent?]
  simp only [numberBehind?_append, block?_tokens htie h, ends?_tie, block?_tokens hts hties,
    Option.bind_eq_bind, Option.bind_some]
  rfl

theorem event?_cluster (number : Nat) (caption : Option String) {ts : List Token}
    (hts : Fresh ts) :
    event? ([bare "subgraph", numberToken "cluster_" number, .mark '\x7b'] ++
      (captionTokens caption ++ ts)) = some (.opening number caption, ts) := by
  show (numberBehind? "cluster_" ("cluster_".toList ++ (toString number).toList)).map (fun n =>
    (Event.opening n (captionOf (captionTokens caption ++ ts)).1,
      (captionOf (captionTokens caption ++ ts)).2)) = _
  rw [numberBehind?_append, captionOf_tokens hts]
  rfl

theorem events_of_event? {ts rest : List Token} {e : Event} (h : event? ts = some (e, rest)) :
    events ts = (events rest).map (e :: ·) := by
  cases ts with
  | nil => cases h
  | cons t ts =>
    rw [events]
    split
    · rename_i hnone
      rw [h] at hnone
      cases hnone
    · rename_i e' rest' hsome
      rw [h] at hsome
      cases hsome
      rfl

theorem map_append_append {α : Type} (l m : List α) (o : Option (List α)) :
    (o.map (m ++ ·)).map (l ++ ·) = o.map (l ++ m ++ ·) := by
  cases o with
  | none => rfl
  | some x => exact congrArg some (List.append_assoc l m x).symm

mutual

/-- **The tokens of a statement are cut into its events**, whatever stands behind them. -/
theorem events_toTokens {ts : List Token} (hts : Fresh ts) : ∀ s : Statement,
    (∀ x ∈ s.inOrder, AllLegible x.attributes) →
    events (s.toTokens ++ ts) = (events ts).map (s.toEvents ++ ·)
  | .edge source target attributes, h => by
      have hown : AllLegible attributes := h _ List.mem_cons_self
      exact events_of_event? (event?_edge hown source target hts)
  | .box number attributes source target ties, h => by
      obtain ⟨hattributes, hties⟩ := legible_of_append (h _ List.mem_cons_self)
      exact events_of_event? (event?_box hattributes hties number source target hts)
  | .cluster number caption body, h => by
      have hclosing : event? (.mark '\x7d' :: ts) = some (.closing, ts) := rfl
      have hend : Fresh (.mark '\x7d' :: ts) := trivial
      have hbody := events_allToTokens hend body
        fun x hx => h x (List.mem_cons_of_mem _ hx)
      have hopening := event?_cluster number caption (Statement.allFresh hend body)
      rw [Statement.toTokens, List.append_assoc, List.append_assoc, List.append_assoc]
      show events (_ ++ (captionTokens caption ++
        (Statement.allToTokens body ++ .mark '\x7d' :: ts))) = _
      rw [events_of_event? hopening, hbody, events_of_event? hclosing]
      show (((events ts).map ([.closing] ++ ·)).map (Statement.allToEvents body ++ ·)).map
        ([.opening number caption] ++ ·) = _
      rw [map_append_append, map_append_append]
      rfl

theorem events_allToTokens {ts : List Token} (hts : Fresh ts) : ∀ ss : List Statement,
    (∀ x ∈ Statement.allInOrder ss, AllLegible x.attributes) →
    events (Statement.allToTokens ss ++ ts) = (events ts).map (Statement.allToEvents ss ++ ·)
  | [], _ => by
      show events ts = (events ts).map ([] ++ ·)
      cases events ts <;> rfl
  | s :: ss, h => by
      have hs := events_toTokens (Statement.allFresh hts ss) s
        fun x hx => h x (List.mem_append_left _ hx)
      have hss := events_allToTokens hts ss fun x hx => h x (List.mem_append_right _ hx)
      rw [Statement.allToTokens, List.append_assoc, hs, hss, map_append_append]
      rfl

end

theorem events_nodes (ts : List Token) : ∀ nodes : List Node,
    (∀ n ∈ nodes, AllLegible n.attributes) →
    events (nodes.flatMap Node.toTokens ++ ts) = (events ts).map (nodes.map Event.node ++ ·)
  | [], _ => by
      show events ts = (events ts).map ([] ++ ·)
      cases events ts <;> rfl
  | n :: nodes, h => by
      have ih := events_nodes ts nodes fun m hm => h m (List.mem_cons_of_mem n hm)
      rw [List.flatMap_cons, List.append_assoc,
        events_of_event? (event?_node (h n List.mem_cons_self) _), ih]
      exact map_append_append [Event.node n] _ _

theorem events_graph {g : Graph} (h : g.Legible) :
    events g.toTokens = some (g.nodes.map Event.node ++
      (Statement.allToEvents g.statements ++ [.closing])) := by
  have hend : event? [.mark '\x7d'] = some (.closing, []) := rfl
  have hnone : events [] = some [] := by rw [events]
  have hfresh : Fresh [.mark '\x7d'] := trivial
  rw [Graph.toTokens, events_nodes _ _ h.nodes, events_allToTokens hfresh _ h.statements,
    events_of_event? hend, hnone]
  rfl

/-! ## 5. From the events to the graph -/

mutual

/-- **The events of a statement put it behind what has been read.** -/
theorem nest_toEvents (es : List Event) : ∀ (s : Statement) (fs : List Frame)
    (done : List Statement), nest fs done (s.toEvents ++ es) = nest fs (done ++ [s]) es
  | .edge _ _ _, fs, done => by
      cases fs <;> rfl
  | .box _ _ _ _ _, fs, done => by
      cases fs <;> rfl
  | .cluster number caption body, fs, done => by
      have hbody := nest_allToEvents (.closing :: es) body (⟨number, caption, done⟩ :: fs) []
      have hopening : nest fs done (.opening number caption ::
          (Statement.allToEvents body ++ .closing :: es)) =
          nest (⟨number, caption, done⟩ :: fs) []
            (Statement.allToEvents body ++ .closing :: es) := by
        cases fs <;> rfl
      rw [Statement.toEvents, List.cons_append, List.append_assoc]
      show nest fs done (.opening number caption ::
        (Statement.allToEvents body ++ .closing :: es)) = _
      rw [hopening, hbody]
      rfl

theorem nest_allToEvents (es : List Event) : ∀ (ss : List Statement) (fs : List Frame)
    (done : List Statement), nest fs done (Statement.allToEvents ss ++ es) = nest fs (done ++ ss) es
  | [], fs, done => by
      rw [List.append_nil]
      rfl
  | s :: ss, fs, done => by
      have hs := nest_toEvents (Statement.allToEvents ss ++ es) s fs done
      have hss := nest_allToEvents es ss fs (done ++ [s])
      rw [Statement.allToEvents, List.append_assoc, hs, hss, List.append_assoc]
      rfl

end

/-- The events of statements begin with no node. -/
theorem declarations_allToEvents (es : List Event) : ∀ ss : List Statement,
    declarations (Statement.allToEvents ss ++ .closing :: es) =
      ([], Statement.allToEvents ss ++ .closing :: es)
  | [] => rfl
  | .edge _ _ _ :: _ => rfl
  | .box _ _ _ _ _ :: _ => rfl
  | .cluster _ _ _ :: _ => rfl

theorem declarations_nodes {es : List Event} (h : declarations es = ([], es)) :
    ∀ nodes : List Node, declarations (nodes.map Event.node ++ es) = (nodes, es)
  | [] => h
  | n :: nodes => by
      rw [List.map_cons, List.cons_append, declarations, declarations_nodes h nodes]

/-- **The reader undoes the printer**, for every graph whose attributes are legible. -/
theorem Graph.read?_print {g : Graph} (h : g.Legible) : Graph.read? g.print = some g := by
  have hnodes := declarations_nodes (declarations_allToEvents [] g.statements) g.nodes
  have hnest : nest [] [] (Statement.allToEvents g.statements ++ [.closing]) =
      some g.statements := nest_allToEvents [.closing] g.statements [] []
  unfold Graph.read?
  simp only [lex_print h, isPrefixOf?_append, events_graph h, hnodes, hnest, Option.bind_eq_bind,
    Option.bind_some]
  rfl

end SequenceChart.Dot
