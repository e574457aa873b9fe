import SequenceChart.Proofs.Rendering
import SequenceChart.Proofs.Words

/-!
# What the width of a rendering touches

The width is meant for the texts that a chart chooses, its labels and colours. But all attributes
are wrapped alike, the words that drawing chooses as well (`rvee`, `dashed`, ...), and a width with
fewer columns than such a word cuts it.

* `Arc.words` and `tieWords` are the words that an arc asks for, and `ShowsWords` says of a
  statement that its attributes hold these words, laid out in a given way;
* `Graph.hide` leaves out the texts of some attributes, so that two graphs can be compared but for
  them. `Chart.hide_graph_iff` says when the graphs of a chart at two widths are the same then;
* `words_whole_iff` says for every chart which widths leave its words whole, and which two widths
  draw it alike but for labels and colours.
-/

namespace SequenceChart

open SequenceChart.Dot

/-! ## 1. Words of the drawing -/

/-- The attributes whose texts a chart chooses. -/
def Dot.textNames : List String :=
  ["label", "color", "fontcolor", "fillcolor"]

/-- The attributes whose values are words of the drawing. -/
def Dot.wordNames : List String :=
  ["style", "shape", "arrowhead", "arrowtail", "dir"]

/-- A word under the name of its attribute, if there is one. -/
def Dot.word (name : String) (value : Option String) : List (String × String) :=
  match value with
  | some w => [(name, w)]
  | none => []

/-- **The words that an arc asks for**, in the attributes of its edge or of its box. -/
def Arc.words (a : Arc) : List (String × String) :=
  word "style" (lineStyle? a.kind) ++
  match Category.ofKind a.kind with
  | .box => word "shape" (shape? a.kind)
  | .directional => word "arrowhead" (arrowhead? a.kind)
  | .bidirectional =>
    word "arrowhead" (arrowhead? a.kind) ++ word "arrowtail" (arrowhead? a.kind) ++
      [("dir", "both")]
  | .nondirectional => [("dir", "none")]
  | .unknown => []

/-- The words of the ties of a box. -/
def Dot.tieWords : List (String × String) :=
  [("style", "dotted"), ("dir", "none")]

/-- The words of an arc, with those of its ties if it is drawn as a box. -/
def Arc.allWords (a : Arc) : List (String × String) :=
  a.words ++ if Category.ofKind a.kind = .box then tieWords else []

/-- The words of the arcs that a chart draws. -/
def Chart.words (c : Chart) : List String :=
  c.drawn.flatMap fun a => a.allWords.map Prod.snd

/-- The attribute of a word that is laid out in lines. -/
def Dot.laidOut (lay : List Char → List (List Char)) (w : String × String) : Attribute :=
  ⟨w.1, lay w.2.toList⟩

/-- The attribute holds a word of the drawing. -/
def Dot.Attribute.isWord (a : Attribute) : Bool :=
  wordNames.contains a.name

/-- **A statement shows the words of an arc**, laid out in a given way: in the attributes that hold
    words these stand in order, and a box has nothing else in its ties. -/
inductive ShowsWords (lay : List Char → List (List Char)) (a : Arc) : Statement → Prop where
  | edge {source target : String} {attributes : List Attribute}
      (hkind : Category.ofKind a.kind ≠ .box)
      (hwords : attributes.filter Attribute.isWord = a.words.map (laidOut lay)) :
      ShowsWords lay a (.edge source target attributes)
  | box {n : Nat} {source target : String} {attributes ties : List Attribute}
      (hkind : Category.ofKind a.kind = .box)
      (hwords : attributes.filter Attribute.isWord = a.words.map (laidOut lay))
      (hties : ties = tieWords.map (laidOut lay)) :
      ShowsWords lay a (.box n attributes source target ties)

/-- All words that drawing knows. -/
def Dot.vocabulary : List String :=
  arrowheads.map Prod.snd ++ shapes.map Prod.snd ++ lineStyles.map Prod.snd ++
    ["dotted", "none", "both"]

theorem lookup_mem_values {l : List (String × String)} {k v : String} (h : l.lookup k = some v) :
    v ∈ l.map Prod.snd := by
  obtain ⟨l₁, l₂, rfl, _⟩ := List.lookup_eq_some_iff.mp h
  simp

theorem mem_word {name : String} {value : Option String} {q : String × String}
    (h : q ∈ word name value) : q.1 = name ∧ value = some q.2 := by
  unfold word at h
  split at h
  · rw [List.mem_singleton] at h
    rw [h]
    exact ⟨rfl, rfl⟩
  · cases h

/-- The words of the tables are in the vocabulary. -/
theorem mem_vocabulary_of_lookup {kind w : String} (h : arrowhead? kind = some w ∨
    shape? kind = some w ∨ lineStyle? kind = some w) : w ∈ vocabulary := by
  unfold vocabulary
  simp only [List.mem_append]
  rcases h with h | h | h
  · exact .inl (.inl (.inl (lookup_mem_values h)))
  · exact .inl (.inl (.inr (lookup_mem_values h)))
  · exact .inl (.inr (lookup_mem_values h))

theorem Arc.mem_words {a : Arc} {q : String × String} (h : q ∈ a.words) :
    q.1 ∈ wordNames ∧ q.2 ∈ vocabulary := by
  have hstyle : ∀ {name}, name ∈ wordNames → q ∈ word name (lineStyle? a.kind) →
      q.1 ∈ wordNames ∧ q.2 ∈ vocabulary := fun hname hq =>
    ⟨(mem_word hq).1 ▸ hname, mem_vocabulary_of_lookup (.inr (.inr (mem_word hq).2))⟩
  have hshape : ∀ {name}, name ∈ wordNames → q ∈ word name (shape? a.kind) →
      q.1 ∈ wordNames ∧ q.2 ∈ vocabulary := fun hname hq =>
    ⟨(mem_word hq).1 ▸ hname, mem_vocabulary_of_lookup (.inr (.inl (mem_word hq).2))⟩
  have harrow : ∀ {name}, name ∈ wordNames → q ∈ word name (arrowhead? a.kind) →
      q.1 ∈ wordNames ∧ q.2 ∈ vocabulary := fun hname hq =>
    ⟨(mem_word hq).1 ▸ hname, mem_vocabulary_of_lookup (.inl (mem_word hq).2)⟩
  have hfixed : ∀ {w : String × String}, w.1 ∈ wordNames → w.2 ∈ vocabulary → q ∈ [w] →
      q.1 ∈ wordNames ∧ q.2 ∈ vocabulary := fun hname hword hq => by
    rw [List.mem_singleton.mp hq]
    exact ⟨hname, hword⟩
  unfold Arc.words at h
  rcases List.mem_append.mp h with h | h
  · exact hstyle (by decide) h
  · split at h
    · exact hshape (by decide) h
    · exact harrow (by decide) h
    · rcases List.mem_append.mp h with h | h
      · rcases List.mem_append.mp h with h | h
        · exact harrow (by decide) h
        · exact harrow (by decide) h
      · exact hfixed (by decide) (by decide) h
    · exact hfixed (by decide) (by decide) h
    · cases h

theorem Arc.mem_allWords {a : Arc} {q : String × String} (h : q ∈ a.allWords) :
    q.1 ∈ wordNames ∧ q.2 ∈ vocabulary := by
  have hties : ∀ q ∈ tieWords, q.1 ∈ wordNames ∧ q.2 ∈ vocabulary := by decide
  rcases List.mem_append.mp h with h | h
  · exact Arc.mem_words h
  · split at h
    · exact hties q h
    · cases h

/-- Every word of the vocabulary is a word of at most eleven lower-case letters. -/
theorem vocabulary_word {w : String} (h : w ∈ vocabulary) :
    Text.Word Text.Measure.display w.toList ∧ w.toList.length ≤ 11 := by
  have hall : ∀ w ∈ vocabulary, w.toList ≠ [] ∧ w.toList.all Char.isLower = true ∧
      w.toList.length ≤ 11 := by decide
  obtain ⟨hne, hlower, hlength⟩ := hall w h
  exact ⟨Text.lowercase_word hne hlower, hlength⟩

/-! ## 2. The figure of an arc -/

/-- The attributes with the texts that the chart chooses. Only the label of an edge is numbered. -/
def Arc.texts (width n : Nat) (a : Arc) : List Attribute :=
  commonAttributes width
    (if Category.ofKind a.kind = .box then a.label else some (numbered n a.label)) a.paint

/-- A word as an attribute. -/
theorem Dot.textAttribute_word (width : Nat) (name : String) {value : Option String}
    (h : ∀ w, value = some w → w ∈ vocabulary) : textAttribute width name value =
      (word name value).map (laidOut (Text.wrap Text.Measure.display width)) := by
  cases value with
  | none => rfl
  | some w =>
    have hne : w ≠ "" := by
      rintro rfl
      exact (vocabulary_word (h "" rfl)).1.ne_nil rfl
    rw [textAttribute_of_ne_empty width name hne]
    rfl

theorem Dot.textAttribute_lineStyle (width : Nat) (kind : String) :
    textAttribute width "style" (lineStyle? kind) =
      (word "style" (lineStyle? kind)).map (laidOut (Text.wrap Text.Measure.display width)) :=
  textAttribute_word width "style" fun _ h => mem_vocabulary_of_lookup (.inr (.inr h))

theorem Dot.textAttribute_arrowhead (width : Nat) (name kind : String) :
    textAttribute width name (arrowhead? kind) =
      (word name (arrowhead? kind)).map (laidOut (Text.wrap Text.Measure.display width)) :=
  textAttribute_word width name fun _ h => mem_vocabulary_of_lookup (.inl h)

theorem Dot.ties_eq (width : Nat) :
    textAttribute width "style" (some "dotted") ++ textAttribute width "dir" (some "none") =
      tieWords.map (laidOut (Text.wrap Text.Measure.display width)) := rfl

theorem Arc.figure_of_box (width n : Nat) {a : Arc} (h : Category.ofKind a.kind = .box) :
    a.figure width n = .box n
      (a.texts width n ++ a.words.map (laidOut (Text.wrap Text.Measure.display width)))
      a.source a.target (tieWords.map (laidOut (Text.wrap Text.Measure.display width))) := by
  have hshape : textAttribute width "shape" (shape? a.kind) =
      (word "shape" (shape? a.kind)).map (laidOut (Text.wrap Text.Measure.display width)) :=
    textAttribute_word width "shape" fun _ h => mem_vocabulary_of_lookup (.inr (.inl h))
  unfold Arc.figure Arc.texts Arc.words
  simp only [h, if_true, ties_eq, textAttribute_lineStyle, hshape, List.map_append,
    List.append_assoc]

theorem Arc.figure_of_not_box (width n : Nat) {a : Arc} (h : Category.ofKind a.kind ≠ .box) :
    a.figure width n = .edge a.source a.target
      (a.texts width n ++ a.words.map (laidOut (Text.wrap Text.Measure.display width))) := by
  have hboth : textAttribute width "dir" (some "both") =
      [("dir", "both")].map (laidOut (Text.wrap Text.Measure.display width)) := rfl
  have hnone : textAttribute width "dir" (some "none") =
      [("dir", "none")].map (laidOut (Text.wrap Text.Measure.display width)) := rfl
  unfold Arc.figure Arc.texts Arc.words
  rw [if_neg h]
  cases hkind : Category.ofKind a.kind with
  | box => exact absurd hkind h
  | directional =>
    simp only [heads, textAttribute_lineStyle, textAttribute_arrowhead, List.map_append,
      List.append_assoc]
  | bidirectional =>
    simp only [heads, textAttribute_lineStyle, textAttribute_arrowhead, hboth, List.map_append,
      List.append_assoc]
  | nondirectional =>
    simp only [heads, textAttribute_lineStyle, hnone, List.map_append, List.append_assoc]
  | unknown =>
    simp only [heads, textAttribute_lineStyle, List.append_nil]

/-! ## 3. The words in a statement -/

theorem Dot.textAttribute_no_word (width : Nat) {name : String} (h : name ∉ wordNames)
    (text : Option String) : (textAttribute width name text).filter Attribute.isWord = [] := by
  refine List.filter_eq_nil_iff.mpr fun a ha => ?_
  have hname : a.name = name := by
    unfold textAttribute at ha
    split at ha
    · cases ha
    · split at ha
      · cases ha
      · rw [List.mem_singleton.mp ha]
  unfold Attribute.isWord
  rw [hname, List.contains_iff_mem]
  exact h

theorem Arc.filter_attributes (width n : Nat) (a : Arc) (lay : List Char → List (List Char)) :
    (a.texts width n ++ a.words.map (laidOut lay)).filter Attribute.isWord =
      a.words.map (laidOut lay) := by
  have htexts : (a.texts width n).filter Attribute.isWord = [] := by
    have hnone : ∀ name ∈ textNames, name ∉ wordNames := by decide
    unfold Arc.texts commonAttributes
    simp only [List.filter_append]
    rw [textAttribute_no_word width (hnone _ (by decide)),
      textAttribute_no_word width (hnone _ (by decide)),
      textAttribute_no_word width (hnone _ (by decide)),
      textAttribute_no_word width (hnone _ (by decide))]
    rfl
  have hwords : (a.words.map (laidOut lay)).filter Attribute.isWord =
      a.words.map (laidOut lay) := by
    refine List.filter_eq_self.mpr fun x hx => ?_
    obtain ⟨q, hq, rfl⟩ := List.mem_map.mp hx
    exact List.contains_iff_mem.mpr (Arc.mem_words hq).1
  rw [List.filter_append, htexts, hwords]
  rfl

theorem map_laidOut_eq_iff {lay lay' : List Char → List (List Char)}
    {ws : List (String × String)} : ws.map (laidOut lay) = ws.map (laidOut lay') ↔
      ∀ q ∈ ws, lay q.2.toList = lay' q.2.toList := by
  rw [List.map_inj_left]
  refine forall₂_congr fun q _ => ⟨fun h => congrArg Attribute.lines h, fun h => ?_⟩
  exact congrArg (Attribute.mk q.1) h

/-- **The figure of an arc shows its words as they are wrapped**, and in no other way. -/
theorem Arc.figure_showsWords_iff (width n : Nat) (a : Arc) (lay : List Char → List (List Char)) :
    ShowsWords lay a (a.figure width n) ↔
      ∀ q ∈ a.allWords, Text.wrap Text.Measure.display width q.2.toList = lay q.2.toList := by
  by_cases hkind : Category.ofKind a.kind = .box
  · have hall : a.allWords = a.words ++ tieWords := by rw [Arc.allWords, if_pos hkind]
    rw [Arc.figure_of_box width n hkind, hall]
    simp only [List.mem_append, or_imp, forall_and, ← map_laidOut_eq_iff]
    constructor
    · intro h
      cases h with
      | box _ hwords hties =>
        rw [Arc.filter_attributes] at hwords
        exact ⟨hwords, hties⟩
    · rintro ⟨hwords, hties⟩
      exact .box hkind ((Arc.filter_attributes width n a _).trans hwords) hties
  · have hall : a.allWords = a.words := by rw [Arc.allWords, if_neg hkind, List.append_nil]
    rw [Arc.figure_of_not_box width n hkind, hall]
    simp only [← map_laidOut_eq_iff]
    constructor
    · intro h
      cases h with
      | edge _ hwords =>
        rw [Arc.filter_attributes] at hwords
        exact hwords
    · intro hwords
      exact .edge hkind ((Arc.filter_attributes width n a _).trans hwords)

/-! ## 4. Graphs without some of their texts -/

/-- The attribute without its lines, if it has one of these names. -/
def Dot.Attribute.hide (names : List String) (a : Attribute) : Attribute :=
  if a.name ∈ names then { a with lines := [] } else a

mutual

/-- The statement without the lines of the attributes of these names. -/
def Dot.Statement.hide (names : List String) : Statement → Statement
  | .edge source target attributes => .edge source target (attributes.map (·.hide names))
  | .box number attributes source target ties =>
    .box number (attributes.map (·.hide names)) source target (ties.map (·.hide names))
  | .cluster number caption body => .cluster number caption (Statement.hideAll names body)

/-- Statements without the lines of the attributes of these names. -/
def Dot.Statement.hideAll (names : List String) : List Statement → List Statement
  | [] => []
  | s :: ss => Statement.hide names s :: Statement.hideAll names ss

end

/-- **The graph without the lines of the attributes of these names.** Its nodes, its statements and
    their attributes stay in their places. -/
def Dot.Graph.hide (names : List String) (g : Graph) : Graph :=
  ⟨g.nodes.map fun n => ⟨n.name, n.attributes.map (·.hide names)⟩,
    Statement.hideAll names g.statements⟩

variable {names : List String}

theorem Dot.Statement.hideAll_append : ∀ ss ts : List Statement,
    Statement.hideAll names (ss ++ ts) = Statement.hideAll names ss ++ Statement.hideAll names ts
  | [], _ => rfl
  | s :: ss, ts => by
      rw [List.cons_append, Statement.hideAll, Statement.hideAll, Statement.hideAll_append ss ts,
        List.cons_append]

mutual

theorem Dot.Statement.inOrder_hide : ∀ s : Statement,
    (s.hide names).inOrder = s.inOrder.map (Statement.hide names)
  | .edge _ _ _ => rfl
  | .box _ _ _ _ _ => rfl
  | .cluster number caption body => by
      have hbody := Statement.allInOrder_hideAll body
      rw [Statement.hide, Statement.inOrder, Statement.inOrder, hbody]
      rfl

theorem Dot.Statement.allInOrder_hideAll : ∀ ss : List Statement,
    Statement.allInOrder (Statement.hideAll names ss) =
      (Statement.allInOrder ss).map (Statement.hide names)
  | [] => rfl
  | s :: ss => by
      have hs := Statement.inOrder_hide s
      have hss := Statement.allInOrder_hideAll ss
      rw [Statement.hideAll, Statement.allInOrder, Statement.allInOrder, hs, hss, List.map_append]

end

/-! ## 5. Two widths -/

variable (width other : Nat)

/-- The lines of a hidden attribute do not matter. -/
theorem Dot.hide_textAttribute {name : String} (h : name ∈ names) : ∀ text : Option String,
    (textAttribute width name text).map (·.hide names) =
      (textAttribute other name text).map (·.hide names)
  | none => rfl
  | some s => by
      by_cases hs : s = ""
      · rw [hs]
        rfl
      · rw [textAttribute_of_ne_empty width name hs, textAttribute_of_ne_empty other name hs]
        simp only [List.map_cons, List.map_nil, Attribute.hide, if_pos h]

theorem Dot.hide_commonAttributes (h : ∀ x ∈ textNames, x ∈ names) (label : Option String)
    (paint : Paint) : (commonAttributes width label paint).map (·.hide names) =
      (commonAttributes other label paint).map (·.hide names) := by
  have hlabel := hide_textAttribute width other (h "label" (by decide)) label
  have hline := hide_textAttribute width other (h "color" (by decide)) paint.line
  have htext := hide_textAttribute width other (h "fontcolor" (by decide)) paint.text
  have hfill := hide_textAttribute width other (h "fillcolor" (by decide)) paint.fill
  unfold commonAttributes
  simp only [List.map_append, hlabel, hline, htext, hfill]

/-- Words are laid out alike where they are shown. -/
def AlikeIn (names : List String) (width other : Nat) (ws : List (String × String)) : Prop :=
  ∀ q ∈ ws, q.1 ∉ names → Text.wrap Text.Measure.display width q.2.toList =
    Text.wrap Text.Measure.display other q.2.toList

theorem hide_words_iff (names : List String) (width other : Nat) (ws : List (String × String)) :
    (ws.map (laidOut (Text.wrap Text.Measure.display width))).map (·.hide names) =
        (ws.map (laidOut (Text.wrap Text.Measure.display other))).map (·.hide names) ↔
      AlikeIn names width other ws := by
  rw [List.map_map, List.map_map, List.map_inj_left]
  refine forall₂_congr fun q _ => ?_
  show Attribute.hide names (laidOut _ q) = Attribute.hide names (laidOut _ q) ↔ _
  unfold Attribute.hide laidOut
  by_cases hq : q.1 ∈ names
  · simp [hq]
  · simp [hq]

/-- The figures of an arc at two widths differ in hidden texts only, if its words are laid out
    alike. -/
theorem Arc.hide_figure_iff (h : ∀ x ∈ textNames, x ∈ names) (n : Nat) (a : Arc) :
    (a.figure width n).hide names = (a.figure other n).hide names ↔
      AlikeIn names width other a.allWords := by
  have htexts : (a.texts width n).map (·.hide names) = (a.texts other n).map (·.hide names) :=
    hide_commonAttributes width other h _ a.paint
  have hwords := hide_words_iff names width other a.words
  have hties := hide_words_iff names width other tieWords
  by_cases hkind : Category.ofKind a.kind = .box
  · have hall : AlikeIn names width other a.allWords ↔
        AlikeIn names width other a.words ∧ AlikeIn names width other tieWords := by
      unfold AlikeIn Arc.allWords
      rw [if_pos hkind]
      simp only [List.mem_append, or_imp, forall_and]
    rw [Arc.figure_of_box width n hkind, Arc.figure_of_box other n hkind, hall, ← hwords, ← hties]
    simp only [Statement.hide, List.map_append, htexts, Statement.box.injEq, true_and,
      List.append_cancel_left_eq]
  · have hall : a.allWords = a.words := by rw [Arc.allWords, if_neg hkind, List.append_nil]
    rw [Arc.figure_of_not_box width n hkind, Arc.figure_of_not_box other n hkind, hall, ← hwords]
    simp only [Statement.hide, List.map_append, htexts, Statement.edge.injEq, true_and,
      List.append_cancel_left_eq]

variable {width other}

mutual

/-- **The statements of an arc at two widths differ in hidden texts only**, if the words of all arcs
    drawn for it are laid out alike. -/
theorem Arc.hide_outline (htexts : ∀ x ∈ textNames, x ∈ names) (n : Nat) : ∀ a : Arc,
    (∀ b ∈ a.reached Arc.wellFormed, AlikeIn names width other b.allWords) →
    Statement.hideAll names (a.outline width n) = Statement.hideAll names (a.outline other n)
  | ⟨k, s, t, l, p, none⟩, h => by
      rw [Arc.outline_eq, Arc.outline_eq]
      by_cases hwell : (Arc.mk k s t l p none).wellFormed = true
      · rw [Arc.reached_of_pass Arc.wellFormed hwell] at h
        have hfigure := (Arc.hide_figure_iff width other htexts n _).mpr (h _ List.mem_cons_self)
        rw [if_pos hwell, if_pos hwell, Statement.hideAll, Statement.hideAll, hfigure]
        rfl
      · rw [if_neg hwell, if_neg hwell]
  | ⟨k, s, t, l, p, some rows⟩, h => by
      rw [Arc.outline_eq, Arc.outline_eq]
      by_cases hwell : (Arc.mk k s t l p (some rows)).wellFormed = true
      · rw [Arc.reached_of_pass Arc.wellFormed hwell] at h
        have hfigure := (Arc.hide_figure_iff width other htexts n _).mpr (h _ List.mem_cons_self)
        have hrows := Arc.hide_rowsOutline htexts (n + 1) rows
          fun b hb => h b (List.mem_cons_of_mem _ hb)
        rw [if_pos hwell, if_pos hwell, Statement.hideAll, Statement.hideAll, hfigure]
        simp only [Arc.frame, Statement.hideAll, Statement.hide, hrows]
      · rw [if_neg hwell, if_neg hwell]

theorem Arc.hide_rowsOutline (htexts : ∀ x ∈ textNames, x ∈ names) (n : Nat) : ∀ rows : List Row,
    (∀ b ∈ rows.flatten.flatMap (Arc.reached Arc.wellFormed),
      AlikeIn names width other b.allWords) →
    Statement.hideAll names (Arc.rowsOutline width n rows) =
      Statement.hideAll names (Arc.rowsOutline other n rows)
  | [], _ => rfl
  | row :: rows, h => by
      rw [List.flatten_cons, List.flatMap_append] at h
      have hrow := Arc.hide_rowOutline htexts n row fun b hb => h b (List.mem_append_left _ hb)
      have hrows := Arc.hide_rowsOutline htexts (n + drawnAmong row) rows
        fun b hb => h b (List.mem_append_right _ hb)
      rw [Arc.rowsOutline, Arc.rowsOutline, Statement.hideAll_append, Statement.hideAll_append,
        hrow, hrows]

theorem Arc.hide_rowOutline (htexts : ∀ x ∈ textNames, x ∈ names) (n : Nat) : ∀ row : Row,
    (∀ b ∈ row.flatMap (Arc.reached Arc.wellFormed), AlikeIn names width other b.allWords) →
    Statement.hideAll names (Arc.rowOutline width n row) =
      Statement.hideAll names (Arc.rowOutline other n row)
  | [], _ => rfl
  | a :: row, h => by
      rw [List.flatMap_cons] at h
      have ha := Arc.hide_outline htexts n a fun b hb => h b (List.mem_append_left _ hb)
      have hrow := Arc.hide_rowOutline htexts (n + a.drawnCount) row
        fun b hb => h b (List.mem_append_right _ hb)
      rw [Arc.rowOutline, Arc.rowOutline, Statement.hideAll_append, Statement.hideAll_append, ha,
        hrow]

end

/-- Headings that differ in hidden texts only have figures that do. -/
theorem hide_headingsFrom : ∀ (arcs : List Arc) (n : Nat),
    (headingsFrom width n arcs).map (Statement.hide names) =
      (headingsFrom other n arcs).map (Statement.hide names) →
    ∀ p ∈ arcs.zipIdx n, (p.1.figure width p.2).hide names = (p.1.figure other p.2).hide names
  | [], _, _, _, hp => absurd hp List.not_mem_nil
  | a :: arcs, n, h, p, hp => by
      rw [headingsFrom_cons, headingsFrom_cons, List.map_append, List.map_append] at h
      unfold Arc.headings at h
      rw [List.map_cons, List.map_cons, List.cons_append, List.cons_append] at h
      -- behind the figure stands at most a cluster, which is the same at both widths
      obtain ⟨hfigure, hrest⟩ := List.cons.inj h
      rcases List.mem_cons.mp hp with rfl | hp
      · exact hfigure
      · exact hide_headingsFrom arcs (n + 1) (List.append_cancel_left hrest) p hp

/-- **When the graphs of a chart at two widths differ in hidden texts only.** -/
theorem Chart.hide_graph_iff (htexts : ∀ x ∈ textNames, x ∈ names) (c : Chart) :
    (c.graph width).hide names = (c.graph other).hide names ↔
      ∀ a ∈ c.drawn, AlikeIn names width other a.allWords := by
  constructor
  · intro h a ha
    have horder := congrArg (fun g : Graph => Statement.allInOrder g.statements) h
    simp only [Graph.hide, Statement.allInOrder_hideAll, Chart.inOrder_graph] at horder
    obtain ⟨n, hp⟩ := exists_zipIdx_of_mem ha 1
    exact (Arc.hide_figure_iff width other htexts n a).mp (hide_headingsFrom _ 1 horder _ hp)
  · intro h
    have hnodes : (c.graph width).nodes.map
          (fun n => Node.mk n.name (n.attributes.map (·.hide names))) =
        (c.graph other).nodes.map fun n => ⟨n.name, n.attributes.map (·.hide names)⟩ := by
      show (c.entities.map (Entity.node width)).map _ = (c.entities.map (Entity.node other)).map _
      rw [List.map_map, List.map_map]
      refine List.map_congr_left fun e _ => ?_
      exact congrArg (Node.mk e.name) (hide_commonAttributes width other htexts e.label e.paint)
    have hstatements : Statement.hideAll names (c.graph width).statements =
        Statement.hideAll names (c.graph other).statements := by
      rw [Chart.graph_eq_outline, Chart.graph_eq_outline]
      refine Arc.hide_rowsOutline htexts 1 c.rows fun b hb => h b ?_
      rw [Chart.drawn, Chart.reached_eq]
      exact hb
    unfold Graph.hide
    rw [hnodes, hstatements]

/-! ## 6. Which widths leave the words whole -/

/-- Words under the names of texts only: all of them are shown. -/
theorem alikeIn_textNames_iff {a : Arc} : AlikeIn textNames width other a.allWords ↔
    ∀ w ∈ a.allWords.map Prod.snd, width = other ∨
      (Text.Fits width w.toList.length ∧ Text.Fits other w.toList.length) := by
  have hapart : ∀ name ∈ wordNames, name ∉ textNames := by decide
  constructor
  · intro h w hw
    obtain ⟨q, hq, rfl⟩ := List.mem_map.mp hw
    obtain ⟨hname, hword⟩ := Arc.mem_allWords hq
    exact (Text.wrap_word_eq_iff (vocabulary_word hword).1 width other).mp
      (h q hq (hapart q.1 hname))
  · intro h q hq _
    obtain ⟨_, hword⟩ := Arc.mem_allWords hq
    exact (Text.wrap_word_eq_iff (vocabulary_word hword).1 width other).mpr
      (h q.2 (List.mem_map_of_mem hq))

theorem alikeIn_all {a : Arc} : AlikeIn (textNames ++ wordNames) width other a.allWords :=
  fun _ hq hhidden => absurd (List.mem_append_right _ (Arc.mem_allWords hq).1) hhidden

theorem Arc.showsWords_whole_iff (n : Nat) (a : Arc) :
    ShowsWords (fun t => [t]) a (a.figure width n) ↔
      ∀ w ∈ a.allWords.map Prod.snd, Text.Fits width w.toList.length := by
  rw [Arc.figure_showsWords_iff]
  constructor
  · intro h w hw
    obtain ⟨q, hq, rfl⟩ := List.mem_map.mp hw
    have hword := (vocabulary_word (Arc.mem_allWords hq).2).1
    exact (Text.wrap_word_eq_self_iff hword width).mp (h q hq)
  · intro h q hq
    have hword := (vocabulary_word (Arc.mem_allWords hq).2).1
    exact (Text.wrap_word_eq_self_iff hword width).mpr (h q.2 (List.mem_map_of_mem hq))

theorem Chart.mem_words {c : Chart} {w : String} :
    w ∈ c.words ↔ ∃ a ∈ c.drawn, w ∈ a.allWords.map Prod.snd := List.mem_flatMap

/-- **What the width touches.** Whatever the width, a rendering has the same nodes and statements in
    the same order with the same attributes, and its words are those of the tables, wrapped. They
    stay whole exactly if the width has as many columns as each of them, and eleven columns always
    do; two widths draw a chart alike but for labels and colours exactly if they are the same or
    both leave its words whole. -/
theorem words_whole_iff (c : Chart) (width other : Nat) :
    let d := c.normal
    ∃ g g', Graph.read? (c.renderLenient width) = some g ∧
      Graph.read? (c.renderLenient other) = some g' ∧
      g.hide (textNames ++ wordNames) = g'.hide (textNames ++ wordNames) ∧
      Statement.allInOrder g.statements =
        (d.drawn.zipIdx 1).flatMap (fun p => p.1.figure width p.2 ::
          if p.1.container then [.cluster p.2 p.1.caption []] else []) ∧
      (∀ p ∈ d.drawn.zipIdx 1, ShowsWords (Text.wrap Text.Measure.display width) p.1
        (p.1.figure width p.2)) ∧
      ((∀ p ∈ d.drawn.zipIdx 1, ShowsWords (fun t => [t]) p.1 (p.1.figure width p.2)) ↔
        ∀ w ∈ d.words, Text.Fits width w.toList.length) ∧
      (g.hide textNames = g'.hide textNames ↔ width = other ∨
        ∀ w ∈ d.words, Text.Fits width w.toList.length ∧ Text.Fits other w.toList.length) ∧
      ∀ w ∈ d.words, w.toList.length ≤ 11 := by
  intro d
  refine ⟨d.graph width, d.graph other, c.read?_graph width, c.read?_graph other, ?_,
    d.inOrder_graph width, fun p _ => ?_, ?_, ?_, fun w hw => ?_⟩
  · exact (Chart.hide_graph_iff (fun _ h => List.mem_append_left _ h) d).mpr fun _ _ => alikeIn_all
  · exact (Arc.figure_showsWords_iff width p.2 p.1 _).mpr fun _ _ => rfl
  · constructor
    · intro h w hw
      obtain ⟨a, ha, hw⟩ := Chart.mem_words.mp hw
      obtain ⟨n, hp⟩ := exists_zipIdx_of_mem ha 1
      exact (Arc.showsWords_whole_iff n a).mp (h _ hp) w hw
    · intro h p hp
      refine (Arc.showsWords_whole_iff p.2 p.1).mpr fun w hw => h w ?_
      exact Chart.mem_words.mpr ⟨p.1, List.fst_mem_of_mem_zipIdx hp, hw⟩
  · rw [Chart.hide_graph_iff (fun _ h => h)]
    simp only [alikeIn_textNames_iff]
    constructor
    · intro h
      by_cases hsame : width = other
      · exact .inl hsame
      · refine .inr fun w hw => ?_
        obtain ⟨a, ha, hw⟩ := Chart.mem_words.mp hw
        exact (h a ha w hw).resolve_left hsame
    · rintro (hsame | hfits) a ha w hw
      · exact .inl hsame
      · exact .inr (hfits w (Chart.mem_words.mpr ⟨a, ha, hw⟩))
  · obtain ⟨a, _, hw⟩ := Chart.mem_words.mp hw
    obtain ⟨q, hq, rfl⟩ := List.mem_map.mp hw
    exact (vocabulary_word (Arc.mem_allWords hq).2).2

/-- A chart with a single arc, whose head has a name of four letters. -/
def beeline : Chart where
  entities := [{ name := "a" }, { name := "b" }]
  rows := [[{ kind := "->", source := "a", target := "b" }]]

/-- At three columns the name of the arrow head is broken in two, and the renderings at three and at
    eighty columns differ in more than labels and colours. -/
theorem beeline_cut :
    let d := beeline.normal
    ∃ g g', Graph.read? (beeline.renderLenient 3) = some g ∧
      Graph.read? (beeline.renderLenient 80) = some g' ∧
      Statement.allInOrder g.statements =
        [.edge "a" "b" [⟨"label", ["(1)".toList]⟩, ⟨"arrowhead", ["rve".toList, "e".toList]⟩]] ∧
      ¬ (∀ p ∈ d.drawn.zipIdx 1, ShowsWords (fun t => [t]) p.1 (p.1.figure 3 p.2)) ∧
      g.hide textNames ≠ g'.hide textNames := by
  intro d
  let a : Arc := { kind := "->", source := "a", target := "b" }
  have hdrawn : d.drawn = [a] := by decide
  have hhead : "rvee" ∈ a.allWords.map Prod.snd := by decide
  have hwide : ¬ Text.Fits 3 "rvee".toList.length := by
    rintro (h | h) <;> revert h <;> decide
  have hcut : Text.wrap Text.Measure.display 3 "rvee".toList = ["rve".toList, "e".toList] := by
    rw [Text.wrap_word_of_not_fits (vocabulary_word (by decide)).1 hwide]
    exact congrArg _ (Text.wrap_word_of_fits (Text.lowercase_word (by decide) (by decide))
      (.inr (by decide)))
  have hnumber : Text.wrap Text.Measure.display 3 "(1)".toList = ["(1)".toList] := by
    have hplain : "(1)".toList.all fun c =>
        Text.breaking c = false && Text.charColumns c = 1 := by decide
    simp only [List.all_eq_true, Bool.and_eq_true, decide_eq_true_eq] at hplain
    have hword : Text.Word Text.Measure.display "(1)".toList :=
      ⟨⟨by decide, fun c hc => (hplain c hc).1, by decide, by decide⟩, rfl, by decide,
        fun c hc => (hplain c hc).2⟩
    exact Text.wrap_word_of_fits hword (.inr (by decide))
  have hfigure : a.figure 3 1 = .edge "a" "b"
      [⟨"label", ["(1)".toList]⟩, ⟨"arrowhead", ["rve".toList, "e".toList]⟩] := by
    rw [← hcut, ← hnumber]
    exact Arc.figure_of_not_box 3 1 (by decide)
  refine ⟨d.graph 3, d.graph 80, beeline.read?_graph 3, beeline.read?_graph 80, ?_, fun h => ?_,
    fun h => ?_⟩
  · rw [Chart.inOrder_graph, hdrawn, ← hfigure]
    rfl
  · have hshown := h (a, 1) (by rw [hdrawn]; exact List.mem_cons_self)
    exact hwide ((Arc.showsWords_whole_iff 1 _).mp hshown "rvee" hhead)
  · have halike := (Chart.hide_graph_iff (fun _ h => h) d).mp h a (hdrawn ▸ List.mem_cons_self)
    rcases alikeIn_textNames_iff.mp halike "rvee" hhead with hsame | hfits
    · cases hsame
    · exact hwide hfits.1

end SequenceChart
