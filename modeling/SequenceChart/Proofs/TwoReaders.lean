import SequenceChart.Format.Chart
import SequenceChart.Proofs.Skipping
import SequenceChart.Proofs.WrittenText

/-!
# Two readers of charts

A chart is read off a text in one pass, without a JSON value in between, or from the value of the
text. The one reader meets commas, closing brackets and values that nobody asks for; the other has
them behind it. This file shows that both come to the same decision, on every text that is JSON and
not only on those that were written here.

* `Answers` says that a reader of texts takes what a reader of values gives, or that both refuse;
  `Answers.bind` puts two answers behind each other;
* `answers_items`, `answers_members` and `answers_positions` compare the readers on lists, objects
  and records that are written as lists, `answers_level` on one value, and `answers_read` on every
  value that a text spells;
* `readers_agree` says it of whole texts that repeat no key. A value holds each key of an object
  once, so a text that repeats one says more than its value.
-/

namespace SequenceChart.Format

open SequenceChart.Json (Cause Fault Reader Rest Spells SpellsItems SpellsLevel SpellsMembers
  SpellsScalar Taken Takes nextItem nextKey skipSpace)

/-! ## 1. Answers -/

section Answers

variable {α β : Type} {cs ds rest : List Char}

/-- **A reader of texts answers what a reader of values answers**: it takes the value that the other
    gives and leaves this rest, or both refuse. -/
inductive Answers (x : Except Fault (Taken α cs)) : Except Cause α → List Char → Prop
  | taken {a : α} {rest : List Char} (h : Takes x a rest) : Answers x (.ok a) rest
  | refused {f : Fault} (h : x = .error f) (cause : Cause) (rest : List Char) :
      Answers x (.error cause) rest

variable {x : Except Fault (Taken α cs)} {y : Except Cause α}

theorem Answers.map (h : Answers x y rest) {f : Taken α cs → Taken β ds} {g : α → β}
    (hf : ∀ t, (f t).value = g t.value ∧ (f t).rest = t.rest) :
    Answers (x.map f) (y.map g) rest := by
  cases h with
  | taken h => exact .taken (h.map hf)
  | refused h cause _ => exact .refused (by rw [h]; rfl) cause rest

/-- The same value with the same rest, seen from another place in front of it. -/
theorem Answers.moved (h : Answers x y rest) {f : Taken α cs → Taken α ds}
    (hf : ∀ t, (f t).value = t.value ∧ (f t).rest = t.rest) : Answers (x.map f) y rest := by
  cases h with
  | taken h => exact .taken (h.map (g := id) hf)
  | refused h cause _ => exact .refused (by rw [h]; rfl) cause rest

/-- Two answers, the second one behind the first. -/
theorem Answers.bind {behind : List Char} (h : Answers x y behind)
    {f : Taken α cs → Except Fault (Taken β ds)} {k : α → Except Cause β}
    (hf : ∀ t : Taken α cs, t.rest = behind → Answers (f t) (k t.value) rest) :
    Answers (x.bind f) (y.bind k) rest := by
  cases h with
  | taken h =>
    obtain ⟨t, rfl, rfl, hrest⟩ := h
    exact hf t hrest
  | refused h cause _ => exact .refused (by rw [h]; rfl) cause rest

theorem answers_of_errors (hx : ∃ f, x = .error f) (hy : ∃ cause, y = .error cause) :
    Answers x y rest := by
  obtain ⟨f, hf⟩ := hx
  obtain ⟨cause, rfl⟩ := hy
  exact .refused hf cause rest

/-- What is settled behind a text is what is settled of its value. -/
theorem answers_settle (t : Taken α cs) (y : Except Cause β) : Answers (settle t y) y t.rest := by
  cases y with
  | error cause => exact .refused rfl cause _
  | ok b => exact .taken ⟨_, rfl, rfl, rfl⟩

end Answers

/-! ## 2. Readers by the first character -/

section First

variable {cs text : List Char} {c : Char}

theorem readText_quote (h : skipSpace cs = '"' :: text) :
    readText cs = (Json.readString text).map fun t => t.later.spaced h := by
  unfold readText
  split
  · rename_i heq
    cases h.symm.trans heq
    rfl
  · rename_i hquote
    exact absurd h (hquote text)

theorem readText_other (h : skipSpace cs = c :: text) (hquote : c ≠ '"') :
    ∃ f, readText cs = .error f := by
  unfold readText
  split
  · rename_i heq
    exact absurd (List.cons.inj (h.symm.trans heq)).1 hquote
  · exact ⟨_, rfl⟩

theorem readList_bracket {α : Type} {item : Reader α} (h : skipSpace cs = '[' :: text) :
    readList (some item) cs =
      (Json.items nextItem item true text).map fun t => t.later.spaced h := by
  unfold readList
  split
  · rename_i heq
    cases h.symm.trans heq
    rfl
  · rename_i hbracket
    exact absurd h (hbracket text)

theorem readList_other {α : Type} {item : Option (Reader α)} (h : skipSpace cs = c :: text)
    (hlist : c ≠ '[') : ∃ f, readList item cs = .error f := by
  unfold readList
  split
  · rename_i heq
    exact absurd (List.cons.inj (h.symm.trans heq)).1 hlist
  · exact ⟨_, rfl⟩

variable {r : Record} {inside : (s : Shape) → Reader s.Carrier}

theorem readRecord_bracket (h : skipSpace cs = '[' :: text) :
    readRecord r (some inside) cs =
      (readPositions r inside r.fields true 0 r.draft text).map fun t => t.later.spaced h := by
  unfold readRecord
  split
  · rename_i heq
    cases h.symm.trans heq
    rfl
  · rename_i heq
    cases h.symm.trans heq
  · rename_i hbracket _
    exact absurd h (hbracket text)

theorem readRecord_other {inside : Option ((s : Shape) → Reader s.Carrier)}
    (h : skipSpace cs = c :: text) (hlist : c ≠ '[') (hobject : c ≠ '\x7b') :
    ∃ f, readRecord r inside cs = .error f := by
  unfold readRecord
  split
  · rename_i heq
    exact absurd (List.cons.inj (h.symm.trans heq)).1 hlist
  · rename_i heq
    exact absurd (List.cons.inj (h.symm.trans heq)).1 hobject
  · exact ⟨_, rfl⟩

theorem readNull_of_null (h : skipSpace cs = 'n' :: 'u' :: 'l' :: 'l' :: text) :
    ∃ x, readNull cs = some x ∧ Takes x () text := by
  unfold readNull
  split
  · rename_i heq
    cases h.symm.trans heq
    exact ⟨_, rfl, _, rfl, rfl, rfl⟩
  · rename_i hnull
    exact absurd h (hnull _)

theorem readNull_other (h : skipSpace cs = c :: text) (hnull : c ≠ 'n') : readNull cs = none := by
  unfold readNull
  split
  · rename_i heq
    exact absurd (List.cons.inj (h.symm.trans heq)).1 hnull
  · rfl

end First

/-! ## 3. Texts of `null` -/

section Null

variable {levels : Nat} {cs rest : List Char} {v : Json}

/-- A text that spells `null` begins with it. -/
theorem spelled_null (h : Spells levels cs .null rest) :
    skipSpace cs = 'n' :: 'u' :: 'l' :: 'l' :: rest := by
  cases levels <;>
  · cases h with
    | scalar h =>
      generalize skipSpace cs = text at h ⊢
      cases h
      rfl

/-- A text that spells something else does not begin with the letter of `null`. -/
theorem spelled_other (h : Spells levels cs v rest) (hv : v ≠ .null) :
    ∃ c text, skipSpace cs = c :: text ∧ c ≠ 'n' := by
  cases levels <;>
  · cases h with
    | scalar h =>
      generalize skipSpace cs = text at h ⊢
      cases h with
      | null => exact absurd rfl hv
      | yes | no | string => exact ⟨_, _, rfl, by decide⟩
      | number hc _ => exact ⟨_, _, rfl, Json.ne_of_beginsNumber hc (by decide)⟩
    | array h _ _ => exact ⟨_, _, h, by decide⟩
    | object h _ _ => exact ⟨_, _, h, by decide⟩

end Null

/-! ## 4. What is nested -/

section Nested

variable {levels : Nat} {inside : (s : Shape) → Reader s.Carrier}

/-- The reader answers what each text spells. -/
def AnswersAll (levels : Nat) (inside : (s : Shape) → Reader s.Carrier) : Prop :=
  ∀ ⦃cs v rest⦄, Spells levels cs v rest → ∀ s, Answers (inside s cs) (ofJson s v) rest

theorem answers_items (hinside : AnswersAll levels inside) (item : Shape) {first : Bool}
    {cs rest : List Char} {vs : List Json} (h : SpellsItems (Spells levels) first cs vs rest) :
    Answers (Json.items nextItem (inside item) first cs) (ofItems item vs) rest := by
  induction h with
  | close h => exact .taken (Json.items_close h rfl)
  | more h hv _ ih =>
    rw [Json.items_of_item h, ofItems_cons_eq]
    refine (hinside hv item).bind fun t ht => ?_
    subst ht
    exact ih.map fun _ => ⟨rfl, rfl⟩

/-- An optional field is left out by both readers, where there is a `null`, or by none. -/
theorem answers_field (hinside : AnswersAll levels inside) {ρ : Type} (f : Field ρ)
    {cs rest : List Char} {v : Json} (h : Spells levels cs v rest) :
    Answers (readField inside f cs) (orNull f.optional v (ofJson f.shape v)) rest := by
  have hplain : Answers ((inside f.shape cs).map fun t => t.map some)
      ((ofJson f.shape v).map some) rest := (hinside h f.shape).map fun _ => ⟨rfl, rfl⟩
  unfold readField
  cases f.optional with
  | false =>
    rw [orNull_false]
    exact hplain
  | true =>
    by_cases hv : v = .null
    · subst hv
      obtain ⟨x, hnull, hx⟩ := readNull_of_null (spelled_null h)
      rw [hnull]
      exact .taken (hx.map (g := fun _ => none) fun _ => ⟨rfl, rfl⟩)
    · obtain ⟨c, text, hspace, hc⟩ := spelled_other h hv
      rw [readNull_other hspace hc, orNull_of_ne_null true hv]
      exact hplain

theorem answers_member (hinside : AnswersAll levels inside) (r : Record) (d : Draft r.Carrier)
    (key : String) {cs rest : List Char} {t : Taken Unit cs} {v : Json}
    (hcolon : Json.colon cs = .ok t) (h : Spells levels t.rest v rest) :
    Answers (readMember r inside d key cs) (ofMember r d key v) rest := by
  unfold readMember ofMember
  cases r.field? key with
  | none =>
    simp only [hcolon]
    exact .taken ((Json.skip_of_spells h).map (g := fun _ => d) fun _ => ⟨rfl, rfl⟩)
  | some f =>
    dsimp only
    split_ifs
    · exact .refused rfl _ _
    · simp only [hcolon]
      exact (answers_field hinside f h).map fun _ => ⟨rfl, rfl⟩

theorem answers_members (hinside : AnswersAll levels inside) (r : Record) {first : Bool}
    {cs rest : List Char} {ms : Json.Members}
    (h : SpellsMembers (Spells levels) first cs ms rest) : ∀ d,
    Answers (Json.members nextKey (readMember r inside) first d cs) (ofMembers r d ms) rest := by
  induction h with
  | close h =>
    intro d
    exact .taken (Json.members_close h rfl)
  | more h hcolon hv _ ih =>
    intro d
    rw [Json.members_of_key h, ofMembers_cons_eq]
    refine (answers_member hinside r d _ hcolon hv).bind fun t ht => ?_
    subst ht
    exact (ih t.value).moved fun _ => ⟨rfl, rfl⟩

theorem closePositions_bracket {ρ : Type} {x : ρ} {cs text : List Char}
    (h : skipSpace cs = ']' :: text) : Takes (closePositions x cs) x text := by
  unfold closePositions
  split <;> rename_i heq <;> cases h.symm.trans heq
  exact ⟨_, rfl, rfl, rfl⟩

theorem closePositions_other {ρ : Type} {x : ρ} {cs text : List Char} {c : Char}
    (h : skipSpace cs = c :: text) (hclose : c ≠ ']') : ∃ f, closePositions x cs = .error f := by
  unfold closePositions
  split <;> rename_i heq <;> cases h.symm.trans heq
  rw [if_neg hclose]
  split_ifs
  · split <;> exact ⟨_, rfl⟩
  · exact ⟨_, rfl⟩

theorem readPositions_item {r : Record} {f : Field r.Carrier} {fs : List (Field r.Carrier)}
    {first : Bool} {i : Nat} {d : Draft r.Carrier} {cs : List Char} {here : Rest cs}
    (h : nextItem first cs = .ok (.item here)) :
    readPositions r inside (f :: fs) first i d cs = (readField inside f here.rest).bind fun t =>
      (readPositions r inside fs false (i + 1) (d.give f t.value) t.rest).map fun u =>
        Taken.within (t.andThen u) := by
  rw [readPositions, h]
  dsimp only
  cases readField inside f here.rest <;> rfl

/-- A record is read from a list like from the items of that list, also if it has too few of them
    or too many. -/
theorem answers_positions (hinside : AnswersAll levels inside) (r : Record) {first : Bool}
    {cs rest : List Char} {vs : List Json} (h : SpellsItems (Spells levels) first cs vs rest) :
    ∀ fields i size d, Answers (readPositions r inside fields first i d cs)
      (ofPositions r fields i size d vs) rest := by
  induction h with
  | close h =>
    intro fields i size d
    rw [ofPositions]
    cases fields with
    | nil => exact .taken (closePositions_bracket (Json.nextItem_eq_close h))
    | cons f fs =>
      rw [readPositions, h]
      exact answers_settle _ _
  | @more _ cs _ _ _ _ _ h hv _ ih =>
    intro fields i size d
    cases fields with
    | nil =>
      -- there is an item too many: something else than the bracket stands behind the last field
      have hmore : ∃ f, closePositions d.value cs = .error f := by
        obtain ⟨c, text, -, hclose, ⟨-, hspace⟩ | ⟨-, more, hspace, -⟩⟩ := Json.nextItem_eq_item h
        · exact closePositions_other hspace hclose
        · exact closePositions_other hspace (by decide)
      rw [ofPositions]
      exact answers_of_errors hmore ⟨_, rfl⟩
    | cons f fs =>
      rw [readPositions_item h, ofPositions_cons_eq]
      refine (answers_field hinside f hv).bind fun t ht => ?_
      subst ht
      exact (ih fs (i + 1) size (d.give f t.value)).moved fun _ => ⟨rfl, rfl⟩

end Nested

/-! ## 5. All shapes -/

section Level

variable {nested : Option (Json.Spelling Json)} {inside : Option ((s : Shape) → Reader s.Carrier)}
  {cs rest : List Char} {v : Json}

theorem answers_text (h : SpellsLevel nested cs v rest) :
    Answers (readText cs) (ofJson .text v) rest := by
  cases h with
  | scalar h =>
    generalize hspace : skipSpace cs = text at h
    cases h with
    | string h =>
      rw [readText_quote hspace]
      exact .taken (h.map (g := id) fun _ => ⟨rfl, rfl⟩)
    | null | yes | no =>
      exact answers_of_errors (readText_other hspace (by decide)) ⟨_, rfl⟩
    | number hc _ =>
      exact answers_of_errors (readText_other hspace (Json.ne_of_beginsNumber hc (by decide)))
        ⟨_, rfl⟩
  | array hspace _ _ => exact answers_of_errors (readText_other hspace (by decide)) ⟨_, rfl⟩
  | object hspace _ _ => exact answers_of_errors (readText_other hspace (by decide)) ⟨_, rfl⟩

/-- What is nested is read by a reader that answers what texts spell there. -/
def AnswersNested (nested : Option (Json.Spelling Json))
    (inside : Option ((s : Shape) → Reader s.Carrier)) : Prop :=
  ∀ S ∈ nested, ∃ levels value, S = Spells levels ∧ inside = some value ∧ AnswersAll levels value

theorem answers_list (hinside : AnswersNested nested inside) (item : Shape)
    (h : SpellsLevel nested cs v rest) :
    Answers (readList (inside.map fun read => read item) cs) (ofJson (.list item) v) rest := by
  cases h with
  | scalar h =>
    obtain ⟨c, text, hspace, hlist, -⟩ := h.opens_nothing
    exact answers_of_errors (readList_other hspace hlist) (ofJson_list_other h.ne_array)
  | array hspace hS hvs =>
    obtain ⟨levels, value, rfl, rfl, hvalue⟩ := hinside _ hS
    rw [Option.map_some, readList_bracket hspace, ofJson]
    exact (answers_items hvalue item hvs).moved fun _ => ⟨rfl, rfl⟩
  | object hspace _ _ => exact answers_of_errors (readList_other hspace (by decide)) ⟨_, rfl⟩

theorem answers_record (hinside : AnswersNested nested inside) (r : Record)
    (h : SpellsLevel nested cs v rest) :
    Answers (readRecord r inside cs) (ofJson (.record r) v) rest := by
  cases h with
  | scalar h =>
    obtain ⟨c, text, hspace, hlist, hobject⟩ := h.opens_nothing
    exact answers_of_errors (readRecord_other hspace hlist hobject)
      (ofJson_record_other h.ne_array h.ne_object)
  | array hspace hS hvs =>
    obtain ⟨levels, value, rfl, rfl, hvalue⟩ := hinside _ hS
    rw [readRecord_bracket hspace, ofJson]
    exact (answers_positions hvalue r hvs _ _ _ _).moved fun _ => ⟨rfl, rfl⟩
  | object hspace hS hms =>
    obtain ⟨levels, value, rfl, rfl, hvalue⟩ := hinside _ hS
    rw [readRecord_brace r hspace, ofJson_object_eq]
    refine (answers_members hvalue r hms r.draft).bind fun t ht => ?_
    subst ht
    exact (answers_settle t _).moved fun _ => ⟨rfl, rfl⟩

theorem answers_level (hinside : AnswersNested nested inside) (h : SpellsLevel nested cs v rest) :
    ∀ s, Answers (readLevel inside s cs) (ofJson s v) rest
  | .text => answers_text h
  | .list item => answers_list hinside item h
  | .record r => answers_record hinside r h

end Level

/-- **The reader of texts answers what the reader of values answers to what the text spells.** -/
theorem answers_read : ∀ levels, AnswersAll levels (read levels)
  | 0 => fun _ _ _ h => answers_level (fun _ hS => by cases hS) h
  | levels + 1 => fun _ _ _ h => answers_level (fun _ hS => by
      cases hS
      exact ⟨levels, read levels, rfl, rfl, answers_read levels⟩) h

end SequenceChart.Format

namespace SequenceChart

open Format

/-- **The two readers agree.** Where a text is read as a JSON value and has no key twice in an
    object, a chart is read off the text exactly when it is read from the value, and it is the same
    chart. -/
theorem readers_agree {t : String} {v : Json} (hparse : Json.parse Json.levelLimit t = .ok v)
    (hkeys : ¬ Json.RepeatsKey t) :
    (∃ c, Chart.fromText t = .ok c ∧ Chart.fromJson v = .ok c) ∨
      (∃ u, Chart.fromText t = .error u) ∧ ∃ u, Chart.fromJson v = .error u := by
  obtain ⟨rest, hspells, hblank⟩ := Json.exists_spells_of_parse hparse hkeys
  have h := answers_read Json.levelLimit hspells (.record .chart)
  unfold Chart.fromText Format.fromText Json.whole Chart.fromJson Format.fromJson
  generalize ofJson (.record .chart) v = y at h
  cases h with
  | taken h =>
    obtain ⟨u, hu, rfl, rfl⟩ := h
    rw [hu]
    simp only [hblank]
    exact .inl ⟨_, rfl, rfl⟩
  | refused h cause _ =>
    rw [h]
    exact .inr ⟨⟨_, rfl⟩, _, rfl⟩

/-- A chart without its names of fields, with an entity that is an object and one that is a list,
    another name of a field, and a member that nobody knows. -/
theorem read_off_and_from_value :
    let v : Json := .array [.array [
      .object [("linecolor", .string "red"), ("size", .array [.string "x"]), ("name", .string "a")],
      .array [.string "b"]]]
    Json.parse Json.levelLimit v.print = .ok v ∧ ¬ Json.RepeatsKey v.print ∧
      Chart.fromText v.print =
        .ok { entities := [{ name := "a", paint := { line := some "red" } }, { name := "b" }] } := by
  intro v
  have hplain : Json.Plain v := by
    refine .array (List.forall_mem_singleton.mpr (.array (List.forall_mem_cons.mpr
      ⟨.object ?_, ?_⟩)))
    · simp only [List.forall_mem_cons]
      exact ⟨.string _, .array (List.forall_mem_singleton.mpr (.string _)), .string _, nofun⟩
    · exact List.forall_mem_singleton.mpr (.array (List.forall_mem_singleton.mpr (.string _)))
  have hapart : Json.KeysApart v := by
    refine .array (List.forall_mem_singleton.mpr (.array (List.forall_mem_cons.mpr
      ⟨.object (by decide) ?_, ?_⟩)))
    · simp only [List.forall_mem_cons]
      exact ⟨.string _, .array (List.forall_mem_singleton.mpr (.string _)), .string _, nofun⟩
    · exact List.forall_mem_singleton.mpr (.array (List.forall_mem_singleton.mpr (.string _)))
  obtain ⟨hparse, hkeys⟩ := Json.parse_print hplain (by decide) hapart
  refine ⟨hparse, hkeys, ?_⟩
  have hvalue : Chart.fromJson v =
      .ok { entities := [{ name := "a", paint := { line := some "red" } }, { name := "b" }] } := rfl
  rcases readers_agree hparse hkeys with ⟨c, htext, hc⟩ | ⟨_, u, hu⟩
  · rw [htext, ← hc, hvalue]
  · rw [hvalue] at hu
    cases hu

end SequenceChart
