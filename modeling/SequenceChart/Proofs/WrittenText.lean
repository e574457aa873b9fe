import SequenceChart.Format.FromJson
import SequenceChart.Format.FromText
import SequenceChart.Proofs.Brackets
import SequenceChart.Proofs.ValueReading

/-!
# Reading a text and reading its value

A chart can be read off a JSON text in one pass, or from a JSON value. Both readers go by the same
table; this file compares them on the texts that writing gives.

* `Written` says that a value is written as its shape asks for: all keys are those of the record;
* `read_written` says that the text of such a value is read as the value is, unless it is deeper
  than the reader allows; `fromText_print` says it of whole texts.
-/

namespace SequenceChart.Format

open SequenceChart.Json (Cause Meets Opens Plain Reader Taken depth depthItems depthMembers nextItem
  nextKey write writeItems writeMembers)

/-! ## 1. Values as they are written -/

/-- **A value that is written as its shape asks for**, with keys that its records know. -/
inductive Written : Shape → Json → Prop where
  | text (s : String) : Written .text (.string s)
  | list {item : Shape} {vs : List Json} (h : ∀ v ∈ vs, Written item v) :
      Written (.list item) (.array vs)
  | record {r : Record} {ms : Json.Members} (known : ∀ p ∈ ms, ∃ f, r.field? p.1 = some f)
      (h : ∀ p ∈ ms, ∀ f, r.field? p.1 = some f → Written f.shape p.2) :
      Written (.record r) (.object ms)

/-- The members of an object, each under a key that the record knows and written as the field of
    that key asks for. -/
def WrittenMembers (r : Record) (ms : Json.Members) : Prop :=
  ∀ p ∈ ms, ∃ f, r.field? p.1 = some f ∧ Written f.shape p.2

theorem WrittenMembers.written {r : Record} {ms : Json.Members} (h : WrittenMembers r ms) :
    Written (.record r) (.object ms) := by
  refine .record (fun p hp => ?_) fun p hp f hf => ?_
  · obtain ⟨f, hf, _⟩ := h p hp
    exact ⟨f, hf⟩
  · obtain ⟨g, hg, hwritten⟩ := h p hp
    rw [hf] at hg
    cases hg
    exact hwritten

theorem Written.members {r : Record} {ms : Json.Members} (h : Written (.record r) (.object ms)) :
    WrittenMembers r ms := by
  cases h with
  | record known h =>
    intro p hp
    obtain ⟨f, hf⟩ := known p hp
    exact ⟨f, hf, h p hp f hf⟩

theorem Written.plain {s : Shape} {v : Json} (h : Written s v) : Plain v := by
  induction h with
  | text s => exact .string s
  | list _ ih => exact .array ih
  | record known _ ih =>
    refine .object fun p hp => ?_
    obtain ⟨f, hf⟩ := known p hp
    exact ih p hp f hf

/-! ## 2. Members that are written -/

theorem ofMembers_cons {r : Record} {d : Draft r.Carrier} {key : String} {v : Json}
    {ms : Json.Members} {f : Field r.Carrier} (hf : r.field? key = some f) (hnull : v ≠ .null) :
    ofMembers r d ((key, v) :: ms) =
      if d.has f then .error (.duplicateField f.name)
      else (ofJson f.shape v).bind fun x => ofMembers r (d.give f (some x)) ms := by
  rw [ofMembers_cons_eq, ofMember]
  simp only [hf, orNull_of_ne_null f.optional hnull]
  split_ifs
  · rfl
  · cases ofJson f.shape v <;> rfl

/-- What a member that was read has brought. -/
theorem ofMembers_cons_ok {r : Record} {d d' : Draft r.Carrier} {key : String} {v : Json}
    {ms : Json.Members} {f : Field r.Carrier} (hf : r.field? key = some f) (hnull : v ≠ .null)
    (h : ofMembers r d ((key, v) :: ms) = .ok d') : d.has f = false ∧
      ∃ x, ofJson f.shape v = .ok x ∧ ofMembers r (d.give f (some x)) ms = .ok d' := by
  rw [ofMembers_cons hf hnull] at h
  split at h
  · cases h
  · rename_i hnew
    exact ⟨by simpa using hnew, Json.bind_eq_ok h⟩

/-! ## 3. Lists and objects -/

variable {inside : (s : Shape) → Reader s.Carrier} {levels : Nat}

/-- The reader takes what is written off a text like a value, up to this depth. -/
def ReadsTo (levels : Nat) (inside : (s : Shape) → Reader s.Carrier) : Prop :=
  ∀ s v x, Written s v → ofJson s v = .ok x → ∀ rest,
    Meets (depth v ≤ levels) (inside s (write v rest)) x rest

/-- One round of reading a list: an item, wherever it is found to begin, and the items behind. -/
theorem items_cons (hinside : ReadsTo levels inside) {item : Shape} {v : Json} {vs : List Json}
    {xs : List item.Carrier} {first : Bool} {cs behind rest : List Char} (hv : Written item v)
    (hof : ofItems item (v :: vs) = .ok xs)
    (hnext : ∃ r, nextItem first cs = .ok (.item r) ∧ r.rest = write v behind)
    (hmore : ∀ ys, ofItems item vs = .ok ys →
      Meets (depthItems vs ≤ levels) (Json.items nextItem (inside item) false behind) ys rest) :
    Meets (depthItems (v :: vs) ≤ levels) (Json.items nextItem (inside item) first cs) xs rest := by
  obtain ⟨y, ys, hy, hys, rfl⟩ := ofItems_cons hof
  obtain ⟨r, hnext, hr⟩ := hnext
  rw [depthItems]
  exact (Json.items_item hnext hr (hinside item v y hv hy behind) (hmore ys hys)).congr
    Nat.max_le.symm

/-- The items of a list that is written, from the mark in front of one of them on. -/
theorem items_written (hinside : ReadsTo levels inside) {item : Shape} (rest : List Char) :
    ∀ (vs : List Json) (xs : List item.Carrier), (∀ v ∈ vs, Written item v) →
      ofItems item vs = .ok xs →
      Meets (depthItems vs ≤ levels)
        (Json.items nextItem (inside item) false (writeItems vs (']' :: rest))) xs rest
  | [], xs, _, hof => by
      obtain ⟨t, ht, hrest⟩ := Json.nextItem_close false rest
      cases hof
      exact .taken (Nat.zero_le levels) (Json.items_close ht hrest)
  | v :: vs, xs, h, hof => by
      have hv := h v List.mem_cons_self
      refine items_cons hinside hv hof (Json.nextItem_comma (hv.plain.opens _)) fun ys hys => ?_
      exact items_written hinside rest vs ys (fun w hw => h w (List.mem_cons_of_mem v hw)) hys

/-- The items of a list that is written, from behind its bracket on. -/
theorem items_behind_bracket (hinside : ReadsTo levels inside) {item : Shape} (rest : List Char) :
    ∀ {vs : List Json} {xs : List item.Carrier}, (∀ v ∈ vs, Written item v) →
      ofItems item vs = .ok xs → ∃ cs, write (.array vs) rest = '[' :: cs ∧
        Meets (depthItems vs ≤ levels) (Json.items nextItem (inside item) true cs) xs rest
  | [], xs, _, hof => by
      obtain ⟨t, ht, hrest⟩ := Json.nextItem_close true rest
      cases hof
      exact ⟨_, rfl, .taken (Nat.zero_le levels) (Json.items_close ht hrest)⟩
  | v :: vs, xs, h, hof => by
      have hv := h v List.mem_cons_self
      refine ⟨_, rfl, ?_⟩
      refine items_cons hinside hv hof (Json.nextItem_first (hv.plain.opens _)) fun ys hys => ?_
      exact items_written hinside rest vs ys (fun w hw => h w (List.mem_cons_of_mem v hw)) hys

/-- **A list is read like its value**, one level further down. -/
theorem readList_written (hinside : ReadsTo levels inside) {item : Shape} {vs : List Json}
    {xs : List item.Carrier} (h : ∀ v ∈ vs, Written item v) (hof : ofItems item vs = .ok xs)
    (rest : List Char) :
    Meets (depth (.array vs) ≤ levels + 1)
      (readList (some (inside item)) (write (.array vs) rest)) xs rest := by
  obtain ⟨cs, hwrite, hitems⟩ := items_behind_bracket hinside rest h hof
  have hdepth : depthItems vs ≤ levels ↔ depth (.array vs) ≤ levels + 1 := by
    rw [depth]
    omega
  have hlist : readList (some (inside item)) ('[' :: cs) =
      (Json.items nextItem (inside item) true cs).map fun t => t.later.spaced rfl := rfl
  rw [hwrite, hlist]
  refine Meets.congr ?_ hdepth
  exact hitems.map (g := id) fun _ => ⟨rfl, rfl⟩

/-- No text that begins with a string or a bracket begins with `null`. -/
theorem readNull_of_opens {cs : List Char} (h : Opens cs) : readNull cs = none := by
  cases h <;> rfl

/-- The value of a known field is read behind its key. -/
theorem readMember_written (hinside : ReadsTo levels inside) {r : Record} {d : Draft r.Carrier}
    {key : String} {f : Field r.Carrier} {v : Json} {x : f.shape.Carrier}
    (hf : r.field? key = some f) (hnew : d.has f = false) (hv : Written f.shape v)
    (hof : ofJson f.shape v = .ok x) (rest : List Char) :
    Meets (depth v ≤ levels) (readMember r inside d key (':' :: write v rest)) (d.give f (some x))
      rest := by
  have hfield : readField inside f (write v rest) =
      (inside f.shape (write v rest)).map fun t => t.map some := by
    unfold readField
    rw [readNull_of_opens (hv.plain.opens rest)]
    cases f.optional <;> rfl
  have hmember : readMember r inside d key (':' :: write v rest) =
      (readField inside f (write v rest)).map fun u =>
        ((Taken.first ()).andThen u).map (d.give f) := by
    unfold readMember
    simp only [hf, hnew]
    rfl
  rw [hmember, hfield]
  have hread := hinside f.shape v x hv hof rest
  exact (hread.map (g := some) fun _ => ⟨rfl, rfl⟩).map (g := d.give f) fun _ => ⟨rfl, rfl⟩

/-- One round of reading an object: a member, wherever its key is found, and the members behind. -/
theorem members_cons (hinside : ReadsTo levels inside) {r : Record} {key : String} {v : Json}
    {ms : Json.Members} {d d' : Draft r.Carrier} {first : Bool} {cs behind rest : List Char}
    (hv : ∃ f, r.field? key = some f ∧ Written f.shape v)
    (hof : ofMembers r d ((key, v) :: ms) = .ok d')
    (hnext : ∃ k, nextKey first cs = .ok (.key k) ∧ k.value = key ∧
      k.rest = ':' :: write v behind)
    (hmore : ∀ e, ofMembers r e ms = .ok d' → Meets (depthMembers ms ≤ levels)
      (Json.members nextKey (readMember r inside) false e behind) d' rest) :
    Meets (depthMembers ((key, v) :: ms) ≤ levels)
      (Json.members nextKey (readMember r inside) first d cs) d' rest := by
  obtain ⟨f, hf, hv⟩ := hv
  obtain ⟨hnew, x, hx, hof⟩ := ofMembers_cons_ok hf hv.plain.ne_null hof
  obtain ⟨k, hnext, hkey, hk⟩ := hnext
  have hmember := readMember_written hinside hf hnew hv hx behind
  rw [depthMembers]
  exact (Json.members_key hnext hkey hk hmember (hmore _ hof)).congr Nat.max_le.symm

/-- The members of an object that is written, from the mark in front of one of them on. -/
theorem members_written (hinside : ReadsTo levels inside) {r : Record} (rest : List Char) :
    ∀ (ms : Json.Members) (d d' : Draft r.Carrier), WrittenMembers r ms →
      ofMembers r d ms = .ok d' →
      Meets (depthMembers ms ≤ levels)
        (Json.members nextKey (readMember r inside) false d (writeMembers ms ('\x7d' :: rest)))
        d' rest
  | [], d, d', _, hof => by
      obtain ⟨t, ht, hrest⟩ := Json.nextKey_close false rest
      cases hof
      exact .taken (Nat.zero_le levels) (Json.members_close ht hrest)
  | (key, v) :: ms, d, d', h, hof => by
      refine members_cons hinside (h (key, v) List.mem_cons_self) hof (Json.nextKey_comma key _)
        fun e he => ?_
      exact members_written hinside rest ms e d' (fun p hp => h p (List.mem_cons_of_mem _ hp)) he

/-- The members of an object that is written, from behind its brace on. -/
theorem members_behind_brace (hinside : ReadsTo levels inside) {r : Record} (rest : List Char) :
    ∀ {ms : Json.Members} {d d' : Draft r.Carrier}, WrittenMembers r ms →
      ofMembers r d ms = .ok d' → ∃ cs, write (.object ms) rest = '\x7b' :: cs ∧
        Meets (depthMembers ms ≤ levels)
          (Json.members nextKey (readMember r inside) true d cs) d' rest
  | [], d, d', _, hof => by
      obtain ⟨t, ht, hrest⟩ := Json.nextKey_close true rest
      cases hof
      exact ⟨_, rfl, .taken (Nat.zero_le levels) (Json.members_close ht hrest)⟩
  | (key, v) :: ms, d, d', h, hof => by
      refine ⟨_, rfl, ?_⟩
      refine members_cons hinside (h (key, v) List.mem_cons_self) hof (Json.nextKey_first key _)
        fun e he => ?_
      exact members_written hinside rest ms e d' (fun p hp => h p (List.mem_cons_of_mem _ hp)) he

theorem readRecord_brace (r : Record) {cs text : List Char}
    (h : Json.skipSpace cs = '\x7b' :: text) :
    readRecord r (some inside) cs =
      (Json.members nextKey (readMember r inside) true r.draft text).bind fun t =>
        (settle t (r.finish t.value)).map fun u => u.later.spaced h := by
  unfold readRecord
  split
  · rename_i heq
    cases h.symm.trans heq
  · rename_i heq
    cases h.symm.trans heq
    dsimp only
    cases Json.members nextKey (readMember r inside) true r.draft text <;> rfl
  · rename_i hbrace
    exact absurd h (hbrace text)

/-- **A record is read like its value**, one level further down. -/
theorem readRecord_written (hinside : ReadsTo levels inside) {r : Record} {ms : Json.Members}
    {x : r.Carrier} (h : WrittenMembers r ms)
    (hof : ofJson (.record r) (.object ms) = .ok x) (rest : List Char) :
    Meets (depth (.object ms) ≤ levels + 1)
      (readRecord r (some inside) (write (.object ms) rest)) x rest := by
  obtain ⟨d, hd, hfinish⟩ := ofJson_object hof
  obtain ⟨cs, hwrite, hmembers⟩ := members_behind_brace hinside rest h hd
  have hdepth : depthMembers ms ≤ levels ∧ True ↔ depth (.object ms) ≤ levels + 1 := by
    rw [depth, and_true]
    omega
  rw [hwrite, readRecord_brace r rfl]
  refine Meets.congr ?_ hdepth
  refine hmembers.bind fun t hvalue hrest => ?_
  rw [hvalue, hfinish]
  exact .taken trivial ⟨_, rfl, rfl, hrest⟩

/-! ## 4. All shapes -/

/-- A text is read like its value, however few brackets may be opened. -/
theorem readText_written {s x : String} (h : ofJson .text (.string s) = .ok x) (rest : List Char) :
    Meets (depth (.string s) ≤ levels) (readText (write (.string s) rest)) x rest := by
  have htext : readText (write (.string s) rest) =
      (Json.readString (s.toList.flatMap Json.escapeChar ++ '"' :: rest)).map
        fun t => t.later.spaced rfl := rfl
  have hdepth : depth (.string s) = 0 := by simp [depth]
  cases h
  rw [htext, hdepth]
  refine .taken (Nat.zero_le levels) ?_
  exact (Json.readString_written s rest).map (g := id) fun _ => ⟨rfl, rfl⟩

/-- Where no bracket may be opened, a text is read and everything else is too deep. -/
theorem readsTo_zero : ReadsTo 0 (read 0) := by
  intro s v x h hof rest
  cases h with
  | text s => exact readText_written hof rest
  | @list item vs _ =>
    -- its own bracket is one too many, whatever stands behind it
    have hdeep : ¬ depth (.array vs) ≤ 0 := by rw [depth]; omega
    cases vs <;> exact .tooDeep hdeep _ rfl
  | @record r ms _ _ =>
    have hdeep : ¬ depth (.object ms) ≤ 0 := by rw [depth]; omega
    cases ms <;> exact .tooDeep hdeep _ rfl

theorem readsTo_succ (hinside : ReadsTo levels (read levels)) :
    ReadsTo (levels + 1) (read (levels + 1)) := by
  intro s v x h hof rest
  cases h with
  | text s => exact readText_written hof rest
  | list h => exact readList_written hinside h hof rest
  | record known h => exact readRecord_written hinside (Written.record known h).members hof rest

/-- **A text that was written is read like its value**, if it is not too deep. -/
theorem read_written : ∀ levels, ReadsTo levels (read levels)
  | 0 => readsTo_zero
  | levels + 1 => readsTo_succ (read_written levels)

/-! ## 5. Whole texts -/

/-- **A whole text that was written is read like its value** exactly when it never has 128 brackets
    open at once. Otherwise it is refused as too deep. -/
theorem fromText_print {s : Shape} {v : Json} {x : s.Carrier} (h : Written s v)
    (hof : ofJson s v = .ok x) :
    (fromText s v.print = .ok x ↔ Json.mostOpen v.print.toList < 128) ∧
      (¬ Json.mostOpen v.print.toList < 128 →
        ∃ p, fromText s v.print = .error ⟨.tooDeep, some p⟩) := by
  have hread := read_written Json.levelLimit s v x h hof []
  have htext : v.print.toList = write v [] := String.toList_ofList
  have hlimit : depth v ≤ Json.levelLimit ↔ depth v < 128 := Nat.lt_succ_iff.symm
  rw [Json.mostOpen_print h.plain, ← hlimit]
  unfold fromText Json.whole
  rw [htext]
  cases hread with
  | taken hfits ht =>
    obtain ⟨t, ht, rfl, hrest⟩ := ht
    rw [ht]
    simp only [hrest]
    exact ⟨⟨fun _ => hfits, fun _ => rfl⟩, fun hdeep => absurd hfits hdeep⟩
  | tooDeep hdeep left hx =>
    rw [hx]
    refine ⟨⟨fun h => ?_, fun hfits => absurd hfits hdeep⟩, fun _ => ⟨_, rfl⟩⟩
    cases h

end SequenceChart.Format
