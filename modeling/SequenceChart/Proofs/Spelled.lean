import SequenceChart.Proofs.Brackets

/-!
# What a text spells

A reader of JSON forgets part of what stands in a text: where an object has a key twice, the value
that is read holds the last member alone. This file says what stands there.

* `Spells` says that a text spells a value, with all members of its objects as they stand, and what
  it leaves behind. `Spells.unique` says that a text spells one value at most;
* `merged` is a value with the members of each key put together. By `read_iff`, what is read off a
  text is what the text spells, merged;
* `RepeatsKey` says that an object somewhere in a text has a key twice. The value of a text that
  repeats no key is what the text spells (`exists_spells_of_parse`).
-/

namespace SequenceChart.Json

/-! ## 1. Texts and values -/

/-- A text spells a value and leaves a rest. -/
abbrev Spelling (α : Type) := List Char → α → List Char → Prop

/-- A value that is neither a list nor an object, at the very beginning of the text. -/
inductive SpellsScalar : Spelling Json
  | null {rest : List Char} : SpellsScalar ('n' :: 'u' :: 'l' :: 'l' :: rest) .null rest
  | yes {rest : List Char} : SpellsScalar ('t' :: 'r' :: 'u' :: 'e' :: rest) (.bool true) rest
  | no {rest : List Char} :
      SpellsScalar ('f' :: 'a' :: 'l' :: 's' :: 'e' :: rest) (.bool false) rest
  | number {c : Char} {cs rest : List Char} {n : Number} (hc : (c = '-' || c.isDigit) = true)
      (h : Takes (readNumber (c :: cs)) n rest) : SpellsScalar (c :: cs) (.number n) rest
  | string {cs rest : List Char} {s : String} (h : Takes (readString cs) s rest) :
      SpellsScalar ('"' :: cs) (.string s) rest

/-- The items of a list, from one of its marks on. -/
inductive SpellsItems (value : Spelling Json) : Bool → Spelling (List Json)
  | close {first : Bool} {cs : List Char} {t : Taken Unit cs}
      (h : nextItem first cs = .ok (.close t)) : SpellsItems value first cs [] t.rest
  | more {first : Bool} {cs behind rest : List Char} {r : Rest cs} {v : Json} {vs : List Json}
      (h : nextItem first cs = .ok (.item r)) (hv : value r.rest v behind)
      (hmore : SpellsItems value false behind vs rest) :
      SpellsItems value first cs (v :: vs) rest

/-- The members of an object, from one of its marks on. -/
inductive SpellsMembers (value : Spelling Json) : Bool → Spelling Members
  | close {first : Bool} {cs : List Char} {t : Taken Unit cs}
      (h : nextKey first cs = .ok (.close t)) : SpellsMembers value first cs [] t.rest
  | more {first : Bool} {cs behind rest : List Char} {k : Taken String cs}
      {t : Taken Unit k.rest} {v : Json} {ms : Members} (h : nextKey first cs = .ok (.key k))
      (hcolon : colon k.rest = .ok t) (hv : value t.rest v behind)
      (hmore : SpellsMembers value false behind ms rest) :
      SpellsMembers value first cs ((k.value, v) :: ms) rest

/-- One value, given how texts spell what is nested in it. -/
inductive SpellsLevel (inside : Option (Spelling Json)) : Spelling Json
  | scalar {cs rest : List Char} {v : Json} (h : SpellsScalar (skipSpace cs) v rest) :
      SpellsLevel inside cs v rest
  | array {cs text rest : List Char} {value : Spelling Json} {vs : List Json}
      (h : skipSpace cs = '[' :: text) (hinside : inside = some value)
      (hvs : SpellsItems value true text vs rest) : SpellsLevel inside cs (.array vs) rest
  | object {cs text rest : List Char} {value : Spelling Json} {ms : Members}
      (h : skipSpace cs = '\x7b' :: text) (hinside : inside = some value)
      (hms : SpellsMembers value true text ms rest) : SpellsLevel inside cs (.object ms) rest

/-- **The text spells this value**, with at most this many brackets open at once. All members of an
    object are members of the value, in their order, also those with the same key. -/
def Spells : Nat → Spelling Json
  | 0 => SpellsLevel none
  | levels + 1 => SpellsLevel (some (Spells levels))

mutual

/-- The value with the members of each key put together: the first place of the key, and the last
    of its values. -/
def merged : Json → Json
  | .array vs => .array (mergedItems vs)
  | .object ms => .object (mergedMembers [] ms)
  | v => v

def mergedItems : List Json → List Json
  | [] => []
  | v :: vs => merged v :: mergedItems vs

/-- The members put behind others. -/
def mergedMembers (before : Members) : List (String × Json) → Members
  | [] => before
  | (key, v) :: ms => mergedMembers (before.put key (merged v)) ms

end

/-- **No object in the value has a key twice.** -/
inductive KeysApart : Json → Prop where
  | null : KeysApart .null
  | bool (b : Bool) : KeysApart (.bool b)
  | number (n : Number) : KeysApart (.number n)
  | string (s : String) : KeysApart (.string s)
  | array {vs : List Json} (h : ∀ v ∈ vs, KeysApart v) : KeysApart (.array vs)
  | object {ms : Members} (hkeys : (ms.map Prod.fst).Nodup) (h : ∀ p ∈ ms, KeysApart p.2) :
      KeysApart (.object ms)

theorem mergedItems_eq_self : ∀ {vs : List Json}, (∀ v ∈ vs, merged v = v) → mergedItems vs = vs
  | [], _ => rfl
  | v :: vs, h => by
      obtain ⟨hv, hvs⟩ := List.forall_mem_cons.mp h
      rw [mergedItems, hv, mergedItems_eq_self hvs]

theorem mergedMembers_eq_append : ∀ (before : Members) {ms : Members},
    (∀ p ∈ ms, merged p.2 = p.2) → ((before ++ ms).map Prod.fst).Nodup →
    mergedMembers before ms = before ++ ms
  | before, [], _, _ => (List.append_nil before).symm
  | before, (key, v) :: ms, h, hkeys => by
      obtain ⟨hv, hms⟩ := List.forall_mem_cons.mp h
      have hnew : key ∉ before.map Prod.fst := by
        intro hmem
        rw [List.map_append, List.map_cons] at hkeys
        exact (List.nodup_append.mp hkeys).2.2 key hmem key List.mem_cons_self rfl
      have happend : before ++ (key, v) :: ms = (before ++ [(key, v)]) ++ ms := by simp
      rw [happend] at hkeys ⊢
      rw [mergedMembers, hv, Members.put_of_not_mem key v before hnew]
      exact mergedMembers_eq_append _ hms hkeys

/-- Where every key is new, nothing is put together. -/
theorem KeysApart.merged_eq {v : Json} (h : KeysApart v) : merged v = v := by
  induction h with
  | null | bool | number | string => rfl
  | array _ ih => rw [merged, mergedItems_eq_self ih]
  | object hkeys _ ih => rw [merged, mergedMembers_eq_append [] ih hkeys, List.nil_append]

/-! ## 2. What is read -/

/-- What is read of a value, by its first character. -/
theorem readLevel_eq {inside : Option (Reader Json)} {cs text : List Char} {c : Char}
    (h : skipSpace cs = c :: text) : readLevel inside cs =
      if c = '[' then
        match inside with
        | none => .error (.behind .tooDeep (c :: text))
        | some value =>
          (items nextItem value true text).map fun t => (t.map Json.array).later.spaced h
      else if c = '\x7b' then
        match inside with
        | none => .error (.behind .tooDeep (c :: text))
        | some value =>
          (members nextKey (member value) true [] text).map fun t =>
            (t.map Json.object).later.spaced h
      else (readScalar (c :: text)).map (Taken.spaced h) := by
  unfold readLevel
  split <;> rename_i heq <;> cases h.symm.trans heq
  rfl

theorem letters_eq_ok : ∀ {word cs : List Char} {r : Rest cs}, letters word cs = .ok r →
    cs = word ++ r.rest
  | [], _, _, h => by
      cases h
      rfl
  | _ :: _, [], _, h => by cases h
  | w :: word, c :: cs, r, h => by
      rw [letters] at h
      split at h
      · rename_i hw
        obtain ⟨r, hr, rfl⟩ := map_eq_ok h
        rw [hw, List.cons_append]
        exact congrArg (w :: ·) (letters_eq_ok hr)
      · cases h

theorem word_eq_ok {α : Type} {value : α} {rest cs : List Char} {c : Char} {t : Taken α (c :: cs)}
    (h : word value rest c cs = .ok t) :
    t.value = value ∧ ∃ behind, t.rest = behind ∧ cs = rest ++ behind := by
  obtain ⟨r, hr, rfl⟩ := map_eq_ok h
  exact ⟨rfl, r.rest, rfl, letters_eq_ok hr⟩

/-- A number does not begin with a mark of something else. -/
theorem ne_of_beginsNumber {c d : Char} (hc : (c = '-' || c.isDigit) = true)
    (hd : (d = '-' || d.isDigit) = false) : c ≠ d := by
  rintro rfl
  rw [hc] at hd
  cases hd

theorem SpellsScalar.read {cs rest : List Char} {v : Json} (h : SpellsScalar cs v rest) :
    Takes (readScalar cs) v rest := by
  cases h with
  | null | yes | no => exact ⟨_, rfl, rfl, rfl⟩
  | number hc h =>
    rw [readScalar, if_neg (ne_of_beginsNumber hc (by decide)), if_pos hc]
    exact h.map fun _ => ⟨rfl, rfl⟩
  | string h =>
    rw [readScalar, if_pos rfl]
    exact h.map fun _ => ⟨rfl, rfl⟩

theorem spellsScalar_of_read {cs : List Char} {t : Taken Json cs} (h : readScalar cs = .ok t) :
    SpellsScalar cs t.value t.rest := by
  unfold readScalar at h
  split at h
  · cases h
  · rename_i c cs
    split_ifs at h with hquote hnumber hn ht hf
    · obtain ⟨t, ht, rfl⟩ := map_eq_ok h
      exact hquote ▸ .string ⟨t, ht, rfl, rfl⟩
    · obtain ⟨t, ht, rfl⟩ := map_eq_ok h
      exact .number hnumber ⟨t, ht, rfl, rfl⟩
    · obtain ⟨hvalue, behind, hrest, hcs⟩ := word_eq_ok h
      rw [hvalue, hrest, hn, hcs]
      exact .null
    · obtain ⟨hvalue, behind, hrest, hcs⟩ := word_eq_ok h
      rw [hvalue, hrest, ht, hcs]
      exact .yes
    · obtain ⟨hvalue, behind, hrest, hcs⟩ := word_eq_ok h
      rw [hvalue, hrest, hf, hcs]
      exact .no

theorem SpellsScalar.merged_eq {cs rest : List Char} {v : Json} (h : SpellsScalar cs v rest) :
    merged v = v := by
  cases h <;> rfl

/-- Such a value does not begin with a bracket. -/
theorem SpellsScalar.opens_nothing {cs rest : List Char} {v : Json} (h : SpellsScalar cs v rest) :
    ∃ c text, cs = c :: text ∧ c ≠ '[' ∧ c ≠ '\x7b' := by
  cases h with
  | null | yes | no | string => exact ⟨_, _, rfl, by decide, by decide⟩
  | number hc _ =>
    exact ⟨_, _, rfl, ne_of_beginsNumber hc (by decide), ne_of_beginsNumber hc (by decide)⟩

theorem SpellsScalar.ne_array {cs rest : List Char} {v : Json} (h : SpellsScalar cs v rest)
    (vs : List Json) : v ≠ .array vs := by
  rintro rfl
  cases h

theorem SpellsScalar.ne_object {cs rest : List Char} {v : Json} (h : SpellsScalar cs v rest)
    (ms : Members) : v ≠ .object ms := by
  rintro rfl
  cases h

theorem member_eq {value : Reader Json} {ms : Members} {key : String} {cs : List Char} :
    member value ms key cs = (colon cs).bind fun t =>
      (value t.rest).map fun u => (t.andThen u).map fun v => ms.put key v := by
  unfold member
  cases colon cs <;> rfl

section Read

variable {S : Spelling Json} {value : Reader Json}

/-- The items that a text spells are read. -/
theorem SpellsItems.read
    (hvalue : ∀ {cs v rest}, S cs v rest → Takes (value cs) (merged v) rest) {first : Bool}
    {cs rest : List Char} {vs : List Json} (h : SpellsItems S first cs vs rest) :
    Takes (items nextItem value first cs) (mergedItems vs) rest := by
  induction h with
  | close h => exact items_close h rfl
  | more h hv _ ih =>
    rw [items_of_item h, mergedItems]
    obtain ⟨t, ht, hvalue, rfl⟩ := hvalue hv
    rw [ht, ← hvalue]
    exact ih.map fun _ => ⟨rfl, rfl⟩

/-- The members that a text spells are read, and put to those read before. -/
theorem SpellsMembers.read
    (hvalue : ∀ {cs v rest}, S cs v rest → Takes (value cs) (merged v) rest) {first : Bool}
    {cs rest : List Char} {ms : Members} (h : SpellsMembers S first cs ms rest) :
    ∀ before, Takes (members nextKey (member value) first before cs) (mergedMembers before ms)
      rest := by
  induction h with
  | close h => exact fun _ => members_close h rfl
  | @more _ _ _ _ k c v _ h hcolon hv _ ih =>
    intro before
    obtain ⟨t, ht, hvalue, rfl⟩ := hvalue hv
    have hmember : member value before k.value k.rest =
        .ok ((c.andThen t).map fun v => before.put k.value v) := by
      rw [member_eq, hcolon]
      show (value c.rest).map _ = _
      rw [ht]
      rfl
    rw [members_of_key h, hmember, mergedMembers, ← hvalue]
    exact (ih _).map (g := id) fun _ => ⟨rfl, rfl⟩

/-- Items that are read are spelled. -/
theorem exists_spellsItems
    (hvalue : ∀ {cs t}, value cs = .ok t → ∃ v, S cs v t.rest ∧ merged v = t.value) (first : Bool)
    (cs : List Char) : ∀ ts, items nextItem value first cs = .ok ts →
      ∃ vs, SpellsItems S first cs vs ts.rest ∧ mergedItems vs = ts.value := by
  fun_induction items nextItem value first cs with
  | case1 | case3 | case4 => exact fun _ h => by cases h
  | case2 first cs t hnext =>
    rintro _ ⟨⟩
    exact ⟨[], .close hnext, rfl⟩
  | case5 first cs r hnext t ht ts hts ih =>
    rintro _ ⟨⟩
    obtain ⟨v, hv, hmerged⟩ := hvalue ht
    obtain ⟨vs, hvs, hmore⟩ := ih ts hts
    exact ⟨v :: vs, .more hnext hv hvs, by rw [mergedItems, hmerged, hmore]; rfl⟩

/-- Members that are read are spelled. -/
theorem exists_spellsMembers
    (hvalue : ∀ {cs t}, value cs = .ok t → ∃ v, S cs v t.rest ∧ merged v = t.value) (first : Bool)
    (before : Members) (cs : List Char) : ∀ t,
      members nextKey (member value) first before cs = .ok t →
      ∃ ms, SpellsMembers S first cs ms t.rest ∧ mergedMembers before ms = t.value := by
  fun_induction members nextKey (member value) first before cs with
  | case1 | case3 | case4 => exact fun _ h => by cases h
  | case2 first before cs t hnext =>
    rintro _ ⟨⟩
    exact ⟨[], .close hnext, rfl⟩
  | case5 first before cs k hnext t ht u hu ih =>
    rintro _ ⟨⟩
    rw [member_eq] at ht
    obtain ⟨c, hcolon, ht⟩ := bind_eq_ok ht
    obtain ⟨x, hx, rfl⟩ := map_eq_ok ht
    obtain ⟨v, hv, hmerged⟩ := hvalue hx
    obtain ⟨ms, hms, hmore⟩ := ih u hu
    refine ⟨(k.value, v) :: ms, .more hnext hcolon hv hms, ?_⟩
    rw [mergedMembers, hmerged]
    exact hmore

end Read

theorem SpellsScalar.readLevel {inside : Option (Reader Json)} {cs rest : List Char} {v : Json}
    (h : SpellsScalar (skipSpace cs) v rest) : Takes (Json.readLevel inside cs) v rest := by
  obtain ⟨c, text, hspace, hlist, hobject⟩ := h.opens_nothing
  rw [readLevel_eq hspace, if_neg hlist, if_neg hobject]
  exact (hspace ▸ h.read).map (g := id) fun _ => ⟨rfl, rfl⟩

/-- What a text spells is read off it, merged. -/
theorem Spells.read : ∀ {levels : Nat} {cs rest : List Char} {v : Json},
    Spells levels cs v rest → Takes (read levels cs) (merged v) rest
  | 0, cs, rest, v, h => by
      cases h with
      | scalar h =>
        rw [h.merged_eq]
        exact h.readLevel
      | array _ hinside _ => cases hinside
      | object _ hinside _ => cases hinside
  | levels + 1, cs, rest, v, h => by
      cases h with
      | scalar h =>
        rw [h.merged_eq]
        exact h.readLevel
      | array hspace hinside hvs =>
        cases hinside
        rw [Json.read, readLevel_eq hspace, if_pos rfl, merged]
        exact (hvs.read Spells.read).map fun _ => ⟨rfl, rfl⟩
      | object hspace hinside hms =>
        cases hinside
        rw [Json.read, readLevel_eq hspace, if_neg (by decide), if_pos rfl, merged]
        exact (hms.read Spells.read []).map fun _ => ⟨rfl, rfl⟩

theorem exists_cons_of_readLevel {inside : Option (Reader Json)} {cs : List Char}
    {t : Taken Json cs} (h : readLevel inside cs = .ok t) : ∃ c text, skipSpace cs = c :: text := by
  unfold readLevel at h
  split at h
  · cases h
  · rename_i c text hspace
    exact ⟨c, text, hspace⟩

/-- What is read on one level is spelled there, if that is so of what is nested in it. -/
theorem exists_spellsLevel {inside : Option (Reader Json)} {nested : Option (Spelling Json)}
    (hinside : ∀ value ∈ inside, ∃ S ∈ nested, ∀ {cs t}, value cs = .ok t →
      ∃ v, S cs v t.rest ∧ merged v = t.value) {cs : List Char} {t : Taken Json cs}
    (h : readLevel inside cs = .ok t) :
    ∃ v, SpellsLevel nested cs v t.rest ∧ merged v = t.value := by
  obtain ⟨c, text, hspace⟩ := exists_cons_of_readLevel h
  rw [readLevel_eq hspace] at h
  split_ifs at h with hlist hobject
  · subst hlist
    cases inside with
    | none => cases h
    | some value =>
      obtain ⟨S, hS, hvalue⟩ := hinside value rfl
      obtain ⟨ts, hts, rfl⟩ := map_eq_ok h
      obtain ⟨vs, hvs, hmerged⟩ := exists_spellsItems hvalue true text ts hts
      exact ⟨.array vs, .array hspace hS hvs, by rw [merged, hmerged]; rfl⟩
  · subst hobject
    cases inside with
    | none => cases h
    | some value =>
      obtain ⟨S, hS, hvalue⟩ := hinside value rfl
      obtain ⟨ts, hts, rfl⟩ := map_eq_ok h
      obtain ⟨ms, hms, hmerged⟩ := exists_spellsMembers hvalue true [] text ts hts
      exact ⟨.object ms, .object hspace hS hms, by rw [merged, hmerged]; rfl⟩
  · obtain ⟨t, ht, rfl⟩ := map_eq_ok h
    have hv : SpellsScalar (skipSpace cs) t.value t.rest := by
      rw [hspace]
      exact spellsScalar_of_read ht
    exact ⟨t.value, .scalar hv, hv.merged_eq⟩

theorem exists_spells : ∀ (levels : Nat) {cs : List Char} {t : Taken Json cs},
    read levels cs = .ok t → ∃ v, Spells levels cs v t.rest ∧ merged v = t.value
  | 0, _, _, h => exists_spellsLevel (fun _ hvalue => by cases hvalue) h
  | levels + 1, _, _, h =>
    exists_spellsLevel (fun _ hvalue => ⟨_, rfl, fun hx => by
      cases hvalue
      exact exists_spells levels hx⟩) h

/-- **The reader reads what the text spells**, with the members of each key put together. -/
theorem read_iff {levels : Nat} {cs rest : List Char} {v : Json} :
    Takes (read levels cs) v rest ↔ ∃ w, Spells levels cs w rest ∧ merged w = v := by
  constructor
  · rintro ⟨t, ht, rfl, rfl⟩
    exact exists_spells levels ht
  · rintro ⟨w, hw, rfl⟩
    exact hw.read

/-! ## 3. A text spells one value -/

/-- A text spells one value at most, and leaves one rest. -/
def Unambiguous {α : Type} (S : Spelling α) : Prop :=
  ∀ ⦃cs a a' rest rest'⦄, S cs a rest → S cs a' rest' → a = a' ∧ rest = rest'

theorem SpellsScalar.unique : Unambiguous SpellsScalar := by
  intro cs v v' rest rest' h h'
  obtain ⟨t, ht, rfl, rfl⟩ := h.read
  obtain ⟨t', ht', rfl, rfl⟩ := h'.read
  cases ht.symm.trans ht'
  exact ⟨rfl, rfl⟩

theorem SpellsItems.unique {S : Spelling Json} (hS : Unambiguous S) (first : Bool) :
    Unambiguous (SpellsItems S first) := by
  intro cs vs vs' rest rest' h h'
  induction h generalizing vs' with
  | close h =>
    cases h' with
    | close h' =>
      cases h.symm.trans h'
      exact ⟨rfl, rfl⟩
    | more h' _ _ => cases h.symm.trans h'
  | more h hv _ ih =>
    cases h' with
    | close h' => cases h.symm.trans h'
    | more h' hv' hmore' =>
      cases h.symm.trans h'
      obtain ⟨rfl, rfl⟩ := hS hv hv'
      obtain ⟨rfl, rfl⟩ := ih hmore'
      exact ⟨rfl, rfl⟩

theorem SpellsMembers.unique {S : Spelling Json} (hS : Unambiguous S) (first : Bool) :
    Unambiguous (SpellsMembers S first) := by
  intro cs ms ms' rest rest' h h'
  induction h generalizing ms' with
  | close h =>
    cases h' with
    | close h' =>
      cases h.symm.trans h'
      exact ⟨rfl, rfl⟩
    | more h' _ _ _ => cases h.symm.trans h'
  | more h hcolon hv _ ih =>
    cases h' with
    | close h' => cases h.symm.trans h'
    | more h' hcolon' hv' hmore' =>
      cases h.symm.trans h'
      cases hcolon.symm.trans hcolon'
      obtain ⟨rfl, rfl⟩ := hS hv hv'
      obtain ⟨rfl, rfl⟩ := ih hmore'
      exact ⟨rfl, rfl⟩

theorem SpellsLevel.unique {inside : Option (Spelling Json)}
    (hinside : ∀ S ∈ inside, Unambiguous S) : Unambiguous (SpellsLevel inside) := by
  intro cs v v' rest rest' h h'
  -- the first character tells which of the three it is
  cases h with
  | scalar h =>
    obtain ⟨c, text, hspace, hlist, hobject⟩ := h.opens_nothing
    cases h' with
    | scalar h' => exact h.unique h'
    | array hspace' _ _ => exact absurd (List.cons.inj (hspace.symm.trans hspace')).1 hlist
    | object hspace' _ _ => exact absurd (List.cons.inj (hspace.symm.trans hspace')).1 hobject
  | array hspace hS hvs =>
    cases h' with
    | scalar h' =>
      obtain ⟨c, text, hspace', hlist, -⟩ := h'.opens_nothing
      exact absurd (List.cons.inj (hspace'.symm.trans hspace)).1 hlist
    | array hspace' hS' hvs' =>
      cases hspace.symm.trans hspace'
      cases hS.symm.trans hS'
      obtain ⟨rfl, rfl⟩ := SpellsItems.unique (hinside _ hS) true hvs hvs'
      exact ⟨rfl, rfl⟩
    | object hspace' _ _ => cases hspace.symm.trans hspace'
  | object hspace hS hms =>
    cases h' with
    | scalar h' =>
      obtain ⟨c, text, hspace', -, hobject⟩ := h'.opens_nothing
      exact absurd (List.cons.inj (hspace'.symm.trans hspace)).1 hobject
    | array hspace' _ _ => cases hspace.symm.trans hspace'
    | object hspace' hS' hms' =>
      cases hspace.symm.trans hspace'
      cases hS.symm.trans hS'
      obtain ⟨rfl, rfl⟩ := SpellsMembers.unique (hinside _ hS) true hms hms'
      exact ⟨rfl, rfl⟩

/-- **A text spells at most one value.** -/
theorem Spells.unique : ∀ levels, Unambiguous (Spells levels)
  | 0 => SpellsLevel.unique fun _ hS => by cases hS
  | levels + 1 => SpellsLevel.unique fun _ hS => by
      cases hS
      exact Spells.unique levels

/-! ## 4. Values that are written -/

section Written

variable {S : Spelling Json} {first : Bool} {cs text behind rest : List Char}

theorem SpellsItems.of_next {v : Json} {vs : List Json}
    (h : ∃ r, nextItem first cs = .ok (.item r) ∧ r.rest = text) (hv : S text v behind)
    (hmore : SpellsItems S false behind vs rest) : SpellsItems S first cs (v :: vs) rest := by
  obtain ⟨r, hr, rfl⟩ := h
  exact .more hr hv hmore

theorem SpellsItems.of_close (first : Bool) (rest : List Char) :
    SpellsItems S first (']' :: rest) [] rest := by
  obtain ⟨t, ht, hrest⟩ := nextItem_close first rest
  have h : SpellsItems S first (']' :: rest) [] t.rest := .close ht
  rwa [hrest] at h

theorem SpellsMembers.of_next {key : String} {v : Json} {ms : Members}
    (h : ∃ k, nextKey first cs = .ok (.key k) ∧ k.value = key ∧ k.rest = ':' :: text)
    (hv : S text v behind) (hmore : SpellsMembers S false behind ms rest) :
    SpellsMembers S first cs ((key, v) :: ms) rest := by
  obtain ⟨k, hk, rfl, hrest⟩ := h
  have hcolon : ∃ t, colon k.rest = .ok t ∧ t.rest = text := by
    rw [hrest]
    exact ⟨_, rfl, rfl⟩
  obtain ⟨t, ht, rfl⟩ := hcolon
  exact .more hk ht hv hmore

theorem SpellsMembers.of_close (first : Bool) (rest : List Char) :
    SpellsMembers S first ('\x7d' :: rest) [] rest := by
  obtain ⟨t, ht, hrest⟩ := nextKey_close first rest
  have h : SpellsMembers S first ('\x7d' :: rest) [] t.rest := .close ht
  rwa [hrest] at h

theorem spellsItems_write (rest : List Char) : ∀ vs : List Json,
    (∀ v ∈ vs, Plain v ∧ ∀ rest, S (write v rest) v rest) →
    SpellsItems S false (writeItems vs (']' :: rest)) vs rest
  | [], _ => .of_close false rest
  | v :: vs, h => by
      obtain ⟨⟨hplain, hv⟩, hvs⟩ := List.forall_mem_cons.mp h
      exact .of_next (nextItem_comma (hplain.opens _)) (hv _) (spellsItems_write rest vs hvs)

theorem spellsMembers_write (rest : List Char) : ∀ ms : Members,
    (∀ p ∈ ms, ∀ rest, S (write p.2 rest) p.2 rest) →
    SpellsMembers S false (writeMembers ms ('\x7d' :: rest)) ms rest
  | [], _ => .of_close false rest
  | (key, v) :: ms, h => by
      obtain ⟨hv, hms⟩ := List.forall_mem_cons.mp h
      exact .of_next (nextKey_comma key _) (hv _) (spellsMembers_write rest ms hms)

end Written

theorem depth_le_of_mem {v : Json} : ∀ {vs : List Json}, v ∈ vs → depth v ≤ depthItems vs
  | w :: vs, h => by
      rw [depthItems]
      rcases List.mem_cons.mp h with rfl | h
      · exact Nat.le_max_left _ _
      · exact Nat.le_trans (depth_le_of_mem h) (Nat.le_max_right _ _)

theorem depth_le_of_mem_members {p : String × Json} : ∀ {ms : Members}, p ∈ ms →
    depth p.2 ≤ depthMembers ms
  | (key, v) :: ms, h => by
      rw [depthMembers]
      rcases List.mem_cons.mp h with rfl | h
      · exact Nat.le_max_left _ _
      · exact Nat.le_trans (depth_le_of_mem_members h) (Nat.le_max_right _ _)

/-- **The text of a value spells it**, within a limit that is not below its depth. -/
theorem Plain.spells {v : Json} (h : Plain v) :
    ∀ {levels : Nat}, depth v ≤ levels → ∀ rest, Spells levels (write v rest) v rest := by
  induction h with
  | string s =>
    intro levels _ rest
    have hs : SpellsScalar (write (.string s) rest) (.string s) rest :=
      .string (readString_written s rest)
    cases levels <;> exact .scalar hs
  | @array vs hplain ih =>
    intro levels hdepth rest
    rw [depth] at hdepth
    obtain ⟨n, rfl⟩ : ∃ n, levels = n + 1 := ⟨levels - 1, by omega⟩
    have hitem : ∀ v ∈ vs, Plain v ∧ ∀ rest, Spells n (write v rest) v rest := fun v hv =>
      ⟨hplain v hv, ih v hv (by have := depth_le_of_mem hv; omega)⟩
    cases vs with
    | nil => exact .array rfl rfl (.of_close true rest)
    | cons v vs =>
      obtain ⟨⟨hv, hspells⟩, hvs⟩ := List.forall_mem_cons.mp hitem
      exact .array rfl rfl (.of_next (nextItem_first (hv.opens _)) (hspells _)
        (spellsItems_write rest vs hvs))
  | @object ms _ ih =>
    intro levels hdepth rest
    rw [depth] at hdepth
    obtain ⟨n, rfl⟩ : ∃ n, levels = n + 1 := ⟨levels - 1, by omega⟩
    have hmember : ∀ p ∈ ms, ∀ rest, Spells n (write p.2 rest) p.2 rest := fun p hp =>
      ih p hp (by have := depth_le_of_mem_members hp; omega)
    cases ms with
    | nil => exact .object rfl rfl (.of_close true rest)
    | cons p ms =>
      obtain ⟨hp, hms⟩ := List.forall_mem_cons.mp hmember
      exact .object rfl rfl (.of_next (nextKey_first p.1 _) (hp _)
        (spellsMembers_write rest ms hms))

/-! ## 5. Whole texts -/

/-- **An object of the text has a key twice.** -/
def RepeatsKey (text : String) : Prop :=
  ∃ v rest, Spells levelLimit text.toList v rest ∧ ¬ KeysApart v

/-- A text that repeats no key spells the value that it is read as, and only blanks behind it. -/
theorem exists_spells_of_parse {text : String} {v : Json} (hparse : parse levelLimit text = .ok v)
    (hkeys : ¬ RepeatsKey text) :
    ∃ rest, Spells levelLimit text.toList v rest ∧ skipSpace rest = [] := by
  unfold parse whole at hparse
  split at hparse
  · cases hparse
  · rename_i t ht
    split at hparse
    · rename_i hrest
      obtain ⟨w, hw, hmerged⟩ := read_iff.mp ⟨t, ht, rfl, rfl⟩
      have hapart : KeysApart w :=
        Classical.byContradiction fun h => hkeys ⟨w, t.rest, hw, h⟩
      have hvalue : w = v := by
        rw [← hapart.merged_eq, hmerged]
        exact Except.ok.inj hparse
      exact ⟨t.rest, hvalue ▸ hw, hrest⟩
    · cases hparse

/-- The text of a value is read as the value, and repeats no key. -/
theorem parse_print {v : Json} (hplain : Plain v) (hdepth : depth v ≤ levelLimit)
    (hkeys : KeysApart v) : parse levelLimit v.print = .ok v ∧ ¬ RepeatsKey v.print := by
  have htext : v.print.toList = write v [] := String.toList_ofList
  have hspells := hplain.spells hdepth []
  constructor
  · obtain ⟨t, ht, hvalue, hrest⟩ := read_iff.mpr ⟨v, hspells, hkeys.merged_eq⟩
    unfold parse whole
    rw [htext, ht]
    simp only [hrest]
    exact congrArg Except.ok hvalue
  · rintro ⟨w, rest, hw, hrepeats⟩
    rw [htext] at hw
    obtain ⟨rfl, -⟩ := Spells.unique levelLimit hspells hw
    exact hrepeats hkeys

end SequenceChart.Json
