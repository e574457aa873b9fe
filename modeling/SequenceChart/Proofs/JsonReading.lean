import SequenceChart.Json.Parse
import SequenceChart.Json.Print
import Mathlib.Tactic.SplitIfs

/-!
# Reading back what is written in JSON

The writers put a text in front of another, and the readers take it off again. This file holds what
is said of readers, and proves it of the parts that values are made of.

* `Takes` says that a reader takes a value and leaves the rest; `Meets` that it does so if the text
  is within the limit of nesting, and stops at that limit otherwise;
* `readString_written` reads back a string, whatever its characters;
* `items_item`, `members_key` and their companions take one round of reading a list or an object,
  with the marks that stand between items and between members.
-/

namespace SequenceChart.Json

variable {α β : Type} {cs ds : List Char} {a : α} {rest : List Char}

/-! ## 1. What readers do -/

/-- **The reader takes this value** and leaves this rest of the text. -/
def Takes (x : Except Fault (Taken α cs)) (a : α) (rest : List Char) : Prop :=
  ∃ t, x = .ok t ∧ t.value = a ∧ t.rest = rest

/-- **The reader takes this value if the text fits**, and stops at the limit of nesting if not. -/
inductive Meets (fits : Prop) (x : Except Fault (Taken α cs)) (a : α) (rest : List Char) :
    Prop where
  | taken (h : fits) (ht : Takes x a rest)
  | tooDeep (h : ¬ fits) (left : Nat) (hx : x = .error ⟨.tooDeep, left⟩)

theorem bind_eq_ok {ε : Type} {x : Except ε α} {y : α → Except ε β} {b : β}
    (h : x.bind y = .ok b) : ∃ a, x = .ok a ∧ y a = .ok b := by
  cases x with
  | error e => cases h
  | ok a => exact ⟨a, rfl, h⟩

theorem map_eq_ok {ε : Type} {x : Except ε α} {f : α → β} {b : β} (h : x.map f = .ok b) :
    ∃ a, x = .ok a ∧ f a = b := by
  cases x with
  | error e => cases h
  | ok a => exact ⟨a, rfl, Except.ok.inj h⟩

/-- A value that is changed, with the same rest. -/
theorem Takes.map {x : Except Fault (Taken α cs)} (h : Takes x a rest)
    {f : Taken α cs → Taken β ds} {g : α → β}
    (hf : ∀ t, (f t).value = g t.value ∧ (f t).rest = t.rest) : Takes (x.map f) (g a) rest := by
  obtain ⟨t, rfl, rfl, rfl⟩ := h
  exact ⟨f t, rfl, (hf t).1, (hf t).2⟩

theorem Meets.map {fits : Prop} {x : Except Fault (Taken α cs)} (h : Meets fits x a rest)
    {f : Taken α cs → Taken β ds} {g : α → β}
    (hf : ∀ t, (f t).value = g t.value ∧ (f t).rest = t.rest) :
    Meets fits (x.map f) (g a) rest := by
  cases h with
  | taken h ht => exact .taken h (ht.map hf)
  | tooDeep h left hx => exact .tooDeep h left (by rw [hx]; rfl)

/-- What is read behind a value that was taken. -/
theorem Meets.bind {fits fits' : Prop} {b : β} {behind : List Char} {x : Except Fault (Taken α cs)}
    {y : Taken α cs → Except Fault (Taken β ds)} (hx : Meets fits x a behind)
    (hy : ∀ t : Taken α cs, t.value = a → t.rest = behind → Meets fits' (y t) b rest) :
    Meets (fits ∧ fits') (x.bind y) b rest := by
  cases hx with
  | tooDeep h left hx =>
    rw [hx]
    exact .tooDeep (fun both => h both.1) left rfl
  | taken h ht =>
    obtain ⟨t, rfl, hvalue, hrest⟩ := ht
    cases hy t hvalue hrest with
    | tooDeep h' left hx => exact .tooDeep (fun both => h' both.2) left hx
    | taken h' ht => exact .taken ⟨h, h'⟩ ht

theorem Meets.congr {fits fits' : Prop} {x : Except Fault (Taken α cs)} (h : Meets fits x a rest)
    (hfits : fits ↔ fits') : Meets fits' x a rest :=
  propext hfits ▸ h

/-! ## 2. Strings -/

/-- The forms in which a character of a string is written. -/
inductive EscapeForm (c : Char) : List Char → Prop where
  | short {d : Char} (h : shortEscape? d = some c) : EscapeForm c ['\\', d]
  | number (h : c.toNat < 0x20) :
      EscapeForm c ['\\', 'u', '0', '0', hexDigit (c.toNat / 16), hexDigit (c.toNat % 16)]
  | plain (hquote : c ≠ '"') (hslash : c ≠ '\\') (hcontrol : ¬ c.toNat < 0x20) : EscapeForm c [c]

theorem escapeChar_form (c : Char) : EscapeForm c (escapeChar c) := by
  unfold escapeChar
  split_ifs with hquote hslash hback hfeed hline hreturn htab hcontrol
  · exact .short (by rw [hquote]; rfl)
  · exact .short (by rw [hslash]; rfl)
  · exact .short (hback ▸ rfl)
  · exact .short (hfeed ▸ rfl)
  · exact .short (hline ▸ rfl)
  · exact .short (hreturn ▸ rfl)
  · exact .short (htab ▸ rfl)
  · exact .number hcontrol
  · exact .plain hquote hslash hcontrol

theorem hexDigit?_hexDigit {n : Nat} (h : n < 16) : hexDigit? (hexDigit n) = some n := by
  have hall : ∀ n < 16, hexDigit? (hexDigit n) = some n := by decide
  exact hall n h

/-- The number of a character below U+0100 is read back from its last two digits. -/
theorem hex4_written {n : Nat} (h : n < 256) (rest : List Char) :
    Takes (hex4 ('0' :: '0' :: hexDigit (n / 16) :: hexDigit (n % 16) :: rest)) n rest := by
  have hhigh := hexDigit?_hexDigit (n := n / 16) (by omega)
  have hlow := hexDigit?_hexDigit (n := n % 16) (by omega)
  have hzero : hexDigit? '0' = some 0 := rfl
  simp only [hex4, hhigh, hlow, hzero]
  refine ⟨_, rfl, ?_, rfl⟩
  show ((0 * 16 + 0) * 16 + n / 16) * 16 + n % 16 = n
  omega

/-- A character below U+0020 is read back from its number. -/
theorem codePoint_written {c : Char} (h : c.toNat < 0x20) (rest : List Char) :
    Takes (codePoint ('0' :: '0' :: hexDigit (c.toNat / 16) :: hexDigit (c.toNat % 16) :: rest))
      c rest := by
  obtain ⟨t, ht, hvalue, hrest⟩ := hex4_written (n := c.toNat) (by omega) rest
  have htrail : ¬ isTrail t.value = true := by
    rw [hvalue, isTrail]
    simp only [Bool.and_eq_true, decide_eq_true_eq]
    omega
  have hlead : ¬ isLead t.value = true := by
    rw [hvalue, isLead]
    simp only [Bool.and_eq_true, decide_eq_true_eq]
    omega
  unfold codePoint
  rw [ht]
  simp only [if_neg htrail, if_neg hlead]
  refine ⟨_, rfl, ?_, hrest⟩
  show Char.ofNat t.value = c
  rw [hvalue, Char.ofNat_toNat]

theorem escaped_short {c d : Char} (h : shortEscape? c = some d) (rest : List Char) :
    Takes (escaped (c :: rest)) d rest := by
  simp only [escaped, h]
  exact ⟨_, rfl, rfl, rfl⟩

theorem escaped_number {c : Char} (h : c.toNat < 0x20) (rest : List Char) :
    Takes (escaped
      ('u' :: '0' :: '0' :: hexDigit (c.toNat / 16) :: hexDigit (c.toNat % 16) :: rest)) c rest :=
  (codePoint_written h rest).map (f := Taken.later) (g := id) fun _ => ⟨rfl, rfl⟩

/-- An escape is read as its character, and the string goes on behind it. -/
theorem stringRest_escape {t : List Char} {c : Char} {behind : List Char}
    (hc : Takes (escaped cs) c behind) (ht : Takes (stringRest behind) t rest) :
    Takes (stringRest ('\\' :: cs)) (c :: t) rest := by
  obtain ⟨u, hu, rfl, rfl⟩ := hc
  have hquote : ¬ '\\' = '"' := by decide
  rw [stringRest, if_neg hquote, if_pos rfl, hu]
  exact ht.map fun _ => ⟨rfl, rfl⟩

/-- A character that needs no escape is read as itself. -/
theorem stringRest_plain {t : List Char} {c : Char} (hquote : c ≠ '"') (hslash : c ≠ '\\')
    (hcontrol : ¬ c.toNat < 0x20) (ht : Takes (stringRest cs) t rest) :
    Takes (stringRest (c :: cs)) (c :: t) rest := by
  rw [stringRest, if_neg hquote, if_neg hslash, if_neg hcontrol]
  exact ht.map fun _ => ⟨rfl, rfl⟩

/-- One character of a string is read back. -/
theorem stringRest_escapeChar {t : List Char} (c : Char) (ht : Takes (stringRest cs) t rest) :
    Takes (stringRest (escapeChar c ++ cs)) (c :: t) rest := by
  have hform := escapeChar_form c
  generalize escapeChar c = written at hform
  cases hform with
  | short h => exact stringRest_escape (escaped_short h cs) ht
  | number h => exact stringRest_escape (escaped_number h cs) ht
  | plain hquote hslash hcontrol => exact stringRest_plain hquote hslash hcontrol ht

theorem stringRest_written (rest : List Char) : ∀ t : List Char,
    Takes (stringRest (t.flatMap escapeChar ++ '"' :: rest)) t rest
  | [] => by
      show Takes (stringRest ('"' :: rest)) [] rest
      rw [stringRest, if_pos rfl]
      exact ⟨_, rfl, rfl, rfl⟩
  | c :: t => by
      rw [List.flatMap_cons, List.append_assoc]
      exact stringRest_escapeChar c (stringRest_written rest t)

/-- **A string is read back** behind its opening quote. -/
theorem readString_written (s : String) (rest : List Char) :
    Takes (readString (s.toList.flatMap escapeChar ++ '"' :: rest)) s rest := by
  have h := (stringRest_written rest s.toList).map (f := fun t => t.map String.ofList)
    (g := String.ofList) fun _ => ⟨rfl, rfl⟩
  rw [String.ofList_toList] at h
  exact h

/-! ## 3. Marks -/

/-- The text begins with a string, a list or an object. -/
inductive Opens : List Char → Prop where
  | quote (rest : List Char) : Opens ('"' :: rest)
  | bracket (rest : List Char) : Opens ('[' :: rest)
  | brace (rest : List Char) : Opens ('\x7b' :: rest)

theorem nextItem_close (first : Bool) (rest : List Char) :
    ∃ t, nextItem first (']' :: rest) = .ok (.close t) ∧ t.rest = rest :=
  ⟨_, rfl, rfl⟩

theorem nextItem_first {cs : List Char} (h : Opens cs) :
    ∃ r, nextItem true cs = .ok (.item r) ∧ r.rest = cs := by
  cases h <;> exact ⟨_, rfl, rfl⟩

theorem nextItem_comma {cs : List Char} (h : Opens cs) :
    ∃ r, nextItem false (',' :: cs) = .ok (.item r) ∧ r.rest = cs := by
  cases h <;> exact ⟨_, rfl, rfl⟩

theorem nextKey_close (first : Bool) (rest : List Char) :
    ∃ t, nextKey first ('\x7d' :: rest) = .ok (.close t) ∧ t.rest = rest :=
  ⟨_, rfl, rfl⟩

theorem nextKey_first (s : String) (rest : List Char) :
    ∃ k, nextKey true (writeString s rest) = .ok (.key k) ∧ k.value = s ∧ k.rest = rest := by
  obtain ⟨t, ht, hvalue, hrest⟩ := readString_written s rest
  have hkey : nextKey true (writeString s rest) =
      ((readString (s.toList.flatMap escapeChar ++ '"' :: rest)).map Taken.later).map
        fun t => .key (t.spaced rfl) := rfl
  rw [hkey, ht]
  exact ⟨_, rfl, hvalue, hrest⟩

theorem nextKey_comma (s : String) (rest : List Char) :
    ∃ k, nextKey false (',' :: writeString s rest) = .ok (.key k) ∧ k.value = s ∧
      k.rest = rest := by
  obtain ⟨t, ht, hvalue, hrest⟩ := readString_written s rest
  have hkey : nextKey false (',' :: writeString s rest) =
      ((readString (s.toList.flatMap escapeChar ++ '"' :: rest)).map Taken.later).map
        fun t => .key ((t.spaced rfl).later.spaced rfl) := rfl
  rw [hkey, ht]
  exact ⟨_, rfl, hvalue, hrest⟩

/-! ## 4. Lists and objects -/

section Items

variable {next : Bool → (cs : List Char) → Except Fault (NextItem cs)} {item : Reader α}
  {first : Bool}

theorem items_close {t : Taken Unit cs} (h : next first cs = .ok (.close t))
    (hrest : t.rest = rest) : Takes (items next item first cs) [] rest := by
  rw [items, h]
  exact ⟨_, rfl, rfl, hrest⟩

/-- One round of a list: an item, and the list behind it. -/
theorem items_of_item {r : Rest cs} (h : next first cs = .ok (.item r)) :
    items next item first cs = (item r.rest).bind fun t =>
      (items next item false t.rest).map fun ts =>
        Taken.within ((t.andThen ts).map (t.value :: ·)) := by
  rw [items, h]
  cases hx : item r.rest with
  | error f => simp only [hx, Except.bind]
  | ok t =>
    cases hts : items next item false t.rest <;>
      simp only [hx, hts, Except.bind, Except.map]

/-- An item is read, and the list goes on behind it. -/
theorem items_item {fits fits' : Prop} {r : Rest cs} {as : List α} {text behind : List Char}
    (h : next first cs = .ok (.item r)) (hr : r.rest = text)
    (hitem : Meets fits (item text) a behind)
    (hmore : Meets fits' (items next item false behind) as rest) :
    Meets (fits ∧ fits') (items next item first cs) (a :: as) rest := by
  subst hr
  rw [items_of_item h]
  refine hitem.bind fun t hvalue hrest => ?_
  subst hvalue hrest
  exact hmore.map fun _ => ⟨rfl, rfl⟩

end Items

section Members

variable {κ σ : Type} {next : Bool → (cs : List Char) → Except Fault (NextKey κ cs)}
  {member : σ → κ → Reader σ} {first : Bool} {s s' : σ}

theorem members_close {t : Taken Unit cs} (h : next first cs = .ok (.close t))
    (hrest : t.rest = rest) : Takes (members next member first s cs) s rest := by
  rw [members, h]
  exact ⟨_, rfl, rfl, hrest⟩

/-- One round of an object: a member, and the object behind it. -/
theorem members_of_key {k : Taken κ cs} (h : next first cs = .ok (.key k)) :
    members next member first s cs = (member s k.value k.rest).bind fun t =>
      (members next member false t.value t.rest).map fun u => k.andThen (t.andThen u) := by
  rw [members, h]
  cases hx : member s k.value k.rest with
  | error f => simp only [hx, Except.bind]
  | ok t =>
    cases hu : members next member false t.value t.rest <;>
      simp only [hx, hu, Except.bind, Except.map]

/-- A member is read, and the object goes on behind it. -/
theorem members_key {fits fits' : Prop} {k : Taken κ cs} {key : κ} {final : σ}
    {text behind : List Char} (h : next first cs = .ok (.key k)) (hkey : k.value = key)
    (hk : k.rest = text) (hmember : Meets fits (member s key text) s' behind)
    (hmore : Meets fits' (members next member false s' behind) final rest) :
    Meets (fits ∧ fits') (members next member first s cs) final rest := by
  subst hkey hk
  rw [members_of_key h]
  refine hmember.bind fun t hvalue hrest => ?_
  subst hvalue hrest
  exact hmore.map (g := id) fun _ => ⟨rfl, rfl⟩

end Members

end SequenceChart.Json
