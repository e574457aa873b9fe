import SequenceChart.Json.Fault

/-!
# Readers

A reader takes a value off the front of a text. What it gives back holds the rest of the text
together with the proof that the rest is shorter, so that readers can be repeated without a bound
on the number of rounds.

* `Reader` and `Taken` are readers and what they give; `Rest` is a rest that may be the whole text;
* `skipSpace` skips blanks, and `letters` reads the letters of a word;
* `items` repeats a reader over the items of a list, `members` over the members of an object. Both
  are told by a function where the next item or key begins, or that the list or object is closed.
-/

namespace SequenceChart.Json

/-! ## 1. Rests of texts -/

/-- A rest of a text that may be all of it. -/
structure Rest (cs : List Char) where
  rest : List Char
  within : rest.length ≤ cs.length

/-- All of a text. -/
def Rest.all (cs : List Char) : Rest cs :=
  ⟨cs, Nat.le_refl _⟩

/-- The same rest of a text with one more character in front. -/
def Rest.later {c : Char} {cs : List Char} (r : Rest cs) : Rest (c :: cs) :=
  ⟨r.rest, Nat.le_succ_of_le r.within⟩

/-- A value taken off a text, and the rest of the text. -/
structure Taken (α : Type) (cs : List Char) where
  value : α
  rest : List Char
  shorter : rest.length < cs.length

namespace Taken

variable {α β : Type} {c : Char} {cs : List Char}

/-- Another value with the same rest. -/
def map (f : α → β) (t : Taken α cs) : Taken β cs :=
  ⟨f t.value, t.rest, t.shorter⟩

/-- A value for the first character alone. -/
def first (a : α) : Taken α (c :: cs) :=
  ⟨a, cs, Nat.lt_succ_self _⟩

/-- A value for the first character and what is read behind it. -/
def withFirst (a : α) (r : Rest cs) : Taken α (c :: cs) :=
  ⟨a, r.rest, Nat.lt_succ_of_le r.within⟩

/-- The same value, taken off a text with one more character in front. -/
def later (t : Taken α cs) : Taken α (c :: cs) :=
  ⟨t.value, t.rest, Nat.lt_succ_of_lt t.shorter⟩

/-- The same value, taken off behind what another reader has passed. -/
def within {r : Rest cs} (t : Taken α r.rest) : Taken α cs :=
  ⟨t.value, t.rest, Nat.lt_of_lt_of_le t.shorter r.within⟩

/-- The same value with less of the text left. -/
def upTo (t : Taken α cs) (r : Rest t.rest) : Taken α cs :=
  ⟨t.value, r.rest, Nat.lt_of_le_of_lt r.within t.shorter⟩

/-- What is taken behind another value, seen from in front of both. -/
def andThen (t : Taken α cs) (u : Taken β t.rest) : Taken β cs :=
  ⟨u.value, u.rest, Nat.lt_trans u.shorter t.shorter⟩

/-- What is left of the text, as a rest that may be all of it. -/
def left (t : Taken α cs) : Rest cs :=
  ⟨t.rest, Nat.le_of_lt t.shorter⟩

end Taken

/-- Takes a value off the front of a text. -/
abbrev Reader (α : Type) := (cs : List Char) → Except Fault (Taken α cs)

/-! ## 2. Blanks and words -/

/-- The blanks between the parts of a JSON text. -/
def isSpace (c : Char) : Bool :=
  c = ' ' || c = '\n' || c = '\t' || c = '\r'

/-- The text without the blanks at its front. -/
def skipSpace (cs : List Char) : List Char :=
  cs.dropWhile isSpace

theorem skipSpace_length (cs : List Char) : (skipSpace cs).length ≤ cs.length :=
  (List.dropWhile_sublist _).length_le

/-- What is left behind blanks is left of the text with the blanks. -/
theorem length_le_of_skipSpace {cs ds : List Char} (h : skipSpace cs = ds) :
    ds.length ≤ cs.length :=
  h ▸ skipSpace_length cs

/-- A rest behind blanks, as a rest of the text with the blanks. -/
def Rest.spaced {cs ds : List Char} (h : skipSpace cs = ds) (r : Rest ds) : Rest cs :=
  ⟨r.rest, Nat.le_trans r.within (length_le_of_skipSpace h)⟩

/-- A value taken behind blanks, as taken off the text with the blanks. -/
def Taken.spaced {α : Type} {cs ds : List Char} (h : skipSpace cs = ds) (t : Taken α ds) :
    Taken α cs :=
  ⟨t.value, t.rest, Nat.lt_of_lt_of_le t.shorter (length_le_of_skipSpace h)⟩

/-- Reads the given letters. -/
def letters : (word cs : List Char) → Except Fault (Rest cs)
  | [], cs => .ok (.all cs)
  | _ :: _, [] => .error (.before .endInValue [])
  | w :: word, c :: cs =>
    if c = w then (letters word cs).map Rest.later
    else .error (.behind .expectedIdent (c :: cs))

/-- Reads the rest of a word whose first letter is there, and gives the value it stands for. -/
def word {α : Type} (value : α) (rest : List Char) (c : Char) (cs : List Char) :
    Except Fault (Taken α (c :: cs)) :=
  (letters rest cs).map (Taken.withFirst value)

/-! ## 3. Lists -/

/-- What comes next in a list: its end, or an item. -/
inductive NextItem (cs : List Char) where
  /-- The list is closed. -/
  | close (behind : Taken Unit cs)
  /-- An item begins here. -/
  | item (here : Rest cs)

/-- Reads items until the list is closed. The flag says that no item has been read yet. -/
def items {α : Type} (next : Bool → (cs : List Char) → Except Fault (NextItem cs))
    (item : Reader α) (first : Bool) (cs : List Char) : Except Fault (Taken (List α) cs) :=
  match next first cs with
  | .error f => .error f
  | .ok (.close t) => .ok (t.map fun _ => [])
  | .ok (.item r) =>
    match item r.rest with
    | .error f => .error f
    | .ok t =>
      match items next item false t.rest with
      | .error f => .error f
      | .ok ts => .ok (Taken.within ((t.andThen ts).map (t.value :: ·)))
termination_by cs.length
decreasing_by exact Nat.lt_of_lt_of_le t.shorter r.within

/-! ## 4. Objects -/

/-- What comes next in an object: its end, or a key. -/
inductive NextKey (κ : Type) (cs : List Char) where
  /-- The object is closed. -/
  | close (behind : Taken Unit cs)
  /-- There is a key. -/
  | key (key : Taken κ cs)

/-- Reads members until the object is closed, and changes a state with each. -/
def members {κ σ : Type} (next : Bool → (cs : List Char) → Except Fault (NextKey κ cs))
    (member : σ → κ → Reader σ) (first : Bool) (s : σ) (cs : List Char) :
    Except Fault (Taken σ cs) :=
  match next first cs with
  | .error f => .error f
  | .ok (.close t) => .ok (t.map fun _ => s)
  | .ok (.key k) =>
    match member s k.value k.rest with
    | .error f => .error f
    | .ok t =>
      match members next member false t.value t.rest with
      | .error f => .error f
      | .ok u => .ok (k.andThen (t.andThen u))
termination_by cs.length
decreasing_by exact Nat.lt_trans t.shorter k.shorter

/-- Reads the colon between a key and its value. -/
def colon : Reader Unit := fun cs =>
  match h : skipSpace cs with
  | ':' :: _ => .ok ((Taken.first ()).spaced h)
  | [] => .error (.behind .endInObject [])
  | c :: rest => .error (.behind .expectedColon (c :: rest))

end SequenceChart.Json
