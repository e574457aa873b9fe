import SequenceChart.Proofs.JsonReading

/-!
# How many brackets are open at once

A text is scanned for brackets from the left, and those inside of strings do not count. What was
written for a value has as many open at once as the value is deep.

* `Scan` is the state of the scan, and `mostOpen` the most brackets that are ever open;
* `Json.depth` is the depth of a value, and `Json.Plain` says that it is made of strings, lists and
  objects alone;
* `mostOpen_print` says that the text of such a value opens as many brackets as it is deep.
-/

namespace SequenceChart.Json

/-! ## 1. Scanning a text -/

/-- Where a scan stands: outside of strings, inside of one, or behind a backslash in it. -/
inductive Scan.Place where
  | outside
  | string
  | escape

/-- A scan: where it stands, the brackets that are open there, and the most that were. -/
structure Scan where
  place : Scan.Place
  opened : Nat
  most : Nat

/-- The scan behind one more character. -/
def Scan.step (s : Scan) (c : Char) : Scan :=
  match s.place with
  | .escape => { s with place := .string }
  | .string =>
    if c = '"' then { s with place := .outside }
    else if c = '\\' then { s with place := .escape }
    else s
  | .outside =>
    if c = '"' then { s with place := .string }
    else if c = '[' ∨ c = '\x7b' then
      { s with opened := s.opened + 1, most := max s.most (s.opened + 1) }
    else if c = ']' ∨ c = '\x7d' then { s with opened := s.opened - 1 }
    else s

/-- The scan behind a text. -/
def Scan.run (s : Scan) (text : List Char) : Scan :=
  text.foldl Scan.step s

/-- **The most brackets that are open at once in a text.** Those inside of strings do not count. -/
def mostOpen (text : List Char) : Nat :=
  (Scan.run ⟨.outside, 0, 0⟩ text).most

theorem Scan.run_append (s : Scan) (text rest : List Char) :
    s.run (text ++ rest) = (s.run text).run rest :=
  List.foldl_append

variable {n m : Nat}

/-- A character of a string leaves the scan inside of the string. -/
theorem Scan.run_escapeChar (c : Char) :
    Scan.run ⟨.string, n, m⟩ (escapeChar c) = ⟨.string, n, m⟩ := by
  have hdigit : ∀ k < 16, hexDigit k ≠ '"' ∧ hexDigit k ≠ '\\' := by decide
  have hform := escapeChar_form c
  generalize escapeChar c = written at hform
  cases hform with
  | short h => rfl
  | number h =>
    obtain ⟨hquote, hslash⟩ := hdigit (c.toNat / 16) (by omega)
    obtain ⟨hquote', hslash'⟩ := hdigit (c.toNat % 16) (by omega)
    simp [Scan.run, Scan.step, hquote, hslash, hquote', hslash']
  | plain hquote hslash _ => simp [Scan.run, Scan.step, hquote, hslash]

theorem Scan.run_escaped : ∀ t : List Char,
    Scan.run ⟨.string, n, m⟩ (t.flatMap escapeChar) = ⟨.string, n, m⟩
  | [] => rfl
  | c :: t => by
      rw [List.flatMap_cons, Scan.run_append, Scan.run_escapeChar, Scan.run_escaped t]

/-- Behind a string the scan stands as in front of it. -/
theorem Scan.run_writeString (s : String) (rest : List Char) :
    Scan.run ⟨.outside, n, m⟩ (writeString s rest) = Scan.run ⟨.outside, n, m⟩ rest := by
  show Scan.run ⟨.string, n, m⟩ (s.toList.flatMap escapeChar ++ '"' :: rest) = _
  rw [Scan.run_append, Scan.run_escaped]
  rfl

/-! ## 2. Values -/

mutual

/-- **The depth of a value**: the lists and objects that stand in each other. -/
def depth : Json → Nat
  | .array vs => 1 + depthItems vs
  | .object ms => 1 + depthMembers ms
  | _ => 0

/-- The depth of the deepest item. -/
def depthItems : List Json → Nat
  | [] => 0
  | v :: vs => max (depth v) (depthItems vs)

/-- The depth of the deepest member. -/
def depthMembers : List (String × Json) → Nat
  | [] => 0
  | (_, v) :: ms => max (depth v) (depthMembers ms)

end

/-- A value that is made of strings, lists and objects alone. -/
inductive Plain : Json → Prop where
  | string (s : String) : Plain (.string s)
  | array {vs : List Json} (h : ∀ v ∈ vs, Plain v) : Plain (.array vs)
  | object {ms : Members} (h : ∀ p ∈ ms, Plain p.2) : Plain (.object ms)

theorem Plain.ne_null {v : Json} (h : Plain v) : v ≠ .null := by
  rintro rfl
  cases h

/-- Such a value begins with a quote or a bracket. -/
theorem Plain.opens {v : Json} (h : Plain v) (rest : List Char) : Opens (write v rest) := by
  cases h with
  | string s => exact .quote _
  | @array vs _ => cases vs <;> exact .bracket _
  | @object ms _ => cases ms <;> exact .brace _

/-- The scan passes over what is written for a value: as many brackets are open behind it as in
    front of it, and in between at most as many more as the value is deep. -/
def Passes (v : Json) : Prop :=
  ∀ n m rest, n ≤ m → Scan.run ⟨.outside, n, m⟩ (write v rest) =
    Scan.run ⟨.outside, n, max m (n + depth v)⟩ rest

theorem Scan.run_writeItems (rest : List Char) : ∀ vs : List Json, (∀ v ∈ vs, Passes v) →
    ∀ n m, n ≤ m → Scan.run ⟨.outside, n, m⟩ (writeItems vs rest) =
      Scan.run ⟨.outside, n, max m (n + depthItems vs)⟩ rest
  | [], _, n, m, hle => by
      rw [writeItems, depthItems, Nat.add_zero, Nat.max_eq_left hle]
  | v :: vs, h, n, m, hle => by
      have hv := h v List.mem_cons_self n m (writeItems vs rest) hle
      have hvs := Scan.run_writeItems rest vs (fun x hx => h x (List.mem_cons_of_mem v hx)) n
        (max m (n + depth v)) (by omega)
      have hmost : max (max m (n + depth v)) (n + depthItems vs) =
          max m (n + max (depth v) (depthItems vs)) := by omega
      rw [writeItems, depthItems, ← hmost, ← hvs, ← hv]
      rfl

theorem Scan.run_writeMembers (rest : List Char) : ∀ ms : Members, (∀ p ∈ ms, Passes p.2) →
    ∀ n m, n ≤ m → Scan.run ⟨.outside, n, m⟩ (writeMembers ms rest) =
      Scan.run ⟨.outside, n, max m (n + depthMembers ms)⟩ rest
  | [], _, n, m, hle => by
      rw [writeMembers, depthMembers, Nat.add_zero, Nat.max_eq_left hle]
  | (k, v) :: ms, h, n, m, hle => by
      have hv := h (k, v) List.mem_cons_self n m (writeMembers ms rest) hle
      have hms := Scan.run_writeMembers rest ms (fun x hx => h x (List.mem_cons_of_mem _ hx)) n
        (max m (n + depth v)) (by omega)
      have hmost : max (max m (n + depth v)) (n + depthMembers ms) =
          max m (n + max (depth v) (depthMembers ms)) := by omega
      rw [writeMembers, depthMembers, ← hmost, ← hms, ← hv]
      exact Scan.run_writeString k (':' :: write v (writeMembers ms rest))

/-- A list whose items are passed over. -/
theorem passes_array {vs : List Json} (h : ∀ v ∈ vs, Passes v) : Passes (.array vs) := by
  intro n m rest hle
  have hitems := Scan.run_writeItems (']' :: rest) vs h (n + 1) (max m (n + 1)) (by omega)
  have hdepth : max (max m (n + 1)) (n + 1 + depthItems vs) = max m (n + depth (.array vs)) := by
    rw [depth]
    omega
  rw [hdepth] at hitems
  -- the comma in front of an item changes nothing, so the first item may be scanned with one
  cases vs with
  | nil => exact hitems
  | cons v vs => exact hitems

/-- An object whose members are passed over. -/
theorem passes_object {ms : Members} (h : ∀ p ∈ ms, Passes p.2) : Passes (.object ms) := by
  intro n m rest hle
  have hmembers := Scan.run_writeMembers ('\x7d' :: rest) ms h (n + 1) (max m (n + 1)) (by omega)
  have hdepth : max (max m (n + 1)) (n + 1 + depthMembers ms) =
      max m (n + depth (.object ms)) := by
    rw [depth]
    omega
  rw [hdepth] at hmembers
  cases ms with
  | nil => exact hmembers
  | cons p ms => exact hmembers

/-- **The scan passes over every plain value.** -/
theorem Plain.passes {v : Json} (h : Plain v) : Passes v := by
  induction h with
  | string s =>
    intro n m rest hle
    have hdepth : depth (.string s) = 0 := by simp [depth]
    rw [hdepth, Nat.add_zero, Nat.max_eq_left hle]
    exact Scan.run_writeString s rest
  | array _ ih => exact passes_array ih
  | object _ ih => exact passes_object ih

/-- **The text of a value has as many brackets open at once as the value is deep.** -/
theorem mostOpen_print {v : Json} (h : Plain v) : mostOpen v.print.toList = depth v := by
  have hpass := h.passes 0 0 [] (Nat.le_refl 0)
  unfold mostOpen print
  rw [String.toList_ofList, hpass]
  show max 0 (0 + depth v) = depth v
  omega

end SequenceChart.Json
