import SequenceChart.Format.FromJson
import SequenceChart.Proofs.JsonReading

/-!
# Reading charts from values, step by step

The reader of values goes through a list, an object, or a record that is written as a list, one
element after the other. This file says what one step does, with the rest of the reading behind it.

* `orNull_of_ne_null` says what an optional field is read as where there is a value;
* `ofItems_cons_eq`, `ofPositions_cons_eq` and `ofMembers_cons_eq` are the steps, `ofMember` is what
  one member of an object does to a draft;
* `ofJson_object_eq` reads a whole object. What has another form than its shape asks for is refused
  by `ofJson_list_other` and `ofJson_record_other`.
-/

namespace SequenceChart.Format

open SequenceChart.Json (Cause)

/-- A value that is there is read as it would be if the field were not optional. -/
theorem orNull_of_ne_null {α : Type} (optional : Bool) {v : Json} (h : v ≠ .null)
    (x : Except Cause α) : orNull optional v x = x.map some := by
  unfold orNull
  split
  · exact absurd rfl h
  · cases x <;> rfl

/-- Where a field is not optional, `null` is a value like any other. -/
theorem orNull_false {α : Type} (v : Json) (x : Except Cause α) :
    orNull false v x = x.map some := by
  cases x <;> rfl

/-! ## 1. Lists -/

theorem ofItems_cons_eq (item : Shape) (v : Json) (vs : List Json) :
    ofItems item (v :: vs) = (ofJson item v).bind fun x => (ofItems item vs).map (x :: ·) := by
  rw [ofItems]
  cases ofJson item v with
  | error e => rfl
  | ok x =>
    cases ofItems item vs <;> simp only [Except.bind] <;> rfl

theorem ofItems_cons {item : Shape} {v : Json} {vs : List Json} {xs : List item.Carrier}
    (h : ofItems item (v :: vs) = .ok xs) :
    ∃ y ys, ofJson item v = .ok y ∧ ofItems item vs = .ok ys ∧ xs = y :: ys := by
  rw [ofItems_cons_eq] at h
  obtain ⟨y, hy, h⟩ := Json.bind_eq_ok h
  obtain ⟨ys, hys, rfl⟩ := Json.map_eq_ok h
  exact ⟨y, ys, hy, hys, rfl⟩

theorem ofJson_list_other {item : Shape} {v : Json} (hv : ∀ vs, v ≠ .array vs) :
    ∃ cause, ofJson (.list item) v = .error cause := by
  cases v with
  | array vs => exact absurd rfl (hv vs)
  | null | bool | number | string | object => exact ⟨_, rfl⟩

/-! ## 2. Records -/

section Records

variable (r : Record)

theorem ofPositions_cons_eq (f : Field r.Carrier) (fs : List (Field r.Carrier)) (i size : Nat)
    (d : Draft r.Carrier) (v : Json) (vs : List Json) :
    ofPositions r (f :: fs) i size d (v :: vs) =
      (orNull f.optional v (ofJson f.shape v)).bind fun x =>
        ofPositions r fs (i + 1) size (d.give f x) vs := by
  rw [ofPositions]
  cases orNull f.optional v (ofJson f.shape v) <;> rfl

/-- What one member of an object does to a draft. -/
def ofMember (d : Draft r.Carrier) (key : String) (v : Json) : Except Cause (Draft r.Carrier) :=
  match r.field? key with
  | none => .ok d
  | some f =>
    if d.has f then .error (.duplicateField f.name)
    else (orNull f.optional v (ofJson f.shape v)).map (d.give f)

theorem ofMembers_cons_eq (d : Draft r.Carrier) (key : String) (v : Json) (ms : Json.Members) :
    ofMembers r d ((key, v) :: ms) = (ofMember r d key v).bind fun d => ofMembers r d ms := by
  rw [ofMembers]
  unfold ofMember
  cases r.field? key with
  | none => rfl
  | some f =>
    dsimp only
    split_ifs
    · rfl
    · cases orNull f.optional v (ofJson f.shape v) <;> rfl

theorem ofJson_object_eq (ms : Json.Members) :
    ofJson (.record r) (.object ms) = (ofMembers r r.draft ms).bind r.finish := by
  rw [ofJson]
  cases ofMembers r r.draft ms <;> rfl

variable {r}

theorem ofJson_object {ms : Json.Members} {x : r.Carrier}
    (h : ofJson (.record r) (.object ms) = .ok x) :
    ∃ d, ofMembers r r.draft ms = .ok d ∧ r.finish d = .ok x := by
  rw [ofJson_object_eq] at h
  exact Json.bind_eq_ok h

theorem ofJson_record_other {v : Json} (hlist : ∀ vs, v ≠ .array vs)
    (hobject : ∀ ms, v ≠ .object ms) : ∃ cause, ofJson (.record r) v = .error cause := by
  cases v with
  | array vs => exact absurd rfl (hlist vs)
  | object ms => exact absurd rfl (hobject ms)
  | null | bool | number | string => exact ⟨_, rfl⟩

end Records

end SequenceChart.Format
