/-!
# JSON values

A JSON value as a tree. Objects keep their members in the order in which the keys first appear,
and hold each key once. Numbers keep the form they were read in: a natural number, a negative whole
number, or a double, which is held by its bits so that equality of values is decidable.
-/

namespace SequenceChart

/-- A number of a JSON value. -/
inductive Json.Number where
  /-- A natural number below 2^64. -/
  | nat (n : Nat)
  /-- The number `-n`, for a positive `n` up to 2^63. -/
  | neg (n : Nat)
  /-- The double of these bits. -/
  | double (bits : UInt64)
  deriving DecidableEq, Repr, Inhabited

/-- A JSON value. -/
inductive Json where
  | null
  | bool (b : Bool)
  | number (n : Json.Number)
  | string (s : String)
  | array (items : List Json)
  | object (members : List (String × Json))
  deriving Repr, Inhabited

namespace Json

/-- Members of an object, in order. -/
abbrev Members := List (String × Json)

/-- Adds a member. A key that is there already keeps its place and takes the new value. -/
def Members.put (key : String) (value : Json) : Members → Members
  | [] => [(key, value)]
  | (k, v) :: ms => if k = key then (k, value) :: ms else (k, v) :: Members.put key value ms

/-- The value of a key of an object. Other values have no members. -/
def get? (key : String) : Json → Option Json
  | .object members => members.lookup key
  | _ => none

/-- A new key goes behind all others. -/
theorem Members.put_of_not_mem (key : String) (value : Json) : ∀ ms : Members,
    key ∉ ms.map Prod.fst → ms.put key value = ms ++ [(key, value)]
  | [], _ => rfl
  | (k, v) :: ms, h => by
      simp only [List.map_cons, List.mem_cons, not_or] at h
      simp [Members.put, Ne.symm h.1, Members.put_of_not_mem key value ms h.2]

/-- Putting a member in changes the keys by that key at most. -/
theorem Members.mem_keys_put (key : String) (value : Json) : ∀ (ms : Members) (k : String),
    k ∈ (ms.put key value).map Prod.fst ↔ k = key ∨ k ∈ ms.map Prod.fst
  | [], k => by simp [Members.put]
  | (k', v) :: ms, k => by
      by_cases h : k' = key
      · simp [Members.put, h]
      · simp only [Members.put, h, if_false, List.map_cons, List.mem_cons,
          Members.mem_keys_put key value ms k]
        exact or_left_comm

end Json

end SequenceChart
