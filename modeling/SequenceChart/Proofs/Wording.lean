import SequenceChart.Proofs.Entries
import SequenceChart.Proofs.RoundTrip
import Mathlib.Logic.Relation

/-!
# The same chart in other words

A JSON value says which chart it is read as, and leaves open how: in which order the members of an
object stand, which of its two names a field goes by, and whether what is absent is written down.

* `Rewords` lists the changes in the object of one record that change nothing in what it says;
* `Within` says that one object, somewhere in a value, is changed. `Within.read` takes the reading
  of the value apart there: it needs what the object is read as, and nothing else of it;
* `reworded_read_alike` says that values that differ by any number of such changes are read alike,
  and that a value with two names of one field in an object is not read at all.
-/

namespace SequenceChart

namespace Format

/-! ## 1. Changes in one object -/

/-- None of the members is given under a name of the field. -/
def NotGiven {ρ : Type} (f : Field ρ) (ms : Json.Members) : Prop :=
  ∀ p ∈ ms, f.answers p.1 = false

/-- The members that say what is said without them: empty lists and texts that are the defaults of
    their fields. -/
def Record.emptyMembers : Record → Json.Members
  | .chart => [("entities", .array []), ("arcs", .array [])]
  | .entity => []
  | .arc => [("kind", .string ""), ("from", .string ""), ("to", .string "")]

/-- **A change in the object of a record that does not change what it says.** The changes that put a
    member in take it out when they are read from right to left. -/
inductive Rewords (r : Record) : Json.Members → Json.Members → Prop
  /-- The members in another order. -/
  | order {ms ms' : Json.Members} (h : ms.Perm ms') : Rewords r ms ms'
  /-- A member whose key the record does not know. -/
  | unknown (ms ns : Json.Members) {key : String} {v : Json} (h : r.field? key = none) :
      Rewords r (ms ++ ns) (ms ++ (key, v) :: ns)
  /-- A key in place of another for the same field. -/
  | otherName (ms ns : Json.Members) {key key' : String} {v : Json} {f : Field r.Carrier}
      (h : r.field? key = some f) (h' : r.field? key' = some f) :
      Rewords r (ms ++ (key, v) :: ns) (ms ++ (key', v) :: ns)
  /-- A `null` for an optional field that is not given otherwise. -/
  | null (ms ns : Json.Members) {key : String} {f : Field r.Carrier} (h : r.field? key = some f)
      (hoptional : f.optional = true) (habsent : NotGiven f (ms ++ ns)) :
      Rewords r (ms ++ ns) (ms ++ (key, .null) :: ns)
  /-- An empty default for a field that is not given otherwise. -/
  | empty (ms ns : Json.Members) {key : String} {v : Json} {f : Field r.Carrier}
      (h : r.field? key = some f) (hempty : (key, v) ∈ r.emptyMembers)
      (habsent : NotGiven f (ms ++ ns)) : Rewords r (ms ++ ns) (ms ++ (key, v) :: ns)

variable {r : Record}

/-- Fields of a record with the same name are the same. -/
theorem Record.eq_of_name_eq {f g : Field r.Carrier} (hf : f ∈ r.fields) (hg : g ∈ r.fields)
    (h : f.name = g.name) : f = g :=
  List.inj_on_of_nodup_map r.nodup_names hf hg h

theorem Record.answers_of_field? {key : String} {f : Field r.Carrier} (h : r.field? key = some f) :
    f.answers key = true := by
  have hfound := List.find?_some h
  exact hfound

/-- A field that is not given is none of those that the members bring. -/
theorem NotGiven.not_mem_names {ms : Json.Members} {parts : List (List (Entry r))}
    {f : Field r.Carrier} (hf : f ∈ r.fields) (h : NotGiven f ms)
    (hparts : List.Forall₂ (Brings r) ms parts) : f.name ∉ names parts.flatten := by
  induction hparts with
  | nil => exact List.not_mem_nil
  | @cons p es ms parts hes _ ih =>
    obtain ⟨hp, hms⟩ := List.forall_mem_cons.mp h
    rw [List.flatten_cons, names, List.map_append, List.mem_append, not_or]
    refine ⟨fun hmem => ?_, ih hms⟩
    cases hes with
    | unknown _ => exact absurd hmem List.not_mem_nil
    | @known _ _ g _ hg _ =>
      have hsame := Record.eq_of_name_eq hf (Record.mem_of_field? hg) (List.mem_singleton.mp hmem)
      have hanswers := Record.answers_of_field? hg
      rw [← hsame, hp] at hanswers
      cases hanswers

/-- **An entry that changes nothing**: filled in in a blank record it leaves it blank, and it is not
    one that has to be given. -/
structure Entry.Idle (e : Entry r) : Prop where
  blank : Entry.fill r.blank e = r.blank
  free : e.field.required = false

theorem makes_cons_idle_iff {e : Entry r} {es : List (Entry r)} {x : r.Carrier} (he : e.Idle)
    (hfield : e.field ∈ r.fields) (hnew : e.field.name ∉ names es) :
    Makes (e :: es) x ↔ Makes es x := by
  have hvalue : (e :: es).foldl Entry.fill r.blank = es.foldl Entry.fill r.blank := by
    rw [List.foldl_cons, he.blank]
  constructor
  · intro h
    refine ⟨(List.nodup_cons.mp h.once).2, fun f hf hr => ?_, hvalue ▸ h.value⟩
    rcases List.mem_cons.mp (h.enough f hf hr) with hsame | hmem
    · rw [Record.eq_of_name_eq hf hfield hsame, he.free] at hr
      cases hr
    · exact hmem
  · intro h
    exact ⟨List.nodup_cons.mpr ⟨hnew, h.once⟩,
      fun f hf hr => List.mem_cons_of_mem _ (h.enough f hf hr), hvalue.trans h.value⟩

/-- Members that bring the same may stand in each other's place. -/
theorem ofJson_object_replace {p q : String × Json} {ms ns : Json.Members} {x : r.Carrier}
    (hsame : ∀ es, Brings r p es → Brings r q es)
    (h : ofJson (.record r) (.object (ms ++ p :: ns)) = .ok x) :
    ofJson (.record r) (.object (ms ++ q :: ns)) = .ok x := by
  refine ofJson_object_perm List.perm_middle.symm ?_
  obtain ⟨_, hparts, hmakes⟩ := ofJson_object_iff.mp (ofJson_object_perm List.perm_middle h)
  cases hparts with
  | cons hes hparts => exact ofJson_object_iff.mpr ⟨_, .cons (hsame _ hes) hparts, hmakes⟩

/-- A member that brings nothing may be left out and put in. -/
theorem ofJson_object_unknown {key : String} {v : Json} {ms ns : Json.Members} {x : r.Carrier}
    (hkey : r.field? key = none) : ofJson (.record r) (.object (ms ++ (key, v) :: ns)) = .ok x ↔
      ofJson (.record r) (.object (ms ++ ns)) = .ok x := by
  constructor
  · intro h
    obtain ⟨_, hparts, hmakes⟩ := ofJson_object_iff.mp (ofJson_object_perm List.perm_middle h)
    cases hparts with
    | cons hes hparts =>
      cases hes with
      | unknown _ => exact ofJson_object_iff.mpr ⟨_, hparts, hmakes⟩
      | known hf _ =>
        rw [hkey] at hf
        cases hf
  · intro h
    obtain ⟨parts, hparts, hmakes⟩ := ofJson_object_iff.mp h
    refine ofJson_object_perm List.perm_middle.symm ?_
    exact ofJson_object_iff.mpr ⟨[] :: parts, .cons (.unknown hkey) hparts, hmakes⟩

/-- A member that brings an entry which changes nothing may be left out, and put in where its field
    is not given. -/
theorem ofJson_object_idle {key : String} {v : Json} {ms ns : Json.Members} {x : r.Carrier}
    {f : Field r.Carrier} {y : Option f.shape.Carrier} (hkey : r.field? key = some f)
    (hread : orNull f.optional v (ofJson f.shape v) = .ok y) (hidle : Entry.Idle ⟨f, y⟩)
    (habsent : NotGiven f (ms ++ ns)) :
    ofJson (.record r) (.object (ms ++ (key, v) :: ns)) = .ok x ↔
      ofJson (.record r) (.object (ms ++ ns)) = .ok x := by
  have hfield := Record.mem_of_field? hkey
  constructor
  · intro h
    obtain ⟨_, hparts, hmakes⟩ := ofJson_object_iff.mp (ofJson_object_perm List.perm_middle h)
    cases hparts with
    | @cons _ _ _ parts hes hparts =>
      have hnew := habsent.not_mem_names hfield hparts
      cases hes with
      | unknown hnone =>
        rw [hkey] at hnone
        cases hnone
      | known hg hx =>
        rw [hkey] at hg
        cases hg
        cases hread.symm.trans hx
        exact ofJson_object_iff.mpr
          ⟨parts, hparts, (makes_cons_idle_iff hidle hfield hnew).mp hmakes⟩
  · intro h
    obtain ⟨parts, hparts, hmakes⟩ := ofJson_object_iff.mp h
    have hnew := habsent.not_mem_names hfield hparts
    refine ofJson_object_perm List.perm_middle.symm ?_
    exact ofJson_object_iff.mpr ⟨[⟨f, y⟩] :: parts, .cons (.known hkey hread) hparts,
      (makes_cons_idle_iff hidle hfield hnew).mpr hmakes⟩

/-- No field that may hold `null` has to be given. -/
theorem Record.free_of_optional {f : Field r.Carrier} (hf : f ∈ r.fields)
    (h : f.optional = true) : f.required = false := by
  have hall : r.fields.all (fun f => !(f.optional && f.required)) = true := by cases r <;> decide
  have hfree := List.all_eq_true.mp hall f hf
  rw [h, Bool.true_and, Bool.not_eq_true'] at hfree
  exact hfree

/-- An empty member is read as the default of its field. -/
theorem Record.idle_of_empty {key : String} {v : Json} {f : Field r.Carrier}
    (h : r.field? key = some f) (hempty : (key, v) ∈ r.emptyMembers) :
    ∃ y, orNull f.optional v (ofJson f.shape v) = .ok y ∧ Entry.Idle ⟨f, y⟩ := by
  cases r <;>
    simp only [Record.emptyMembers, List.mem_cons, Prod.mk.injEq, List.not_mem_nil,
      or_false] at hempty
  · rcases hempty with ⟨rfl, rfl⟩ | ⟨rfl, rfl⟩ <;> cases h <;> exact ⟨_, rfl, rfl, rfl⟩
  · rcases hempty with ⟨rfl, rfl⟩ | ⟨rfl, rfl⟩ | ⟨rfl, rfl⟩ <;> cases h <;> exact ⟨_, rfl, rfl, rfl⟩

/-- **A change in an object does not change what it is read as**, nor whether it is read at all. -/
theorem Rewords.read_iff {ms ms' : Json.Members} (h : Rewords r ms ms') (x : r.Carrier) :
    ofJson (.record r) (.object ms) = .ok x ↔ ofJson (.record r) (.object ms') = .ok x := by
  cases h with
  | order hperm => exact ⟨ofJson_object_perm hperm, ofJson_object_perm hperm.symm⟩
  | unknown _ _ hkey => exact (ofJson_object_unknown hkey).symm
  | @otherName _ _ key key' v f hkey hkey' =>
    have hsame : ∀ {k k' : String}, r.field? k = some f → r.field? k' = some f →
        ∀ es, Brings r (k, v) es → Brings r (k', v) es := by
      intro k k' hk hk' es hes
      cases hes with
      | unknown hnone => rw [hk] at hnone; cases hnone
      | known hg hx =>
        rw [hk] at hg
        cases hg
        exact .known hk' hx
    exact ⟨ofJson_object_replace (hsame hkey hkey'), ofJson_object_replace (hsame hkey' hkey)⟩
  | @null _ _ key f hkey hoptional habsent =>
    have hread : orNull f.optional .null (ofJson f.shape .null) = .ok none := by
      rw [hoptional]
      rfl
    have hfree := Record.free_of_optional (Record.mem_of_field? hkey) hoptional
    exact (ofJson_object_idle hkey hread ⟨rfl, hfree⟩ habsent).symm
  | empty _ _ hkey hempty habsent =>
    obtain ⟨y, hread, hidle⟩ := Record.idle_of_empty hkey hempty
    exact (ofJson_object_idle hkey hread hidle habsent).symm

/-! ## 2. Objects inside of values -/

/-- **Two values that differ in one object**: somewhere an object is read as a record, and the other
    value has another object there, which is related to it. -/
inductive Within (R : Record → Json.Members → Json.Members → Prop) : Shape → Json → Json → Prop
  | here {r : Record} {ms ms' : Json.Members} (h : R r ms ms') :
      Within R (.record r) (.object ms) (.object ms')
  | item {s : Shape} (vs ws : List Json) {v v' : Json} (h : Within R s v v') :
      Within R (.list s) (.array (vs ++ v :: ws)) (.array (vs ++ v' :: ws))
  | member {r : Record} (ms ns : Json.Members) {key : String} {v v' : Json} {f : Field r.Carrier}
      (hf : r.field? key = some f) (h : Within R f.shape v v') :
      Within R (.record r) (.object (ms ++ (key, v) :: ns)) (.object (ms ++ (key, v') :: ns))
  | position {r : Record} (vs ws : List Json) {v v' : Json} {f : Field r.Carrier}
      (hf : r.fields[vs.length]? = some f) (h : Within R f.shape v v') :
      Within R (.record r) (.array (vs ++ v :: ws)) (.array (vs ++ v' :: ws))

variable {R : Record → Json.Members → Json.Members → Prop} {s : Shape} {v v' : Json}

theorem Within.symm (h : Within R s v v') : Within (fun r ms ms' => R r ms' ms) s v' v := by
  induction h with
  | here h => exact .here h
  | item vs ws _ ih => exact .item vs ws ih
  | member ms ns hf _ ih => exact .member ms ns hf ih
  | position vs ws hf _ ih => exact .position vs ws hf ih

theorem Within.ne_null (h : Within R s v v') : v ≠ .null := by
  cases h <;> exact fun h => by cases h

/-- In an object, the value of a known key is read by itself. -/
theorem ofJson_object_value {key : String} {ms ns : Json.Members} {x : r.Carrier}
    {f : Field r.Carrier} (hf : r.field? key = some f)
    (h : ofJson (.record r) (.object (ms ++ (key, v) :: ns)) = .ok x) :
    ∃ y, orNull f.optional v (ofJson f.shape v) = .ok y ∧
      ∀ v', orNull f.optional v' (ofJson f.shape v') = .ok y →
        ofJson (.record r) (.object (ms ++ (key, v') :: ns)) = .ok x := by
  obtain ⟨_, hparts, hmakes⟩ := ofJson_object_iff.mp (ofJson_object_perm List.perm_middle h)
  cases hparts with
  | cons hes hparts =>
    cases hes with
    | unknown hnone =>
      rw [hf] at hnone
      cases hnone
    | @known _ _ g y hg hy =>
      rw [hf] at hg
      cases hg
      refine ⟨y, hy, fun v' hv' => ofJson_object_perm List.perm_middle.symm ?_⟩
      exact ofJson_object_iff.mpr ⟨_, .cons (.known hf hv') hparts, hmakes⟩

/-- In a list, an item is read by itself. -/
theorem ofItems_replace {ws : List Json} : ∀ {vs : List Json} {xs : List s.Carrier},
    ofItems s (vs ++ v :: ws) = .ok xs → ∃ x, ofJson s v = .ok x ∧
      ∀ v', ofJson s v' = .ok x → ofItems s (vs ++ v' :: ws) = .ok xs
  | [], xs, h => by
      obtain ⟨x, ys, hx, hys, rfl⟩ := ofItems_cons h
      refine ⟨x, hx, fun v' hx' => ?_⟩
      rw [List.nil_append, ofItems_cons_eq, hx', hys]
      rfl
  | w :: vs, xs, h => by
      obtain ⟨y, ys, hy, hys, rfl⟩ := ofItems_cons h
      obtain ⟨x, hx, hother⟩ := ofItems_replace hys
      refine ⟨x, hx, fun v' hx' => ?_⟩
      rw [List.cons_append, ofItems_cons_eq, hy, hother v' hx']
      rfl

/-- In a list of the fields of a record, a field is read by itself. -/
theorem ofPositions_replace {ws : List Json} {x : r.Carrier} {size : Nat} :
    ∀ {vs : List Json} {fields : List (Field r.Carrier)} {i : Nat} {d : Draft r.Carrier}
      {f : Field r.Carrier}, fields[vs.length]? = some f →
      ofPositions r fields i size d (vs ++ v :: ws) = .ok x →
      ∃ y, orNull f.optional v (ofJson f.shape v) = .ok y ∧
        ∀ v', orNull f.optional v' (ofJson f.shape v') = .ok y →
          ofPositions r fields i size d (vs ++ v' :: ws) = .ok x
  | [], fields, i, d, f, hf, h => by
      cases fields with
      | nil => cases hf
      | cons g fs =>
        cases hf
        rw [List.nil_append, ofPositions_cons_eq] at h
        obtain ⟨y, hy, hrest⟩ := Json.bind_eq_ok h
        refine ⟨y, hy, fun v' hv' => ?_⟩
        rw [List.nil_append, ofPositions_cons_eq, hv']
        exact hrest
  | w :: vs, fields, i, d, f, hf, h => by
      cases fields with
      | nil => cases hf
      | cons g fs =>
        have hrest : fs[vs.length]? = some f := hf
        rw [List.cons_append, ofPositions_cons_eq] at h
        obtain ⟨y, hy, hrest'⟩ := Json.bind_eq_ok h
        obtain ⟨z, hz, hother⟩ := ofPositions_replace hrest hrest'
        refine ⟨z, hz, fun v' hv' => ?_⟩
        rw [List.cons_append, ofPositions_cons_eq, hy]
        exact hother v' hv'

/-- A value that is not `null` is read as an optional field like any other. -/
theorem orNull_eq_ok {α : Type} {optional : Bool} {x : Except Json.Cause α} {y : Option α}
    (hv : v ≠ .null) (h : orNull optional v x = .ok y) : ∃ a, x = .ok a ∧ y = some a := by
  rw [orNull_of_ne_null optional hv] at h
  cases x with
  | error e => cases h
  | ok a => exact ⟨a, rfl, (Except.ok.inj h).symm⟩

theorem orNull_of_ok {α : Type} (optional : Bool) {x : Except Json.Cause α} {a : α} (hv : v ≠ .null)
    (h : x = .ok a) : orNull optional v x = .ok (some a) := by
  rw [orNull_of_ne_null optional hv, h]
  rfl

/-- **Reading a value needs its objects only as what they are read as.** Where one object is
    replaced by another that is read as the same record, the whole value is read as before. -/
theorem Within.read (h : Within R s v v') : ∀ {x : s.Carrier}, ofJson s v = .ok x →
    ∃ (r : Record) (ms ms' : Json.Members) (y : r.Carrier), R r ms ms' ∧
      ofJson (.record r) (.object ms) = .ok y ∧
      (ofJson (.record r) (.object ms') = .ok y → ofJson s v' = .ok x) := by
  induction h with
  | @here r ms ms' h => exact fun {x} hx => ⟨r, ms, ms', x, h, hx, id⟩
  | @item s vs ws v v' _ ih =>
    intro xs hxs
    rw [ofJson] at hxs
    obtain ⟨x, hx, hother⟩ := ofItems_replace hxs
    obtain ⟨r, ms, ms', y, hR, hy, hback⟩ := ih hx
    refine ⟨r, ms, ms', y, hR, hy, fun hy' => ?_⟩
    rw [ofJson]
    exact hother v' (hback hy')
  | @member r₀ ms₀ ns key v v' f hf hwithin ih =>
    intro x hx
    obtain ⟨z, hz, hother⟩ := ofJson_object_value hf hx
    obtain ⟨a, ha, rfl⟩ := orNull_eq_ok hwithin.ne_null hz
    obtain ⟨r, ms, ms', y, hR, hy, hback⟩ := ih ha
    refine ⟨r, ms, ms', y, hR, hy, fun hy' => hother v' ?_⟩
    exact orNull_of_ok f.optional hwithin.symm.ne_null (hback hy')
  | @position r₀ vs ws v v' f hf hwithin ih =>
    intro x hx
    rw [ofJson] at hx
    obtain ⟨z, hz, hother⟩ := ofPositions_replace hf hx
    obtain ⟨a, ha, rfl⟩ := orNull_eq_ok hwithin.ne_null hz
    obtain ⟨r, ms, ms', y, hR, hy, hback⟩ := ih ha
    have hsize : (vs ++ v' :: ws).length = (vs ++ v :: ws).length := by
      rw [List.length_append, List.length_append]
      rfl
    refine ⟨r, ms, ms', y, hR, hy, fun hy' => ?_⟩
    rw [ofJson, hsize]
    exact hother v' (orNull_of_ok f.optional hwithin.symm.ne_null (hback hy'))

theorem Within.read_of_rewords (h : Within Rewords s v v') {x : s.Carrier}
    (hx : ofJson s v = .ok x) : ofJson s v' = .ok x := by
  obtain ⟨r, ms, ms', y, hR, hy, hback⟩ := h.read hx
  exact hback ((hR.read_iff y).mp hy)

/-- **Values that differ by any number of changes** in the objects of a chart, its entities and its
    arcs, made there or taken back. -/
def Reworded (v v' : Json) : Prop :=
  Relation.EqvGen (Within Rewords (.record .chart)) v v'

/-! ## 3. Two names of one field -/

/-- Two members have different keys that are names of the same field. -/
def NamedTwice (r : Record) (ms : Json.Members) : Prop :=
  ∃ f, ∃ p ∈ ms, ∃ q ∈ ms, p.1 ≠ q.1 ∧ r.field? p.1 = some f ∧ r.field? q.1 = some f

/-- **An object somewhere in the value names a field twice.** -/
def HoldsNamedTwice (s : Shape) (v : Json) : Prop :=
  Within (fun r ms _ => NamedTwice r ms) s v v

/-- An object that names a field twice is not read. -/
theorem NamedTwice.not_read {ms : Json.Members} (h : NamedTwice r ms) (x : r.Carrier) :
    ofJson (.record r) (.object ms) ≠ .ok x := by
  intro hread
  obtain ⟨f, ⟨key, v⟩, hp, ⟨key', v'⟩, hq, hne, hf, hf'⟩ := h
  -- both members are brought to the front
  obtain ⟨ms₁, ms₂, rfl⟩ := List.append_of_mem hp
  have hq : (key', v') ∈ ms₁ ++ ms₂ := by
    rcases List.mem_append.mp hq with hq | hq
    · exact List.mem_append_left _ hq
    · rcases List.mem_cons.mp hq with heq | hq
      · exact absurd (congrArg Prod.fst heq).symm hne
      · exact List.mem_append_right _ hq
  obtain ⟨ns₁, ns₂, hsplit⟩ := List.append_of_mem hq
  have hperm : (ms₁ ++ (key, v) :: ms₂).Perm ((key, v) :: (key', v') :: (ns₁ ++ ns₂)) := by
    refine List.perm_middle.trans (.cons _ ?_)
    rw [hsplit]
    exact List.perm_middle
  obtain ⟨_, hparts, hmakes⟩ := ofJson_object_iff.mp (ofJson_object_perm hperm hread)
  have hentry : ∀ {k : String} {w : Json} {es : List (Entry r)}, r.field? k = some f →
      Brings r (k, w) es → names es = [f.name] := by
    intro k w es hk hes
    cases hes with
    | unknown hnone =>
      rw [hk] at hnone
      cases hnone
    | known hg _ =>
      rw [hk] at hg
      cases hg
      rfl
  cases hparts with
  | @cons _ es _ _ hes hparts =>
    cases hparts with
    | @cons _ es' _ _ hes' hparts =>
      have honce := hmakes.once
      rw [List.flatten_cons, List.flatten_cons, names, List.map_append, List.map_append] at honce
      rw [← names, ← names, hentry hf hes, hentry hf' hes'] at honce
      exact (List.nodup_cons.mp honce).1 List.mem_cons_self

end Format

/-! ## 4. Whole charts -/

open Format

theorem Chart.fromJson_eq_ok_iff (v : Json) (c : Chart) :
    Chart.fromJson v = .ok c ↔ ofJson (.record .chart) v = .ok c := by
  unfold Chart.fromJson Format.fromJson
  cases ofJson (.record .chart) v <;> simp [Except.mapError]

/-- **How a chart is worded does not matter.** Values that differ in the order of members, in
    members that nobody knows, in the names that fields go by, and in `null` and empty members that
    say nothing, in any of their objects that are read as a chart, an entity or an arc, are read as
    the same chart or are both not read. A value with an object that names a field twice is not
    read. -/
theorem reworded_read_alike :
    (∀ v v', Reworded v v' → ∀ c, Chart.fromJson v = .ok c ↔ Chart.fromJson v' = .ok c) ∧
    ∀ v, HoldsNamedTwice (.record .chart) v → ∃ u, Chart.fromJson v = .error u := by
  constructor
  · intro v v' h c
    rw [Chart.fromJson_eq_ok_iff, Chart.fromJson_eq_ok_iff]
    induction h with
    | rel v v' h =>
      refine ⟨h.read_of_rewords, fun hc => ?_⟩
      obtain ⟨r, ms, ms', y, hR, hy, hback⟩ := h.symm.read hc
      exact hback ((hR.read_iff y).mpr hy)
    | refl v => exact Iff.rfl
    | symm v v' _ ih => exact ih.symm
    | trans v v' v'' _ _ ih ih' => exact ih.trans ih'
  · intro v h
    cases hread : Chart.fromJson v with
    | error u => exact ⟨u, rfl⟩
    | ok c =>
      obtain ⟨r, ms, ms', y, htwice, hy, _⟩ := h.read ((Chart.fromJson_eq_ok_iff v c).mp hread)
      exact absurd hy (htwice.not_read y)

/-- An entity in a chart. The second wording has its members in another order, a `null` and an
    unknown member besides them, the colour under its other name, and an empty list of rows in
    front. With the colour under both names nothing is read. -/
theorem worded_in_two_ways :
    let v : Json := .object [("entities", .array [.object
      [("name", .string "a"), ("color", .string "red")]])]
    let v' : Json := .object [("arcs", .array []), ("entities", .array [.object
      [("linecolor", .string "red"), ("label", .null), ("width", .bool true),
        ("name", .string "a")]])]
    let w : Json := .object [("entities", .array [.object
      [("name", .string "a"), ("color", .string "red"), ("linecolor", .string "red")]])]
    Reworded v v' ∧
      Chart.fromJson v' = .ok { entities := [{ name := "a", paint := { line := some "red" } }] } ∧
      HoldsNamedTwice (.record .chart) w ∧ ∃ u, Chart.fromJson w = .error u := by
  intro v v' w
  have inEntity : ∀ {R : Record → Json.Members → Json.Members → Prop} {ms ms' : Json.Members},
      R .entity ms ms' → Within R (.record .chart)
        (.object [("entities", .array [.object ms])])
        (.object [("entities", .array [.object ms'])]) :=
    fun h => .member [] [] rfl (.item [] [] (.here h))
  have hname : Rewords .entity [("name", .string "a"), ("color", .string "red")]
      [("name", .string "a"), ("linecolor", .string "red")] :=
    .otherName [_] [] (f := entityFields[2]) rfl rfl
  have horder : Rewords .entity [("name", .string "a"), ("linecolor", .string "red")]
      [("linecolor", .string "red"), ("name", .string "a")] :=
    .order (.swap _ _ [])
  have hnull : Rewords .entity [("linecolor", .string "red"), ("name", .string "a")]
      [("linecolor", .string "red"), ("label", .null), ("name", .string "a")] :=
    .null [_] [_] (f := entityFields[1]) rfl rfl (by unfold NotGiven; decide)
  have hunknown : Rewords .entity
      [("linecolor", .string "red"), ("label", .null), ("name", .string "a")]
      [("linecolor", .string "red"), ("label", .null), ("width", .bool true),
        ("name", .string "a")] :=
    .unknown [_, _] [_] rfl
  have hrows : Within Rewords (.record .chart) (.object [("entities", .array [.object
      [("linecolor", .string "red"), ("label", .null), ("width", .bool true),
        ("name", .string "a")]])]) v' :=
    .here (.empty [] [_] (f := chartFields[1]) rfl (.tail _ (.head _))
      (by unfold NotGiven; decide))
  have hworded : Reworded v v' :=
    .trans _ _ _ (.rel _ _ (inEntity hname)) (.trans _ _ _ (.rel _ _ (inEntity horder))
      (.trans _ _ _ (.rel _ _ (inEntity hnull)) (.trans _ _ _ (.rel _ _ (inEntity hunknown))
        (.rel _ _ hrows))))
  have htwice : HoldsNamedTwice (.record .chart) w :=
    inEntity ⟨entityFields[2], ("color", .string "red"), .tail _ (.head _),
      ("linecolor", .string "red"), .tail _ (.tail _ (.head _)), by decide, rfl, rfl⟩
  exact ⟨hworded, (reworded_read_alike.1 v v' hworded _).mp rfl, htwice,
    reworded_read_alike.2 w htwice⟩

end SequenceChart
