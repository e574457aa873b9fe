import SequenceChart.Proofs.ValueReading
import Mathlib.Data.List.Nodup
import Mathlib.Data.List.Pairwise
import Mathlib.Data.List.Perm.Basic

/-!
# What the members of an object bring

An object is read member by member into a draft. What comes out does not depend on the order of the
members, only on what each of them brings.

* `Entry` is a field together with what was read for it, and `Brings` says which entries a member of
  an object brings: none if its key is not known, and one otherwise;
* `Makes` says that entries make up a record: no field comes twice, all that have to be given are
  there, and the record is the blank one filled in;
* `ofJson_object_iff` says that an object is read as the record that its entries make up, and
  `ofJson_object_perm` that the order of its members does not matter.
-/

namespace SequenceChart.Format

/-! ## 1. Fields and entries -/

/-- Two fields that can be filled in in either order. -/
def Apart {ρ : Type} (f g : Field ρ) : Prop :=
  ∀ a b x, f.put a (g.put b x) = g.put b (f.put a x)

instance {ρ : Type} : Std.Symm (Apart (ρ := ρ)) :=
  ⟨fun _ _ h a b x => (h b a x).symm⟩

/-- **The fields of a record do not get in each other's way.** -/
theorem Record.fields_apart (r : Record) : r.fields.Pairwise Apart := by
  cases r <;> simp [Record.fields, chartFields, entityFields, arcFields, Field.text, Apart]

/-- A field of a record with what was read for it. Nothing is read from `null`. -/
structure Entry (r : Record) where
  field : Field r.Carrier
  value : Option field.shape.Carrier

variable {r : Record}

/-- The record with the entry filled in. -/
def Entry.fill (x : r.Carrier) (e : Entry r) : r.Carrier :=
  match e.value with
  | some a => e.field.put a x
  | none => x

/-- The names of the fields of entries. -/
def names (es : List (Entry r)) : List String :=
  es.map (·.field.name)

/-- **What a member of an object brings**: nothing if the record does not know its key, and
    otherwise the field of the key with what is read from the value. -/
inductive Brings (r : Record) : String × Json → List (Entry r) → Prop
  | unknown {key : String} {v : Json} (h : r.field? key = none) : Brings r (key, v) []
  | known {key : String} {v : Json} {f : Field r.Carrier} {x : Option f.shape.Carrier}
      (h : r.field? key = some f) (hx : orNull f.optional v (ofJson f.shape v) = .ok x) :
      Brings r (key, v) [⟨f, x⟩]

theorem Record.mem_of_field? {key : String} {f : Field r.Carrier} (h : r.field? key = some f) :
    f ∈ r.fields :=
  List.mem_of_find?_eq_some h

theorem Brings.mem_fields {p : String × Json} {es : List (Entry r)} (h : Brings r p es) :
    ∀ e ∈ es, e.field ∈ r.fields := by
  cases h with
  | unknown _ => exact fun _ he => absurd he List.not_mem_nil
  | known hf _ =>
    intro e he
    rw [List.mem_singleton.mp he]
    exact Record.mem_of_field? hf

/-! ## 2. Drafts -/

/-- The draft with an entry given. -/
def Draft.enter (d : Draft r.Carrier) (e : Entry r) : Draft r.Carrier :=
  d.give e.field e.value

theorem Draft.enter_eq (d : Draft r.Carrier) (e : Entry r) :
    d.enter e = ⟨Entry.fill d.value e, e.field.name :: d.given⟩ := by
  rcases e with ⟨f, _ | a⟩ <;> rfl

theorem Draft.has_iff (d : Draft r.Carrier) (f : Field r.Carrier) :
    d.has f = true ↔ f.name ∈ d.given :=
  List.contains_iff_mem

/-- Entries fill in the record one after the other. -/
theorem Draft.foldl_enter : ∀ (es : List (Entry r)) (d : Draft r.Carrier),
    es.foldl Draft.enter d = ⟨es.foldl Entry.fill d.value, (names es).reverse ++ d.given⟩
  | [], _ => rfl
  | e :: es, d => by
      have hnames : (names (e :: es)).reverse ++ d.given =
          (names es).reverse ++ e.field.name :: d.given := by
        rw [names, List.map_cons, List.reverse_cons, List.append_assoc]
        rfl
      rw [List.foldl_cons, Draft.foldl_enter es, Draft.enter_eq, List.foldl_cons, hnames]

/-- **The entries can be given to a draft**: no field comes twice, and none is there already. -/
def Fresh (d : Draft r.Carrier) (es : List (Entry r)) : Prop :=
  (names es).Nodup ∧ ∀ n ∈ names es, n ∉ d.given

theorem fresh_nil (d : Draft r.Carrier) : Fresh d [] :=
  ⟨List.nodup_nil, fun _ hn => absurd hn List.not_mem_nil⟩

theorem fresh_cons_iff {d : Draft r.Carrier} {e : Entry r} {es : List (Entry r)} :
    Fresh d (e :: es) ↔ d.has e.field = false ∧ Fresh (d.enter e) es := by
  have hhas : d.has e.field = false ↔ e.field.name ∉ d.given := by
    rw [← Bool.not_eq_true, Draft.has_iff]
  rw [hhas, Draft.enter_eq]
  simp only [Fresh, names, List.map_cons, List.nodup_cons, List.mem_cons, forall_eq_or_imp, not_or]
  constructor
  · rintro ⟨⟨hnew, hnodup⟩, hfree, hrest⟩
    exact ⟨hfree, hnodup, fun n hn => ⟨fun h => hnew (h ▸ hn), hrest n hn⟩⟩
  · rintro ⟨hfree, hnodup, hrest⟩
    exact ⟨⟨fun h => (hrest _ h).1 rfl, hnodup⟩, hfree, fun n hn => (hrest n hn).2⟩

/-- A member of an object is read as the entry it brings. -/
theorem ofMembers_cons_iff {p : String × Json} {ms : Json.Members} {d d' : Draft r.Carrier} :
    ofMembers r d (p :: ms) = .ok d' ↔ ∃ es, Brings r p es ∧ Fresh d es ∧
      ofMembers r (es.foldl Draft.enter d) ms = .ok d' := by
  obtain ⟨key, v⟩ := p
  rw [ofMembers]
  cases hf : r.field? key with
  | none =>
    constructor
    · intro h
      exact ⟨[], .unknown hf, fresh_nil d, h⟩
    · rintro ⟨es, hes, _, h⟩
      cases hes with
      | unknown _ => exact h
      | known hg _ => rw [hf] at hg; cases hg
  | some f =>
    constructor
    · intro h
      dsimp only at h
      split at h
      · cases h
      · rename_i hnew
        split at h
        · cases h
        · rename_i x hx
          have hfresh : Fresh d [⟨f, x⟩] := fresh_cons_iff.mpr ⟨by simpa using hnew, fresh_nil _⟩
          exact ⟨[⟨f, x⟩], .known hf hx, hfresh, h⟩
    · rintro ⟨es, hes, hfresh, h⟩
      cases hes with
      | unknown hg => rw [hf] at hg; cases hg
      | known hg hx =>
        rw [hf] at hg
        cases hg
        have hnew := (fresh_cons_iff.mp hfresh).1
        simp only [hnew, hx]
        exact h

/-- Giving entries one after the other, in two parts. -/
theorem fresh_append_iff {d : Draft r.Carrier} : ∀ {es es' : List (Entry r)},
    Fresh d (es ++ es') ↔ Fresh d es ∧ Fresh (es.foldl Draft.enter d) es'
  | [], _ => ⟨fun h => ⟨fresh_nil d, h⟩, fun h => h.2⟩
  | e :: es, es' => by
      rw [List.cons_append, fresh_cons_iff, fresh_append_iff, fresh_cons_iff, and_assoc,
        List.foldl_cons]

/-- **Members are read as the entries they bring**, one after the other. -/
theorem ofMembers_iff : ∀ {ms : Json.Members} {d d' : Draft r.Carrier},
    ofMembers r d ms = .ok d' ↔ ∃ parts, List.Forall₂ (Brings r) ms parts ∧
      Fresh d parts.flatten ∧ parts.flatten.foldl Draft.enter d = d'
  | [], d, d' => by
      constructor
      · intro h
        cases h
        exact ⟨[], .nil, fresh_nil d, rfl⟩
      · rintro ⟨parts, hparts, _, rfl⟩
        cases hparts
        rfl
  | p :: ms, d, d' => by
      rw [ofMembers_cons_iff]
      constructor
      · rintro ⟨es, hes, hfresh, h⟩
        obtain ⟨parts, hparts, hrest, hd⟩ := ofMembers_iff.mp h
        refine ⟨es :: parts, .cons hes hparts, ?_, ?_⟩
        · exact fresh_append_iff.mpr ⟨hfresh, hrest⟩
        · rw [List.flatten_cons, List.foldl_append, hd]
      · rintro ⟨_, hparts, hfresh, hd⟩
        cases hparts with
        | @cons _ es _ parts hes hparts =>
          obtain ⟨hfresh, hrest⟩ := fresh_append_iff.mp hfresh
          rw [List.flatten_cons, List.foldl_append] at hd
          exact ⟨es, hes, hfresh, ofMembers_iff.mpr ⟨parts, hparts, hrest, hd⟩⟩

/-! ## 3. Objects -/

/-- **The entries make up a record**: no field comes twice, all fields that have to be given are
    there, and the record is the blank one with the entries filled in. -/
structure Makes (es : List (Entry r)) (x : r.Carrier) : Prop where
  once : (names es).Nodup
  enough : ∀ f ∈ r.fields, f.required = true → f.name ∈ names es
  value : es.foldl Entry.fill r.blank = x

theorem Record.finish_iff {d : Draft r.Carrier} {x : r.Carrier} :
    r.finish d = .ok x ↔ (∀ f ∈ r.fields, f.required = true → f.name ∈ d.given) ∧ d.value = x := by
  have hnone : r.fields.find? (fun f => f.required && !d.has f) = none ↔
      ∀ f ∈ r.fields, f.required = true → f.name ∈ d.given := by
    rw [List.find?_eq_none]
    refine forall₂_congr fun f _ => ?_
    rw [← Draft.has_iff]
    cases f.required <;> cases d.has f <;> simp
  rw [← hnone]
  unfold Record.finish
  split
  · rename_i f hf
    rw [hf]
    constructor
    · intro h
      cases h
    · rintro ⟨h, _⟩
      cases h
  · rename_i hf
    exact ⟨fun h => ⟨hf, Except.ok.inj h⟩, fun h => congrArg Except.ok h.2⟩

/-- **An object is read as the record that the entries of its members make up.** -/
theorem ofJson_object_iff {ms : Json.Members} {x : r.Carrier} :
    ofJson (.record r) (.object ms) = .ok x ↔
      ∃ parts, List.Forall₂ (Brings r) ms parts ∧ Makes parts.flatten x := by
  have hread : ofJson (.record r) (.object ms) = .ok x ↔
      ∃ d, ofMembers r r.draft ms = .ok d ∧ r.finish d = .ok x := by
    refine ⟨ofJson_object, ?_⟩
    rintro ⟨d, hd, hfinish⟩
    rw [ofJson_object_eq, hd]
    exact hfinish
  have hgiven : ∀ es : List (Entry r), (es.foldl Draft.enter r.draft).given = (names es).reverse :=
    fun es => by rw [Draft.foldl_enter]; exact List.append_nil _
  have hvalue : ∀ es : List (Entry r),
      (es.foldl Draft.enter r.draft).value = es.foldl Entry.fill r.blank :=
    fun es => by rw [Draft.foldl_enter]; rfl
  rw [hread]
  constructor
  · rintro ⟨d, hd, hfinish⟩
    obtain ⟨parts, hparts, hfresh, rfl⟩ := ofMembers_iff.mp hd
    obtain ⟨henough, hx⟩ := Record.finish_iff.mp hfinish
    rw [hgiven] at henough
    rw [hvalue] at hx
    exact ⟨parts, hparts, hfresh.1, fun f hf hr => List.mem_reverse.mp (henough f hf hr), hx⟩
  · rintro ⟨parts, hparts, hmakes⟩
    refine ⟨_, ofMembers_iff.mpr ⟨parts, hparts, ⟨hmakes.once, fun _ _ => List.not_mem_nil⟩, rfl⟩,
      Record.finish_iff.mpr ⟨fun f hf hr => ?_, ?_⟩⟩
    · rw [hgiven]
      exact List.mem_reverse.mpr (hmakes.enough f hf hr)
    · rw [hvalue]
      exact hmakes.value

/-! ## 4. Order -/

theorem mem_fields_of_brings {ms : Json.Members} {parts : List (List (Entry r))}
    (h : List.Forall₂ (Brings r) ms parts) : ∀ e ∈ parts.flatten, e.field ∈ r.fields := by
  induction h with
  | nil => exact fun _ he => absurd he List.not_mem_nil
  | cons hes _ ih =>
    intro e he
    rw [List.flatten_cons] at he
    rcases List.mem_append.mp he with he | he
    · exact hes.mem_fields e he
    · exact ih e he

/-- Entries of different fields can be filled in in either order. -/
theorem Entry.fill_comm {e e' : Entry r} (he : e.field ∈ r.fields) (he' : e'.field ∈ r.fields)
    (hne : e.field.name ≠ e'.field.name) (x : r.Carrier) :
    Entry.fill (Entry.fill x e) e' = Entry.fill (Entry.fill x e') e := by
  have hapart := r.fields_apart.forall he he' fun h => hne (congrArg Field.name h)
  rcases e with ⟨f, _ | a⟩ <;> rcases e' with ⟨g, _ | b⟩
  · rfl
  · rfl
  · rfl
  · exact (hapart a b x).symm

/-- **Entries in another order make up the same record.** -/
theorem Makes.perm {es es' : List (Entry r)} {x : r.Carrier} (h : Makes es x)
    (hfields : ∀ e ∈ es, e.field ∈ r.fields) (hperm : es.Perm es') : Makes es' x where
  once := (hperm.map _).nodup_iff.mp h.once
  enough f hf hr := (hperm.map _).mem_iff.mp (h.enough f hf hr)
  value := by
    rw [← h.value]
    refine (hperm.foldl_eq' (fun e he e' he' y => ?_) r.blank).symm
    by_cases hsame : e = e'
    · rw [hsame]
    · exact Entry.fill_comm (hfields e he) (hfields e' he') (fun hname =>
        hsame (List.inj_on_of_nodup_map h.once he he' hname)) y

/-- **The order of the members of an object does not matter.** -/
theorem ofJson_object_perm {ms ms' : Json.Members} {x : r.Carrier} (hperm : ms.Perm ms')
    (h : ofJson (.record r) (.object ms) = .ok x) : ofJson (.record r) (.object ms') = .ok x := by
  obtain ⟨parts, hparts, hmakes⟩ := ofJson_object_iff.mp h
  obtain ⟨parts', hparts', hperm'⟩ := List.perm_comp_forall₂ hperm.symm hparts
  exact ofJson_object_iff.mpr ⟨parts', hparts',
    hmakes.perm (mem_fields_of_brings hparts) hperm'.symm.flatten⟩

end SequenceChart.Format
