import SequenceChart.Chart.Normal
import SequenceChart.Proofs.Walk

/-!
# When a normal form is final

Bringing a chart into normal form a second time changes nothing but for one thing: an arc to
everyone is spread to every entity, and if one of them is named `*`, its copy goes to everyone
again.

* Of one arc, everything but the nested rows is final (`Arc.Upright`, `normal_of_upright`);
* `spread_map_eq_iff` and `spread_eq_iff` say when a row is: no arc to everyone in it has more than
  itself for a copy, and such arcs stand at the end;
* `RowSettles` says the same of the row that was written, in terms of the names its arcs to everyone
  go to, and `KeptRow` which rows are still there to be asked;
* `rows_final_iff` puts these together: a normal form is final exactly when every row that is kept
  settles.
-/

namespace SequenceChart

/-! ## 1. Rows that settle -/

/-- The arc goes to everyone when it is read from left to right. -/
def Arc.toEveryone (a : Arc) : Bool :=
  a.forward.broadcast

/-- The names that an arc to everyone goes to. -/
def Arc.recipients (es : List Entity) (a : Arc) : List String :=
  (es.filter (·.name != a.forward.source)).map Entity.name

/-- The arc, or a copy of it, is still there in the normal form. -/
def Arc.kept (es : List Entity) (a : Arc) : Bool :=
  !a.toEveryone || a.recipients es != []

/-- **A row that is spread once and for all.** An arc to everyone that goes to an entity named `*`
    goes to nobody else, and no arc to everyone behind it goes to anybody else. -/
structure RowSettles (es : List Entity) (row : Row) : Prop where
  alone : ∀ a ∈ row, a.toEveryone = true → "*" ∈ a.recipients es → a.recipients es = ["*"]
  last : ((row.filter Arc.toEveryone).flatMap (Arc.recipients es)).Pairwise
    fun m n => m = "*" → n = "*"

/-- A row that is still there in the normal form of rows: one of them, or one in a container that
    is kept. -/
inductive KeptRow (es : List Entity) : List Row → Row → Prop where
  | here {rows : List Row} {row : Row} (h : row ∈ rows) : KeptRow es rows row
  | inside {rows inner : List Row} {row row' : Row} {a : Arc} (hrow : row ∈ rows) (ha : a ∈ row)
      (hkept : a.kept es = true) (hinner : a.rows = some inner) (h : KeptRow es inner row') :
      KeptRow es rows row'

/-! ## 2. Lists -/

theorem pairwise_of_mem {α : Type} {R : α → α → Prop} : ∀ {l : List α},
    (∀ x ∈ l, ∀ y ∈ l, R x y) → l.Pairwise R
  | [], _ => List.Pairwise.nil
  | x :: _, h => by
      refine List.pairwise_cons.mpr ⟨fun y hy => ?_, pairwise_of_mem fun y hy z hz => ?_⟩
      · exact h x List.mem_cons_self y (List.mem_cons_of_mem x hy)
      · exact h y (List.mem_cons_of_mem x hy) z (List.mem_cons_of_mem x hz)

/-- Moving the elements that pass a test to the end changes nothing exactly when none of them stands
    before one that fails it. -/
theorem filter_append_filter_eq_iff {α : Type} (p : α → Bool) (l : List α) :
    l.filter (fun x => !p x) ++ l.filter p = l ↔ l.Pairwise fun x y => p x = true → p y = true := by
  constructor
  · intro h
    rw [← h, List.pairwise_append]
    refine ⟨?_, ?_, ?_⟩
    · refine pairwise_of_mem fun x hx y _ hpx => ?_
      have hfail := (List.mem_filter.mp hx).2
      rw [hpx] at hfail
      exact absurd hfail (by decide)
    · exact pairwise_of_mem fun x _ y hy _ => (List.mem_filter.mp hy).2
    · intro x _ y hy _
      exact (List.mem_filter.mp hy).2
  · intro h
    induction h with
    | nil => rfl
    | @cons x l hx _ ih =>
      by_cases hp : p x = true
      · have hnone : l.filter (fun y => !p y) = [] := by
          refine List.filter_eq_nil_iff.mpr fun y hy => ?_
          rw [hx y hy hp]
          decide
        have hall : l.filter p = l := List.filter_eq_self.mpr fun y hy => hx y hy hp
        have hdrop : (x :: l).filter (fun y => !p y) = l.filter fun y => !p y :=
          List.filter_cons_of_neg (by rw [hp]; decide)
        rw [hdrop, List.filter_cons_of_pos hp, hnone, hall]
        rfl
      · have hfail : (!p x) = true := by simpa using hp
        have hkeep : (x :: l).filter (fun y => !p y) = x :: l.filter fun y => !p y :=
          List.filter_cons_of_pos hfail
        rw [hkeep, List.filter_cons_of_neg hp, List.cons_append, ih]

theorem length_le_flatMap {α β : Type} (g : α → List β) : ∀ l : List α,
    (∀ x ∈ l, g x ≠ []) → l.length ≤ (l.flatMap g).length
  | [], _ => Nat.le_refl _
  | x :: l, h => by
      have hx := List.length_pos_iff.mpr (h x List.mem_cons_self)
      have ih := length_le_flatMap g l fun y hy => h y (List.mem_cons_of_mem x hy)
      rw [List.flatMap_cons, List.length_append, List.length_cons]
      omega

/-- Lists that are not empty, and no longer together than there are of them, have length 1. -/
theorem length_eq_one_of_flatMap {α β : Type} (g : α → List β) : ∀ l : List α,
    (∀ x ∈ l, g x ≠ []) → (l.flatMap g).length ≤ l.length → ∀ x ∈ l, (g x).length = 1
  | [], _, _, _, hy => absurd hy List.not_mem_nil
  | x :: l, h, hle, y, hy => by
      have htail : ∀ z ∈ l, g z ≠ [] := fun z hz => h z (List.mem_cons_of_mem x hz)
      have hx := List.length_pos_iff.mpr (h x List.mem_cons_self)
      have hl := length_le_flatMap g l htail
      rw [List.flatMap_cons, List.length_append, List.length_cons] at hle
      rcases List.mem_cons.mp hy with rfl | hy
      · omega
      · exact length_eq_one_of_flatMap g l htail (by omega) y hy

theorem length_filter_add {α : Type} (p : α → Bool) : ∀ l : List α,
    (l.filter fun x => !p x).length + (l.filter p).length = l.length
  | [] => rfl
  | x :: l => by
      have ih := length_filter_add p l
      rw [List.filter_cons, List.filter_cons]
      cases p x <;> simp only [Bool.not_true, Bool.not_false, Bool.false_eq_true, if_true, if_false,
        List.length_cons] <;> omega

/-- A test that a function keeps may be made before or after it. -/
theorem filter_map_of_keeps {α : Type} {p : α → Bool} {f : α → α} {l : List α}
    (h : ∀ x ∈ l, p (f x) = p x) : (l.map f).filter p = (l.filter p).map f := by
  have hfilter : l.filter (p ∘ f) = l.filter p := List.filter_congr h
  rw [List.filter_map, hfilter]

/-- A list in two parts, of which the first fails a test and the second passes it, is taken apart by
    the test. -/
theorem filter_append_parts {α : Type} {p : α → Bool} {l m : List α} (hl : ∀ x ∈ l, p x = false)
    (hm : ∀ x ∈ m, p x = true) :
    (l ++ m).filter (fun x => !p x) = l ∧ (l ++ m).filter p = m := by
  have hlpos : l.filter (fun x => !p x) = l :=
    List.filter_eq_self.mpr fun x hx => by rw [hl x hx]; rfl
  have hlneg : l.filter p = [] :=
    List.filter_eq_nil_iff.mpr fun x hx => by rw [hl x hx]; decide
  have hmneg : m.filter (fun x => !p x) = [] :=
    List.filter_eq_nil_iff.mpr fun x hx => by rw [hm x hx]; decide
  have hmpos : m.filter p = m := List.filter_eq_self.mpr hm
  rw [List.filter_append, List.filter_append, hlpos, hlneg, hmneg, hmpos]
  exact ⟨List.append_nil l, List.nil_append m⟩

/-- A list that is the image of its two parts consists of these parts, and is its own image. -/
theorem parts_eq_of_map_eq {α : Type} {p : α → Bool} {f : α → α} {l : List α}
    (hkeep : ∀ x ∈ l, p (f x) = p x)
    (hmap : (l.filter (fun x => !p x) ++ l.filter p).map f = l) :
    l.filter (fun x => !p x) ++ l.filter p = l ∧ ∀ x ∈ l, f x = x := by
  have hfail : ∀ x ∈ (l.filter fun x => !p x).map f, p x = false := by
    intro x hx
    obtain ⟨y, hy, rfl⟩ := List.mem_map.mp hx
    have hmem := List.mem_filter.mp hy
    rw [hkeep y hmem.1]
    simpa using hmem.2
  have hpass : ∀ x ∈ (l.filter p).map f, p x = true := by
    intro x hx
    obtain ⟨y, hy, rfl⟩ := List.mem_map.mp hx
    have hmem := List.mem_filter.mp hy
    rw [hkeep y hmem.1]
    exact hmem.2
  obtain ⟨hfirst, hsecond⟩ := filter_append_parts hfail hpass
  rw [← List.map_append, hmap] at hfirst hsecond
  have hself : ∀ x ∈ l, f x = x := by
    intro x hx
    by_cases hp : p x = true
    · have hid := hsecond.symm.trans (List.map_id _).symm
      exact List.map_inj_left.mp hid x (List.mem_filter.mpr ⟨hx, hp⟩)
    · have hid := hfirst.symm.trans (List.map_id _).symm
      exact List.map_inj_left.mp hid x (List.mem_filter.mpr ⟨hx, by simpa using hp⟩)
  refine ⟨?_, hself⟩
  rw [List.map_append] at hmap
  rw [hfirst, hsecond, hmap]

/-! ## 3. One arc -/

/-- The arc with another target. -/
def Arc.goingTo (name : String) (a : Arc) : Arc :=
  { a with target := name }

/-- An arc that is read from left to right and has its colours. -/
structure Arc.Upright (es : List Entity) (a : Arc) : Prop where
  kind : rightward? a.kind = none
  paint : a.paint.orElse (senderPaint es a.source) = a.paint

/-- The normal form of an upright arc is a matter of its nested rows. -/
theorem Arc.normal_of_upright {es : List Entity} {a : Arc} (h : a.Upright es) :
    a.normal es = { a with rows := a.rows.map (Arc.normalRows es) } := by
  have hforward : Arc.forward { a with rows := a.rows.map (Arc.normalRows es) } =
      { a with rows := a.rows.map (Arc.normalRows es) } := by
    unfold Arc.forward
    rw [h.kind]
  rw [Arc.normal_eq, hforward, Arc.painted, h.paint]

theorem Paint.orElse_orElse (p q : Paint) : (p.orElse q).orElse q = p.orElse q := by
  unfold Paint.orElse
  simp only [Option.or_assoc, Option.or_self]

theorem Arc.rightward?_forward (a : Arc) : rightward? a.forward.kind = none := by
  unfold Arc.forward
  split
  · rename_i kind h
    exact rightward?_of_rightward? h
  · assumption

/-- **A normal form is upright.** -/
theorem Arc.upright_normal (es : List Entity) (a : Arc) : (a.normal es).Upright es := by
  rw [Arc.normal_eq]
  exact ⟨Arc.rightward?_forward _, Paint.orElse_orElse _ _⟩

theorem Arc.upright_goingTo {es : List Entity} {a : Arc} (h : a.Upright es) (name : String) :
    (a.goingTo name).Upright es :=
  ⟨h.kind, h.paint⟩

/-- Nested rows play no part in turning an arc round. -/
theorem Arc.forward_withRows (a : Arc) (rows : Option (List Row)) :
    Arc.forward { a with rows := rows } = { a.forward with rows := rows } := by
  unfold Arc.forward
  cases rightward? a.kind <;> rfl

/-- The arc itself and its nested rows are brought into normal form apart from each other. -/
theorem Arc.normal_withRows (es : List Entity) (a : Arc) :
    a.normal es = { a.forward.painted es with rows := a.rows.map (Arc.normalRows es) } := by
  rw [Arc.normal_eq, Arc.forward_withRows]
  rfl

theorem Arc.rows_normal (es : List Entity) (a : Arc) :
    (a.normal es).rows = a.rows.map (Arc.normalRows es) := by
  rw [Arc.normal_withRows]

theorem Arc.source_normal (es : List Entity) (a : Arc) :
    (a.normal es).source = a.forward.source := by
  rw [Arc.normal_eq]
  unfold Arc.painted Arc.forward
  cases rightward? a.kind <;> rfl

theorem Arc.broadcast_normal (es : List Entity) (a : Arc) :
    (a.normal es).broadcast = a.toEveryone := by
  rw [Arc.normal_eq]
  unfold Arc.toEveryone Arc.painted Arc.forward
  cases rightward? a.kind <;> rfl

/-- The copies of an arc do not depend on where it goes. -/
theorem Arc.copies_normal (es : List Entity) (a : Arc) (name : String) :
    ((a.normal es).goingTo name).copies es =
      (a.recipients es).map fun n => (a.normal es).goingTo n := by
  unfold Arc.copies Arc.recipients
  rw [List.map_map, ← Arc.source_normal es a]
  rfl

theorem Arc.copies_normal_self (es : List Entity) (a : Arc) :
    (a.normal es).copies es = (a.recipients es).map fun n => (a.normal es).goingTo n :=
  Arc.copies_normal es a (a.normal es).target

theorem Arc.rows_map_eq_iff {a : Arc} {f : List Row → List Row} :
    ({ a with rows := a.rows.map f } : Arc) = a ↔
      ∀ inner, a.rows = some inner → f inner = inner := by
  rcases a with ⟨k, s, t, l, p, _ | rows⟩
  · constructor
    · intro _ inner e
      cases e
    · exact fun _ => rfl
  · constructor
    · intro h inner e
      cases e
      exact Option.some.inj (congrArg Arc.rows h)
    · intro h
      exact congrArg (fun r => Arc.mk k s t l p (some r)) (h rows rfl)

/-- An upright arc is final when its nested rows are. -/
theorem Arc.normal_eq_self_iff {es : List Entity} {a : Arc} (h : a.Upright es) :
    a.normal es = a ↔ ∀ inner, a.rows = some inner → Arc.normalRows es inner = inner := by
  rw [Arc.normal_of_upright h]
  exact Arc.rows_map_eq_iff

/-! ## 4. One row -/

variable {es : List Entity} {row : Row}

theorem spread_eq (es : List Entity) (row : Row) : spread es row =
    row.filter (fun x => !x.broadcast) ++ (row.filter Arc.broadcast).flatMap (Arc.copies es) := rfl

theorem mem_spread {x : Arc} : x ∈ spread es row ↔
    (x ∈ row ∧ x.broadcast = false) ∨ ∃ a ∈ row, a.broadcast = true ∧ x ∈ a.copies es := by
  unfold spread
  rw [List.mem_append, List.mem_filter, List.mem_flatMap]
  simp only [List.mem_filter, Bool.not_eq_true', and_assoc]

/-- Copies of an upright arc and their normal forms. -/
theorem Arc.copies_of_upright {a : Arc} (h : a.Upright es) :
    (a.normal es).copies es = (a.copies es).map (Arc.normal es) := by
  have hcopy : ∀ e : Entity, (Arc.goingTo e.name a).normal es = (a.normal es).goingTo e.name := by
    intro e
    rw [Arc.normal_of_upright h, Arc.normal_of_upright (Arc.upright_goingTo h e.name)]
    rfl
  have hsource : (a.normal es).source = a.source := by
    rw [Arc.normal_of_upright h]
  have hleft : (a.normal es).copies es =
      (es.filter (·.name != a.source)).map fun e => (a.normal es).goingTo e.name := by
    rw [← hsource]
    rfl
  have hright : (a.copies es).map (Arc.normal es) =
      (es.filter (·.name != a.source)).map fun e => (Arc.goingTo e.name a).normal es := by
    unfold Arc.copies
    rw [List.map_map]
    rfl
  rw [hleft, hright]
  exact List.map_congr_left fun e _ => (hcopy e).symm

theorem broadcast_of_upright {a : Arc} (h : a.Upright es) :
    (a.normal es).broadcast = a.broadcast := by
  rw [Arc.normal_of_upright h]
  rfl

/-- Upright arcs may be spread before or after their nested rows are brought into normal form. -/
theorem spread_map_normal (h : ∀ x ∈ row, x.Upright es) :
    spread es (row.map (Arc.normal es)) = (spread es row).map (Arc.normal es) := by
  have hkeep : ∀ x ∈ row, (!(x.normal es).broadcast) = !x.broadcast :=
    fun x hx => by rw [broadcast_of_upright (h x hx)]
  have hgo : ∀ x ∈ row, (x.normal es).broadcast = x.broadcast :=
    fun x hx => broadcast_of_upright (h x hx)
  have hkept : (row.map (Arc.normal es)).filter (fun x => !x.broadcast) =
      (row.filter fun x => !x.broadcast).map (Arc.normal es) := filter_map_of_keeps hkeep
  have hgone : (row.map (Arc.normal es)).filter Arc.broadcast =
      (row.filter Arc.broadcast).map (Arc.normal es) := filter_map_of_keeps hgo
  rw [spread_eq, spread_eq, hkept, hgone, List.map_append, List.map_flatMap, List.flatMap_map]
  congr 1
  refine flatMap_congr_of_mem fun x hx => ?_
  exact Arc.copies_of_upright (h x (List.mem_filter.mp hx).1)

/-- Spreading makes a row longer, unless every arc to everyone in it is its only copy. -/
theorem copies_eq_of_length (hself : ∀ x ∈ row, x.broadcast = true → x ∈ x.copies es)
    (hle : (spread es row).length ≤ row.length) :
    ∀ x ∈ row, x.broadcast = true → x.copies es = [x] := by
  intro x hx hgo
  have hadd := length_filter_add Arc.broadcast row
  have hne : ∀ y ∈ row.filter Arc.broadcast, Arc.copies es y ≠ [] := by
    intro y hy
    have hmem := List.mem_filter.mp hy
    exact List.ne_nil_of_mem (hself y hmem.1 hmem.2)
  rw [spread_eq, List.length_append] at hle
  have hone := length_eq_one_of_flatMap (Arc.copies es) _ hne (by omega) x
    (List.mem_filter.mpr ⟨hx, hgo⟩)
  obtain ⟨y, hy⟩ := List.length_eq_one_iff.mp hone
  have hmem := hself x hx hgo
  rw [hy, List.mem_singleton] at hmem
  rw [hy, hmem]

theorem spread_of_copies (h : ∀ x ∈ row, x.broadcast = true → x.copies es = [x]) :
    spread es row = row.filter (fun x => !x.broadcast) ++ row.filter Arc.broadcast := by
  have hcopies : (row.filter Arc.broadcast).flatMap (Arc.copies es) =
      (row.filter Arc.broadcast).flatMap fun x => [x] := by
    refine flatMap_congr_of_mem fun x hx => ?_
    have hmem := List.mem_filter.mp hx
    exact h x hmem.1 hmem.2
  rw [spread_eq, hcopies, List.flatMap_singleton']

/-- **When spreading a row changes nothing.** -/
theorem spread_eq_iff (hself : ∀ x ∈ row, x.broadcast = true → x ∈ x.copies es) :
    spread es row = row ↔ (∀ x ∈ row, x.broadcast = true → x.copies es = [x]) ∧
      row.Pairwise fun x y => x.broadcast = true → y.broadcast = true := by
  constructor
  · intro h
    have hcopies := copies_eq_of_length hself (Nat.le_of_eq (congrArg List.length h))
    refine ⟨hcopies, (filter_append_filter_eq_iff Arc.broadcast row).mp ?_⟩
    rw [← spread_of_copies hcopies, h]
  · rintro ⟨hcopies, hlast⟩
    rw [spread_of_copies hcopies]
    exact (filter_append_filter_eq_iff Arc.broadcast row).mpr hlast

/-- **When a row of upright arcs is final.** -/
theorem spread_map_eq_iff (h : ∀ x ∈ row, x.Upright es)
    (hself : ∀ x ∈ row, x.broadcast = true → x ∈ x.copies es) :
    spread es (row.map (Arc.normal es)) = row ↔
      spread es row = row ∧ ∀ x ∈ row, x.normal es = x := by
  rw [spread_map_normal h]
  constructor
  · intro hmap
    have hlength := congrArg List.length hmap
    rw [List.length_map] at hlength
    have hspread := spread_of_copies (copies_eq_of_length hself (Nat.le_of_eq hlength))
    rw [hspread] at hmap ⊢
    exact parts_eq_of_map_eq (fun x hx => broadcast_of_upright (h x hx)) hmap
  · rintro ⟨hspread, hnormal⟩
    rw [hspread]
    exact (List.map_congr_left hnormal).trans (List.map_id row)

/-! ## 5. The row that was written -/

/-- What stands in the normal form of a row: the normal form of an arc that goes to one entity, or a
    copy of that of an arc to everyone. -/
theorem mem_spread_normal {x : Arc} : x ∈ spread es (row.map (Arc.normal es)) ↔
    (∃ a ∈ row, a.toEveryone = false ∧ x = a.normal es) ∨
      ∃ a ∈ row, a.toEveryone = true ∧ ∃ n ∈ a.recipients es, x = (a.normal es).goingTo n := by
  have hcopies : ∀ a : Arc, x ∈ (a.normal es).copies es ↔
      ∃ n ∈ a.recipients es, x = (a.normal es).goingTo n := by
    intro a
    rw [Arc.copies_normal_self, List.mem_map]
    exact ⟨fun ⟨n, hn, e⟩ => ⟨n, hn, e.symm⟩, fun ⟨n, hn, e⟩ => ⟨n, hn, e.symm⟩⟩
  rw [mem_spread]
  constructor
  · rintro (⟨hx, hstays⟩ | ⟨b, hb, hgo, hx⟩)
    · obtain ⟨a, ha, rfl⟩ := List.mem_map.mp hx
      rw [Arc.broadcast_normal] at hstays
      exact .inl ⟨a, ha, hstays, rfl⟩
    · obtain ⟨a, ha, rfl⟩ := List.mem_map.mp hb
      rw [Arc.broadcast_normal] at hgo
      exact .inr ⟨a, ha, hgo, (hcopies a).mp hx⟩
  · rintro (⟨a, ha, hstays, rfl⟩ | ⟨a, ha, hgo, hx⟩)
    · rw [← Arc.broadcast_normal es] at hstays
      exact .inl ⟨List.mem_map_of_mem ha, hstays⟩
    · rw [← Arc.broadcast_normal es] at hgo
      exact .inr ⟨_, List.mem_map_of_mem ha, hgo, (hcopies a).mpr hx⟩

theorem upright_spread {x : Arc} (hx : x ∈ spread es (row.map (Arc.normal es))) : x.Upright es := by
  rcases mem_spread_normal.mp hx with ⟨a, _, _, rfl⟩ | ⟨a, _, _, n, _, rfl⟩
  · exact a.upright_normal es
  · exact Arc.upright_goingTo (a.upright_normal es) n

/-- An arc to everyone in a normal form is a copy that goes to an entity named `*`. -/
theorem star_of_broadcast {x : Arc} (hx : x ∈ spread es (row.map (Arc.normal es)))
    (hgo : x.broadcast = true) : ∃ a ∈ row, a.toEveryone = true ∧ "*" ∈ a.recipients es ∧
      x = (a.normal es).goingTo "*" := by
  rcases mem_spread_normal.mp hx with ⟨a, _, hstays, rfl⟩ | ⟨a, ha, hall, n, hn, rfl⟩
  · rw [Arc.broadcast_normal, hstays] at hgo
    cases hgo
  · have hstar : n = "*" := beq_iff_eq.mp hgo
    exact ⟨a, ha, hall, hstar ▸ hn, by rw [hstar]⟩

theorem mem_copies_self {x : Arc} (hx : x ∈ spread es (row.map (Arc.normal es)))
    (hgo : x.broadcast = true) : x ∈ x.copies es := by
  obtain ⟨a, _, _, hstar, rfl⟩ := star_of_broadcast hx hgo
  rw [Arc.copies_normal]
  exact List.mem_map.mpr ⟨"*", hstar, rfl⟩

theorem map_target_copies (a : Arc) :
    ((a.normal es).copies es).map Arc.target = a.recipients es := by
  rw [Arc.copies_normal_self, List.map_map]
  exact List.map_id (a.recipients es)

/-- Every arc to everyone in the normal form is its only copy exactly when no arc of the row that
    goes to an entity named `*` goes to anybody else. -/
theorem alone_iff : (∀ x ∈ spread es (row.map (Arc.normal es)), x.broadcast = true →
      x.copies es = [x]) ↔
    ∀ a ∈ row, a.toEveryone = true → "*" ∈ a.recipients es → a.recipients es = ["*"] := by
  constructor
  · intro h a ha hall hstar
    have hx := h ((a.normal es).goingTo "*")
      (mem_spread_normal.mpr (.inr ⟨a, ha, hall, "*", hstar, rfl⟩)) rfl
    rw [Arc.copies_normal] at hx
    have htargets := congrArg (List.map Arc.target) hx
    rw [List.map_map] at htargets
    exact (List.map_id (a.recipients es)).symm.trans htargets
  · intro h x hx hgo
    obtain ⟨a, ha, hall, hstar, rfl⟩ := star_of_broadcast hx hgo
    rw [Arc.copies_normal, h a ha hall hstar]
    rfl

/-- The arcs to everyone of the normal form stand at its end exactly when no name `*` stands before
    another name that the arcs to everyone of the row go to. -/
theorem last_iff : ((spread es (row.map (Arc.normal es))).Pairwise
      fun x y => x.broadcast = true → y.broadcast = true) ↔
    ((row.filter Arc.toEveryone).flatMap (Arc.recipients es)).Pairwise
      fun m n => m = "*" → n = "*" := by
  have htargets :
      (((row.map (Arc.normal es)).filter Arc.broadcast).flatMap (Arc.copies es)).map Arc.target =
        (row.filter Arc.toEveryone).flatMap (Arc.recipients es) := by
    have hfilter : row.filter (Arc.broadcast ∘ Arc.normal es) = row.filter Arc.toEveryone :=
      List.filter_congr fun a _ => Arc.broadcast_normal es a
    rw [List.filter_map, hfilter, List.map_flatMap, List.flatMap_map]
    exact flatMap_congr_of_mem fun a _ => map_target_copies a
  have hstar : ∀ x : Arc, x.broadcast = true ↔ x.target = "*" := fun _ => beq_iff_eq
  have hstays : ∀ x ∈ (row.map (Arc.normal es)).filter (fun x => !x.broadcast),
      x.target ≠ "*" := by
    intro x hx e
    have hfail := (List.mem_filter.mp hx).2
    rw [(hstar x).mpr e] at hfail
    exact absurd hfail (by decide)
  rw [← htargets, List.pairwise_map, spread_eq, List.pairwise_append]
  simp only [hstar]
  constructor
  · exact fun h => h.2.1
  · intro h
    exact ⟨pairwise_of_mem fun x hx _ _ e => absurd e (hstays x hx), h,
      fun x hx _ _ e => absurd e (hstays x hx)⟩

/-- Every arc of the normal form has the nested rows of an arc that is kept. -/
theorem kept_of_mem_spread {x : Arc} (hx : x ∈ spread es (row.map (Arc.normal es))) :
    ∃ a ∈ row, a.kept es = true ∧ x.rows = (a.normal es).rows := by
  rcases mem_spread_normal.mp hx with ⟨a, ha, hstays, rfl⟩ | ⟨a, ha, hall, n, hn, rfl⟩
  · refine ⟨a, ha, ?_, rfl⟩
    rw [Arc.kept, hstays]
    rfl
  · refine ⟨a, ha, ?_, rfl⟩
    rw [Arc.kept, hall]
    exact bne_iff_ne.mpr (List.ne_nil_of_mem hn)

/-- The nested rows of an arc that is kept are in the normal form. -/
theorem mem_spread_of_kept {a : Arc} (ha : a ∈ row) (hkept : a.kept es = true) :
    ∃ x ∈ spread es (row.map (Arc.normal es)), x.rows = (a.normal es).rows := by
  by_cases hall : a.toEveryone = true
  · have hne : a.recipients es ≠ [] := by
      intro hnil
      rw [Arc.kept, hall, hnil] at hkept
      exact absurd hkept (by decide)
    obtain ⟨n, hn⟩ := List.exists_mem_of_ne_nil _ hne
    exact ⟨_, mem_spread_normal.mpr (.inr ⟨a, ha, hall, n, hn, rfl⟩), rfl⟩
  · exact ⟨_, mem_spread_normal.mpr (.inl ⟨a, ha, by simpa using hall, rfl⟩), rfl⟩

/-- Nested rows are final in all of the normal form exactly when they are in every arc that is
    kept. -/
theorem nested_iff : (∀ x ∈ spread es (row.map (Arc.normal es)), x.normal es = x) ↔
    ∀ a ∈ row, a.kept es = true → ∀ inner, a.rows = some inner →
      Arc.normalRows es (Arc.normalRows es inner) = Arc.normalRows es inner := by
  constructor
  · intro h a ha hkept inner hinner
    obtain ⟨x, hx, hrows⟩ := mem_spread_of_kept ha hkept
    refine (Arc.normal_eq_self_iff (upright_spread hx)).mp (h x hx) _ ?_
    rw [hrows, Arc.rows_normal, hinner]
    rfl
  · intro h x hx
    obtain ⟨a, ha, hkept, hrows⟩ := kept_of_mem_spread hx
    refine (Arc.normal_eq_self_iff (upright_spread hx)).mpr fun inner hinner => ?_
    rw [hrows, Arc.rows_normal] at hinner
    obtain ⟨inner', hinner', rfl⟩ := Option.map_eq_some_iff.mp hinner
    exact h a ha hkept inner' hinner'

/-- **When the normal form of a row is final.** -/
theorem row_final_iff :
    spread es ((spread es (row.map (Arc.normal es))).map (Arc.normal es)) =
        spread es (row.map (Arc.normal es)) ↔
      RowSettles es row ∧ ∀ a ∈ row, a.kept es = true → ∀ inner, a.rows = some inner →
        Arc.normalRows es (Arc.normalRows es inner) = Arc.normalRows es inner := by
  have hself : ∀ x ∈ spread es (row.map (Arc.normal es)), x.broadcast = true → x ∈ x.copies es :=
    fun x hx hgo => mem_copies_self hx hgo
  rw [spread_map_eq_iff (fun x hx => upright_spread hx) hself, spread_eq_iff hself, alone_iff,
    last_iff, nested_iff]
  constructor
  · rintro ⟨⟨halone, hlast⟩, hnested⟩
    exact ⟨⟨halone, hlast⟩, hnested⟩
  · rintro ⟨⟨halone, hlast⟩, hnested⟩
    exact ⟨⟨halone, hlast⟩, hnested⟩

/-! ## 6. All rows -/

theorem rows_final_iff {rows : List Row}
    (h : ∀ row ∈ rows, ∀ a ∈ row, ∀ inner, a.rows = some inner →
      (Arc.normalRows es (Arc.normalRows es inner) = Arc.normalRows es inner ↔
        ∀ row', KeptRow es inner row' → RowSettles es row')) :
    Arc.normalRows es (Arc.normalRows es rows) = Arc.normalRows es rows ↔
      ∀ row, KeptRow es rows row → RowSettles es row := by
  have hrows : Arc.normalRows es (Arc.normalRows es rows) = Arc.normalRows es rows ↔
      ∀ row ∈ rows, spread es ((spread es (row.map (Arc.normal es))).map (Arc.normal es)) =
        spread es (row.map (Arc.normal es)) := by
    rw [Arc.normalRows_eq, Arc.normalRows_eq, List.map_map]
    exact List.map_inj_left
  rw [hrows]
  constructor
  · intro hfinal row' hkept
    cases hkept with
    | here hrow => exact (row_final_iff.mp (hfinal row' hrow)).1
    | inside hrow ha hkept hinner hrest =>
      have hnested := (row_final_iff.mp (hfinal _ hrow)).2 _ ha hkept _ hinner
      exact (h _ hrow _ ha _ hinner).mp hnested row' hrest
  · intro hsettles row hrow
    refine row_final_iff.mpr ⟨hsettles row (.here hrow), fun a ha hkept inner hinner => ?_⟩
    exact (h row hrow a ha inner hinner).mpr fun row' hrest =>
      hsettles row' (.inside hrow ha hkept hinner hrest)

/-- Nested rows are final exactly when all rows that are kept of them settle. -/
theorem nested_final_iff (a : Arc) : ∀ inner, a.rows = some inner →
    (Arc.normalRows es (Arc.normalRows es inner) = Arc.normalRows es inner ↔
      ∀ row, KeptRow es inner row → RowSettles es row) := by
  induction a using Arc.induct with
  | step a ih =>
    intro inner hinner
    exact rows_final_iff fun row hrow b hb => ih inner hinner row hrow b hb

/-! ## 7. Whole charts -/

/-- Labels play no part in the normal form of rows. -/
theorem senderPaint_labelled (es : List Entity) (name : String) :
    senderPaint (es.map Entity.labelled) name = senderPaint es name := by
  have hfind : (es.map Entity.labelled).reverse.find? (·.name == name) =
      (es.reverse.find? (·.name == name)).map Entity.labelled := by
    rw [← List.map_reverse, List.find?_map]
    rfl
  unfold senderPaint
  rw [hfind]
  cases es.reverse.find? (·.name == name) <;> rfl

theorem Arc.copies_labelled (es : List Entity) (a : Arc) :
    a.copies (es.map Entity.labelled) = a.copies es := by
  unfold Arc.copies
  rw [List.filter_map, List.map_map]
  rfl

theorem spread_labelled (es : List Entity) (row : Row) :
    spread (es.map Entity.labelled) row = spread es row := by
  unfold spread
  simp only [Arc.copies_labelled]

theorem normalRows_labelled {rows : List Row}
    (h : ∀ row ∈ rows, ∀ a ∈ row, a.normal (es.map Entity.labelled) = a.normal es) :
    Arc.normalRows (es.map Entity.labelled) rows = Arc.normalRows es rows := by
  rw [Arc.normalRows_eq, Arc.normalRows_eq]
  refine List.map_congr_left fun row hrow => ?_
  rw [spread_labelled, List.map_congr_left (h row hrow)]

theorem Arc.normal_labelled (a : Arc) : a.normal (es.map Entity.labelled) = a.normal es := by
  induction a using Arc.induct with
  | step a ih =>
    have hrows : a.rows.map (Arc.normalRows (es.map Entity.labelled)) =
        a.rows.map (Arc.normalRows es) := by
      cases hinner : a.rows with
      | none => rfl
      | some inner => exact congrArg some (normalRows_labelled (ih inner hinner))
    rw [Arc.normal_eq, Arc.normal_eq, hrows, Arc.painted, Arc.painted, senderPaint_labelled]

theorem Chart.normal_normal (c : Chart) : c.normal.normal =
    { entities := c.normal.entities, rows := Arc.normalRows c.entities c.normal.rows } := by
  have hentities : (c.entities.map Entity.labelled).map Entity.labelled =
      c.entities.map Entity.labelled := by
    rw [List.map_map]
    rfl
  have hrows : Arc.normalRows (c.entities.map Entity.labelled) c.normal.rows =
      Arc.normalRows c.entities c.normal.rows :=
    normalRows_labelled fun _ _ a _ => a.normal_labelled
  show Chart.mk ((c.entities.map Entity.labelled).map Entity.labelled)
    (Arc.normalRows (c.entities.map Entity.labelled) c.normal.rows) = _
  rw [hentities, hrows]
  rfl

/-- A row settles if no entity is named `*`. -/
theorem rowSettles_of_names (h : ∀ e ∈ es, e.name ≠ "*") (row : Row) : RowSettles es row := by
  have hnames : ∀ a : Arc, "*" ∉ a.recipients es := by
    intro a hstar
    obtain ⟨e, he, hname⟩ := List.mem_map.mp hstar
    exact h e (List.mem_filter.mp he).1 hname
  refine ⟨fun a _ _ hstar => absurd hstar (hnames a), pairwise_of_mem fun m hm n _ e => ?_⟩
  obtain ⟨a, _, hm⟩ := List.mem_flatMap.mp hm
  exact absurd (e ▸ hm) (hnames a)

/-- **The normal form of a chart is final exactly when every row that is kept settles.** Nothing
    else can stand in the way: not labels, directions or colours, and not the nesting. In particular
    it is final if no entity is named `*`. -/
theorem normal_normal_iff (c : Chart) :
    (c.normal.normal = c.normal ↔
      ∀ row, KeptRow c.entities c.rows row → RowSettles c.entities row) ∧
    ((∀ e ∈ c.entities, e.name ≠ "*") → c.normal.normal = c.normal) := by
  have hfinal : c.normal.normal = c.normal ↔
      ∀ row, KeptRow c.entities c.rows row → RowSettles c.entities row := by
    have hrows : Arc.normalRows c.entities (Arc.normalRows c.entities c.rows) =
        Arc.normalRows c.entities c.rows ↔
          ∀ row, KeptRow c.entities c.rows row → RowSettles c.entities row :=
      rows_final_iff fun _ _ a _ => nested_final_iff a
    rw [← hrows, Chart.normal_normal]
    constructor
    · exact fun h => congrArg Chart.rows h
    · exact fun h => congrArg (Chart.mk c.normal.entities) h
  exact ⟨hfinal, fun h => hfinal.mpr fun row _ => rowSettles_of_names h row⟩

/-- An entity named `*` beside another one: the arc to everyone goes to both, and its copy for the
    first goes to everyone again. -/
def echoing : Chart :=
  { entities := [{ name := "*" }, { name := "a" }, { name := "b" }]
    rows := [[{ kind := "->", source := "a", target := "*" }]] }

theorem normal_echoing : echoing.normal.normal ≠ echoing.normal := by
  decide

end SequenceChart
