/-
RowAccess.Proofs.Equality — conditions are equal when they demand the same, in
whatever order.

The equality of conditions counts the fields and looks up each field of the one side on
the other. Looking up takes the first field of a name, so that the comparison speaks of
all fields only where no name occurs twice, and counting the fields is what makes it
work both ways: fields with different names that are all found among as many others are
all of them (`Conditions.reordered_of_beq`).

Values are compared by kind and content. For floats this is the comparison of numbers:
the two zeros are equal, and NaN is equal to nothing. That it is symmetric and transitive
is a fact about floats and not an assumption.

* `Conditions.Reordered` — pairs in another order, up to equality of values.
* `Conditions.beq_is_reordering` — equality is just that, and hence symmetric and
  transitive, and reflexive exactly where no value is NaN.
-/
import Mathlib
import RowAccess.Conditions

namespace RowAccess

/-! ## 1. Values -/

namespace Value

/-- Equal values are one value and no float, or floats that are equal. -/
theorem beq_iff (v w : Value) :
    (v == w) = true ↔
      (v = w ∧ ∀ x, v ≠ .float x) ∨
        ∃ x y, v = .float x ∧ w = .float y ∧ (x == y) = true := by
  cases v <;> cases w <;> simp [BEq.beq, instBEqValue.beq]

instance : PartialEquivBEq Value where
  symm {v w} h := by
    rw [beq_iff] at h ⊢
    rcases h with ⟨rfl, hv⟩ | ⟨x, y, rfl, rfl, hxy⟩
    · exact .inl ⟨rfl, hv⟩
    · exact .inr ⟨y, x, rfl, rfl, BEq.symm hxy⟩
  trans {u v w} huv hvw := by
    rw [beq_iff] at huv hvw ⊢
    rcases huv with ⟨rfl, hu⟩ | ⟨x, y, rfl, rfl, hxy⟩
    · exact hvw
    · rcases hvw with ⟨rfl, hv⟩ | ⟨y', z, hy, rfl, hyz⟩
      · exact .inr ⟨x, y, rfl, rfl, hxy⟩
      · obtain rfl := Value.float.inj hy
        exact .inr ⟨x, z, rfl, rfl, BEq.trans hxy hyz⟩

/-- A value is equal to itself unless it is NaN. -/
theorem beq_self_iff (v : Value) :
    (v == v) = true ↔ ∀ x, v = .float x → x.isNaN = false := by
  cases v with
  | float x =>
      have hfloat : (Value.float x == .float x) = (x == x) := rfl
      rw [hfloat, Float.beq_self_iff]
      simp
  | bool _ => simp [beq_iff]
  | int _ => simp [beq_iff]
  | text _ => simp [beq_iff]

end Value

/-! ## 2. Conditions -/

/-- In lists related element by element, each element on the left has its partner. -/
theorem exists_mem_of_forall₂ {α β : Type} {R : α → β → Prop} {as : List α} {bs : List β}
    (h : List.Forall₂ R as bs) : ∀ a ∈ as, ∃ b ∈ bs, R a b := by
  induction h with
  | nil => simp
  | cons hab _ ih =>
      refine List.forall_mem_cons.mpr ⟨⟨_, List.mem_cons_self, hab⟩, fun a ha => ?_⟩
      obtain ⟨b, hb, hab⟩ := ih a ha
      exact ⟨b, List.mem_cons_of_mem _ hb, hab⟩

namespace Conditions

/-- The field found under a name is the only one of that name. -/
theorem get?_eq_some_iff {c : Conditions} {name : String} {v : Value} :
    c.get? name = some v ↔ (name, v) ∈ c.pairs := by
  rw [get?, List.lookup_eq_some_iff]
  constructor
  · rintro ⟨earlier, later, hpairs, -⟩
    simp [hpairs]
  · intro hmem
    obtain ⟨earlier, later, hpairs⟩ := List.append_of_mem hmem
    refine ⟨earlier, later, hpairs, ?_⟩
    have hnodup := c.wellFormed.nodup
    rw [hpairs, List.map_append, List.nodup_append] at hnodup
    intro p hp
    exact bne_iff_ne.mpr (hnodup.2.2 p.1 (List.mem_map_of_mem hp) name (by simp)).symm

/-- Conditions are equal if they have equally many fields, and each field of the one has
an equal value in the other. -/
theorem beq_iff (a b : Conditions) :
    (a == b) = true ↔ a.pairs.length = b.pairs.length ∧
      ∀ p ∈ a.pairs, ∃ v, (p.1, v) ∈ b.pairs ∧ (v == p.2) = true := by
  have hfound : ∀ (name : String) (v : Value),
      (b.get? name == some v) = true ↔ ∃ w, (name, w) ∈ b.pairs ∧ (w == v) = true := by
    intro name v
    simp only [← get?_eq_some_iff]
    cases b.get? name <;> simp
  show (a.size == b.size && a.pairs.all fun p => b.get? p.1 == some p.2) = true ↔ _
  simp only [Bool.and_eq_true, beq_iff_eq, size, List.all_eq_true, hfound]

/-- The pairs of `b` are those of `a` in some order, up to equality of values. -/
def Reordered (a b : Conditions) : Prop :=
  ∃ pairs, List.Forall₂ (fun p q => p.1 = q.1 ∧ (p.2 == q.2) = true) a.pairs pairs ∧
    pairs.Perm b.pairs

/-- Equal conditions have the same fields. What is found of `a` in `b` is found under
different names, so it is part of `b`; and since there is as much of it as of `b`, it is
all of `b`. -/
theorem reordered_of_beq {a b : Conditions} (h : (a == b) = true) : a.Reordered b := by
  obtain ⟨hlength, hfound⟩ := (beq_iff a b).mp h
  let found (p : String × Value) : String × Value := (p.1, (b.get? p.1).getD p.2)
  have hspec : ∀ p ∈ a.pairs, found p ∈ b.pairs ∧ (p.2 == (found p).2) = true := by
    intro p hp
    obtain ⟨v, hv, heq⟩ := hfound p hp
    have hget : found p = (p.1, v) := by simp [found, get?_eq_some_iff.mpr hv]
    rw [hget]
    exact ⟨hv, BEq.symm heq⟩
  refine ⟨a.pairs.map found, ?_, ?_⟩
  · rw [List.forall₂_map_right_iff, List.forall₂_same]
    exact fun p hp => ⟨rfl, (hspec p hp).2⟩
  · have hnodup : (a.pairs.map found).Nodup := by
      refine List.Nodup.of_map (·.1) ?_
      rw [List.map_map]
      exact a.wellFormed.nodup
    have hsubset : a.pairs.map found ⊆ b.pairs := by
      intro q hq
      obtain ⟨p, hp, rfl⟩ := List.mem_map.mp hq
      exact (hspec p hp).1
    exact (List.subperm_of_subset hnodup hsubset).perm_of_length_le (by simp [hlength])

theorem beq_of_reordered {a b : Conditions} (h : a.Reordered b) : (a == b) = true := by
  obtain ⟨pairs, hpairs, hperm⟩ := h
  refine (beq_iff a b).mpr ⟨hpairs.length_eq.trans hperm.length_eq, fun p hp => ?_⟩
  obtain ⟨⟨_, v⟩, hq, rfl, hv⟩ := exists_mem_of_forall₂ hpairs p hp
  exact ⟨v, hperm.subset hq, BEq.symm hv⟩

instance : PartialEquivBEq Conditions where
  symm {a b} h := by
    obtain ⟨pairs, hpairs, hperm⟩ := reordered_of_beq h
    have hback : List.Forall₂ (fun q p => p.1 = q.1 ∧ (p.2 == q.2) = true)
        pairs a.pairs :=
      hpairs.flip
    refine (beq_iff b a).mpr ⟨(hpairs.length_eq.trans hperm.length_eq).symm,
      fun q hq => ?_⟩
    obtain ⟨⟨_, v⟩, hp, rfl, hv⟩ := exists_mem_of_forall₂ hback q (hperm.symm.subset hq)
    exact ⟨v, hp, hv⟩
  trans {a b c} hab hbc := by
    obtain ⟨hlength, hfound⟩ := (beq_iff a b).mp hab
    obtain ⟨hlength', hfound'⟩ := (beq_iff b c).mp hbc
    refine (beq_iff a c).mpr ⟨hlength.trans hlength', fun p hp => ?_⟩
    obtain ⟨v, hv, hvp⟩ := hfound p hp
    obtain ⟨w, hw, hwv⟩ := hfound' _ hv
    exact ⟨w, hw, BEq.trans hwv hvp⟩

/-- Conditions are equal to themselves unless one of their values is NaN. -/
theorem beq_self_iff (a : Conditions) :
    (a == a) = true ↔ ∀ name x, (name, .float x) ∈ a.pairs → x.isNaN = false := by
  have hvalues : (a == a) = true ↔ ∀ p ∈ a.pairs, (p.2 == p.2) = true := by
    rw [beq_iff, and_iff_right rfl]
    refine forall₂_congr fun p hp => ⟨?_, fun h => ⟨p.2, hp, h⟩⟩
    rintro ⟨v, hv, heq⟩
    obtain rfl : v = p.2 :=
      Option.some.inj ((get?_eq_some_iff.mpr hv).symm.trans (get?_eq_some_iff.mpr hp))
    exact heq
  rw [hvalues]
  constructor
  · intro h name x hmem
    exact (Value.beq_self_iff _).mp (h _ hmem) x rfl
  · rintro h ⟨name, v⟩ hp
    refine (Value.beq_self_iff v).mpr fun x hx => ?_
    exact h name x (hx ▸ hp)

/-- **Equality of conditions is equality of what they demand**: two conditions are equal
just when the pairs of the one are a reordering of the pairs of the other, up to equality
of values. So equality is symmetric and transitive; and conditions are equal to themselves
just when they hold no NaN. -/
theorem beq_is_reordering (a b c : Conditions) :
    ((a == b) = true ↔ a.Reordered b) ∧
      ((a == b) = true → (b == a) = true) ∧
      ((a == b) = true → (b == c) = true → (a == c) = true) ∧
      ((a == a) = true ↔ ∀ name x, (name, .float x) ∈ a.pairs → x.isNaN = false) :=
  ⟨⟨reordered_of_beq, beq_of_reordered⟩, BEq.symm, BEq.trans, beq_self_iff a⟩

/-- Fields change places while a zero changes its sign; and zero over zero, which is no
number, keeps conditions from being equal to themselves. -/
theorem beq_is_reordering_zeros :
    let a : Conditions :=
      ⟨[("x", .float 0), ("y", .int 1), ("z", .text "")], by decide, by decide, by decide⟩
    let b : Conditions :=
      ⟨[("z", .text ""), ("x", .float (-0)), ("y", .int 1)],
        by decide, by decide, by decide⟩
    let c : Conditions :=
      ⟨[("y", .int 1), ("z", .text ""), ("x", .float 0)], by decide, by decide, by decide⟩
    let n : Conditions :=
      ⟨[("x", .float 0), ("y", .float (0 / 0))], by decide, by decide, by decide⟩
    ((a == b) = true ∧ a.Reordered b ∧ (b == a) = true) ∧
      ((b == c) = true ∧ (a == c) = true) ∧
      ((a == a) = true ∧ ¬ (n == n) = true) := by
  intro a b c n
  have hab : (a == b) = true := by decide +kernel
  have hbc : (b == c) = true := by decide +kernel
  have hnumbers : ∀ name x, (name, .float x) ∈ a.pairs → x.isNaN = false := by
    intro name x hmem
    obtain ⟨rfl, rfl⟩ : name = "x" ∧ x = 0 := by simpa [a] using hmem
    decide +kernel
  have hnan : ¬ ∀ name x, (name, .float x) ∈ n.pairs → x.isNaN = false := by
    intro h
    exact absurd (h "y" (0 / 0) (by simp [n])) (by decide +kernel)
  obtain ⟨hreordered, hsymm, htrans, hself⟩ := beq_is_reordering a b c
  obtain ⟨-, -, -, hself'⟩ := beq_is_reordering n n n
  exact ⟨⟨hab, hreordered.mp hab, hsymm hab⟩, ⟨hbc, htrans hab hbc⟩,
    hself.mpr hnumbers, mt hself'.mp hnan⟩

end Conditions

end RowAccess
