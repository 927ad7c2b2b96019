/-
RowAccess.Proofs.Checking — which pairs are conditions, and what is wrong with others.

Pairs are checked from the first to the last, and the names met so far are remembered.
So the check speaks of two lists: names that are still to come, and names seen before
them. A name is at fault if it is empty, or stands in the second list or earlier in the
first one (`FaultAt`). When a name has been read and is not at fault, it moves from the
one list to the other, and the faults of the names behind it stay the same
(`faultAt_cons_succ`). Hence the first name at fault, wherever it stands, is the one
reported.

* `nameFault?_eq_some_iff` — the fault found, for any names seen before.
* `ofPairs_outcomes` — what comes of any list of pairs.
-/
import RowAccess.Proofs.Equality

namespace RowAccess.Conditions

/-! ## 1. Faults of names -/

/-- The name at a position is empty or not new: it was seen before, or stands at an
earlier position, too. -/
def FaultAt (seen names : List String) (i : Nat) : Prop :=
  ∃ name, names[i]? = some name ∧
    (name = "" ∨ name ∈ seen ∨ ∃ j < i, names[j]? = some name)

/-- What is wrong with a name at fault. -/
def faultOf (name : String) : Fault :=
  if name = "" then .emptyField else .duplicateField name

theorem faultAt_cons_zero {seen names : List String} {name : String} :
    FaultAt seen (name :: names) 0 ↔ name = "" ∨ name ∈ seen := by
  simp [FaultAt]

/-- The names behind the first one have the faults that they have where it was seen
before. -/
theorem faultAt_cons_succ {seen names : List String} {name : String} {i : Nat} :
    FaultAt seen (name :: names) (i + 1) ↔ FaultAt (name :: seen) names i := by
  have hearlier : ∀ other, (∃ j < i + 1, (name :: names)[j]? = some other) ↔
      name = other ∨ ∃ j < i, names[j]? = some other := by
    intro other
    rw [Nat.exists_lt_succ_left]
    simp
  simp only [FaultAt, List.getElem?_cons_succ, hearlier, List.mem_cons]
  refine exists_congr fun other => and_congr_right fun _ => ?_
  rw [eq_comm (a := name)]
  tauto

/-- A position is the first at which a name is at fault. -/
def FirstFault (seen names : List String) (i : Nat) : Prop :=
  FaultAt seen names i ∧ ∀ j < i, ¬ FaultAt seen names j

theorem firstFault_zero {seen names : List String} :
    FirstFault seen names 0 ↔ FaultAt seen names 0 := by
  simp [FirstFault]

theorem firstFault_cons_succ {seen names : List String} {name : String} {i : Nat} :
    FirstFault seen (name :: names) (i + 1) ↔
      ¬ FaultAt seen (name :: names) 0 ∧ FirstFault (name :: seen) names i := by
  simp only [FirstFault, Nat.forall_lt_succ_left, faultAt_cons_succ]
  tauto

/-! ## 2. The fault that is reported -/

theorem nameFault?_of_fault {seen names : List String} {name : String}
    (h : FaultAt seen (name :: names) 0) :
    nameFault? seen (name :: names) = some (faultOf name) := by
  rw [faultAt_cons_zero] at h
  by_cases hempty : name = ""
  · simp [nameFault?, faultOf, hempty]
  · simp [nameFault?, faultOf, hempty, h.resolve_left hempty]

theorem nameFault?_of_not_fault {seen names : List String} {name : String}
    (h : ¬ FaultAt seen (name :: names) 0) :
    nameFault? seen (name :: names) = nameFault? (name :: seen) names := by
  rw [faultAt_cons_zero, not_or] at h
  rw [nameFault?, if_neg h.1, if_neg h.2]

/-- **The first name at fault is reported.** -/
theorem nameFault?_eq_some_iff {seen names : List String} {fault : Fault} :
    nameFault? seen names = some fault ↔
      ∃ i name, FirstFault seen names i ∧ names[i]? = some name ∧
        fault = faultOf name := by
  induction names generalizing seen with
  | nil => simp [nameFault?]
  | cons name names ih =>
      by_cases h : FaultAt seen (name :: names) 0
      · rw [nameFault?_of_fault h, Option.some.injEq, eq_comm]
        constructor
        · rintro rfl
          exact ⟨0, name, firstFault_zero.mpr h, rfl, rfl⟩
        · rintro ⟨i, other, hfirst, hother, rfl⟩
          cases i with
          | zero => rw [Option.some.inj hother]
          | succ i => exact absurd h (firstFault_cons_succ.mp hfirst).1
      · rw [nameFault?_of_not_fault h, ih]
        constructor
        · rintro ⟨i, other, hfirst, hother, rfl⟩
          exact ⟨i + 1, other, firstFault_cons_succ.mpr ⟨h, hfirst⟩, hother, rfl⟩
        · rintro ⟨i, other, hfirst, hother, rfl⟩
          cases i with
          | zero => exact absurd hfirst.1 h
          | succ i => exact ⟨i, other, (firstFault_cons_succ.mp hfirst).2, hother, rfl⟩

/-! ## 3. What comes of pairs -/

/-- Pairs are refused for a name at fault, and the empty list because there are none. -/
theorem ofPairs_eq_error_iff {pairs : List (String × Value)} {fault : Fault} :
    ofPairs pairs = .error fault ↔
      nameFault? [] (pairs.map (·.1)) = some fault ∨ pairs = [] ∧ fault = .noField := by
  unfold ofPairs
  split
  · rename_i found hfound
    have hne : pairs ≠ [] := by
      rintro rfl
      simp [nameFault?] at hfound
    simp [hfound, hne]
  · rename_i hfound
    by_cases hne : pairs = []
    · simp [hne, nameFault?, eq_comm]
    · simp [hfound, hne]

/-- No value is found under a name that is not among the pairs. -/
theorem get?_eq_none_iff {c : Conditions} {name : String} :
    c.get? name = none ↔ name ∉ c.pairs.map (·.1) := by
  rw [Option.eq_none_iff_forall_ne_some]
  simp [get?_eq_some_iff]

/-- **What comes of any list of pairs.** They become conditions just if there are any, no
name is empty, and no name occurs twice. Then the pairs are kept in their order, and a
value is found under each of their names and under no other. Otherwise the first name that
is empty or stands at an earlier position is reported, as empty if it is and as a
duplicate if not, and only the empty list is refused for having no pairs. -/
theorem ofPairs_outcomes (pairs : List (String × Value)) :
    let names := pairs.map (·.1)
    ((∃ c, ofPairs pairs = .ok c) ↔ pairs ≠ [] ∧ "" ∉ names ∧ names.Nodup) ∧
    (∀ c, ofPairs pairs = .ok c →
      c.pairs = pairs ∧ (∀ name value, (name, value) ∈ pairs → c.get? name = some value) ∧
        ∀ name, name ∉ names → c.get? name = none) ∧
    ∀ fault, ofPairs pairs = .error fault ↔
      (pairs = [] ∧ fault = .noField) ∨
        ∃ i name, FirstFault [] names i ∧ names[i]? = some name ∧
          fault = faultOf name := by
  intro names
  refine ⟨?_, ?_, ?_⟩
  · simp only [ofPairs_eq_ok_iff]
    constructor
    · rintro ⟨c, rfl⟩
      exact ⟨c.wellFormed.ne_nil, c.wellFormed.empty_notMem, c.wellFormed.nodup⟩
    · rintro ⟨hne, hempty, hnodup⟩
      exact ⟨⟨pairs, hne, hempty, hnodup⟩, rfl⟩
  · intro c hc
    obtain rfl := ofPairs_eq_ok_iff.mp hc
    exact ⟨rfl, fun _ _ hmem => get?_eq_some_iff.mpr hmem,
      fun _ hname => get?_eq_none_iff.mpr hname⟩
  · intro fault
    rw [ofPairs_eq_error_iff, nameFault?_eq_some_iff, or_comm]

/-- An empty name behind a repeated one is not what is reported, and without these two the
pairs are conditions. -/
theorem ofPairs_outcomes_repeated :
    let start : List (String × Value) := [("state", .text "draft"), ("owner", .int 7)]
    let faulty := start ++ [("state", .bool true), ("", .int 1), ("owner", .int 7)]
    (∃ c, ofPairs start = .ok c ∧ c.pairs = start ∧ c.get? "owner" = some (.int 7) ∧
        c.get? "archived" = none) ∧
      ofPairs faulty = .error (.duplicateField "state") ∧
      ofPairs [] = .error .noField := by
  intro start faulty
  obtain ⟨haccepted, hkept, -⟩ := ofPairs_outcomes start
  obtain ⟨c, hc⟩ := haccepted.mpr ⟨by simp [start], by simp [start], by simp [start]⟩
  obtain ⟨hpairs, hfound, hother⟩ := hkept c hc
  obtain ⟨-, -, hfaulty⟩ := ofPairs_outcomes faulty
  obtain ⟨-, -, hempty⟩ := ofPairs_outcomes []
  have hfirst : FirstFault [] (faulty.map (·.1)) 2 := by
    simp [faulty, start, firstFault_cons_succ, firstFault_zero, faultAt_cons_zero]
  refine ⟨⟨c, hc, hpairs, hfound _ _ (by simp [start]), hother _ (by simp [start])⟩,
    ?_, ?_⟩
  · exact (hfaulty _).mpr (.inr ⟨2, "state", hfirst, rfl, rfl⟩)
  · exact (hempty _).mpr (.inl ⟨rfl, rfl⟩)

end RowAccess.Conditions
