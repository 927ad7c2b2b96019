/-
RowAccess.Conditions — what a rule demands of a record.

Conditions are pairs of a field and the value it must hold, all of which must
hold together. There is at least one pair, no name is empty, and no name
occurs twice: `Conditions.WellFormed` is part of the type. A rule that holds
of every record has no conditions at all, so empty ones are a mistake.

* `Conditions.ofPairs` — checks the pairs of a statement.
* `Conditions.Fault` — why pairs were refused.
* `Conditions.holds` — whether a record meets the conditions.
-/
import RowAccess.Record

namespace RowAccess

/-- Conditions as pairs are well formed when there are any, none names the
empty field, and no field is named twice. -/
structure Conditions.WellFormed (pairs : List (String × Value)) : Prop where
  ne_nil : pairs ≠ []
  empty_notMem : "" ∉ pairs.map (·.1)
  nodup : (pairs.map (·.1)).Nodup

/-- Fields with the values they are required to hold, in the order written. -/
structure Conditions where
  pairs : List (String × Value)
  wellFormed : Conditions.WellFormed pairs

namespace Conditions

/-- Why pairs are no conditions. -/
inductive Fault where
  | noField
  | duplicateField (name : String)
  | emptyField
  deriving DecidableEq

/-- The text of a fault. -/
def Fault.message : Fault → String
  | noField => "condition set must name at least one field; omit it to match every record"
  | duplicateField name => "duplicate field '" ++ name ++ "' in condition set"
  | emptyField => "condition field name must not be empty"

/-- The fault of the first name that is empty or occurs in `seen` or earlier
in the list. -/
def nameFault? (seen : List String) : List String → Option Fault
  | [] => none
  | name :: names =>
    if name = "" then some .emptyField
    else if name ∈ seen then some (.duplicateField name)
    else nameFault? (name :: seen) names

theorem nameFault?_eq_none_iff {seen names : List String} :
    nameFault? seen names = none ↔
      "" ∉ names ∧ names.Nodup ∧ ∀ name ∈ names, name ∉ seen := by
  induction names generalizing seen with
  | nil => simp [nameFault?]
  | cons name names ih =>
    unfold nameFault?
    split
    · simp_all
    · split
      · simp_all
      · rw [ih]
        simp only [List.mem_cons, List.nodup_cons, not_or]
        grind

/-- The conditions of a list of pairs. A name at fault is reported before the
lack of pairs, and of several the first. -/
def ofPairs (pairs : List (String × Value)) : Except Fault Conditions :=
  match h : nameFault? [] (pairs.map (·.1)) with
  | some fault => .error fault
  | none =>
    if hne : pairs = [] then .error .noField
    else
      have names := nameFault?_eq_none_iff.1 h
      .ok ⟨pairs, hne, names.1, names.2.1⟩

/-- Pairs make conditions just if they are well formed, and then nothing of them
is changed. -/
theorem ofPairs_eq_ok_iff {pairs : List (String × Value)} {c : Conditions} :
    ofPairs pairs = .ok c ↔ c.pairs = pairs := by
  constructor
  · intro h
    unfold ofPairs at h
    split at h
    · simp at h
    · split at h
      · simp at h
      · rw [← Except.ok.inj h]
  · rintro rfl
    obtain ⟨hne, hempty, hnodup⟩ := c.wellFormed
    have hnames : nameFault? [] (c.pairs.map (·.1)) = none :=
      nameFault?_eq_none_iff.2 ⟨hempty, hnodup, by simp⟩
    unfold ofPairs
    split
    · simp_all
    · rw [dif_neg hne]

/-- Conditions on a single field. -/
def single (name : String) (value : Value) : Except Fault Conditions :=
  ofPairs [(name, value)]

/-- The number of fields. -/
def size (c : Conditions) : Nat := c.pairs.length

/-- The names of the fields, in the order written. -/
def names (c : Conditions) : List String := c.pairs.map (·.1)

/-- The value that a field is required to hold, if it is named. -/
def get? (c : Conditions) (name : String) : Option Value := c.pairs.lookup name

/-- Whether a record has every field that is named, with a value that agrees. -/
def holds (c : Conditions) (r : Record) : Bool :=
  c.pairs.all fun (name, required) => (r.get? name).any (·.agrees required)

/-- Conditions are equal when they demand the same of the same fields, in
whatever order. -/
instance : BEq Conditions where
  beq a b :=
    a.size == b.size && a.pairs.all fun (name, value) => b.get? name == some value

/-- Conditions as shown to people. Field names stand for themselves. -/
def display (c : Conditions) : String :=
  " AND ".intercalate (c.pairs.map fun (name, value) => name ++ " = " ++ value.display)

end Conditions

end RowAccess
