/-
RowAccess.Proofs.Agreement — how far agreement is an equality of numbers.

Agreement compares two whole numbers digit by digit, and a whole number with a
float after rounding it. It is symmetric, and it is transitive but for one
case: a float stands between two different whole numbers that are both rounded
to it. There agreement follows neither number's digits, and a condition that
names one of the numbers is met by a stored float that equals the other. Whole
numbers below `2 ^ 53` are never confused with any other.

NaN agrees with nothing, itself included, so agreement is not reflexive either.

* `Value.asFloat?` — the float that a number is compared with floats as.
* `Value.agrees_trans` — agreement passes on, unless two whole numbers share a
  float.
* `Value.exists_float_iff` — two whole numbers share a float exactly when they
  are rounded to the same number.
* `Value.agrees_numeric_but_for_rounding` — the above of all values, and of
  conditions on a single field.
-/
import RowAccess.Conditions
import RowAccess.Proofs.Rounding

namespace RowAccess.Value

open Rounding

variable {a c : Value}

/-! ## 1. Symmetry and transitivity -/

theorem agrees_comm (a b : Value) : a.agrees b = b.agrees a := by
  cases a <;> cases b <;> simp only [agrees, BEq.comm]

/-- The float that a number is compared with floats as. -/
def asFloat? : Value → Option Float
  | int n => some (roundInt n)
  | float x => some x
  | bool _ => none
  | text _ => none

theorem agrees_bool_iff {b : Bool} : a.agrees (bool b) = true ↔ a = bool b := by
  cases a <;> simp [agrees]

theorem agrees_text_iff {s : String} : a.agrees (text s) = true ↔ a = text s := by
  cases a <;> simp [agrees]

theorem agrees_int_iff {n : Int64} :
    a.agrees (int n) = true ↔
      a = int n ∨ ∃ x, a = float x ∧ (roundInt n == x) = true := by
  cases a <;> simp [agrees]

theorem agrees_float_iff {x : Float} :
    a.agrees (float x) = true ↔ ∃ y, a.asFloat? = some y ∧ (y == x) = true := by
  cases a <;> simp [agrees, asFloat?]

/-- Numbers with equal floats agree, unless they are different whole numbers. -/
theorem agrees_of_asFloat? {x y : Float} (ha : a.asFloat? = some x)
    (hc : c.asFloat? = some y) (h : (x == y) = true)
    (hsame : ∀ m n, a = int m → c = int n → m = n) : a.agrees c = true := by
  cases a with
  | int m =>
      cases c with
      | int n => rw [hsame m n rfl rfl]; exact BEq.rfl
      | float z => rwa [agrees, Option.some.inj ha, Option.some.inj hc]
      | _ => simp [asFloat?] at hc
  | float w =>
      cases c with
      | int n => rw [agrees, Option.some.inj hc, Option.some.inj ha]; exact BEq.symm h
      | float z => rwa [agrees, Option.some.inj ha, Option.some.inj hc]
      | _ => simp [asFloat?] at hc
  | _ => simp [asFloat?] at ha

/-- **Agreement passes on**, unless a float stands between two different whole
numbers. -/
theorem agrees_trans {b : Value} (hab : a.agrees b = true) (hbc : b.agrees c = true)
    (hsame : ∀ m x n, a = int m → b = float x → c = int n → m = n) :
    a.agrees c = true := by
  cases b with
  | bool b => rwa [agrees_bool_iff.1 hab]
  | text s => rwa [agrees_text_iff.1 hab]
  | int n =>
      rw [agrees_comm] at hbc
      rcases agrees_int_iff.1 hab with rfl | ⟨x, rfl, hx⟩
      · rwa [agrees_comm]
      rcases agrees_int_iff.1 hbc with rfl | ⟨y, rfl, hy⟩
      · exact hab
      · exact PartialEquivBEq.trans (BEq.symm hx) hy
  | float x =>
      rw [agrees_comm] at hbc
      obtain ⟨y, ha, hy⟩ := agrees_float_iff.1 hab
      obtain ⟨z, hc, hz⟩ := agrees_float_iff.1 hbc
      exact agrees_of_asFloat? ha hc (PartialEquivBEq.trans hy (BEq.symm hz))
        fun m n hm hn => hsame m x n hm rfl hn

/-! ## 2. Whole numbers that share a float -/

theorem natAbs_toInt_lt (n : Int64) : n.toInt.natAbs < 2 ^ 64 := by
  have hlow := n.le_toInt
  have hhigh := n.toInt_lt
  omega

theorem roundInt_beq_iff {m n : Int64} :
    (roundInt m == roundInt n) = true ↔ nearestInt m.toInt = nearestInt n.toInt :=
  ofInt_beq_ofInt_iff (natAbs_toInt_lt m) (natAbs_toInt_lt n)

/-- A float that equals one whole number agrees with another exactly when the
two are rounded to the same number. -/
theorem float_agrees_iff {m n : Int64} {x : Float} (h : (float x).agrees (int n) = true) :
    (float x).agrees (int m) = true ↔ nearestInt m.toInt = nearestInt n.toInt := by
  have hn : (roundInt n == x) = true := h
  rw [← roundInt_beq_iff]
  constructor
  · intro hm
    exact PartialEquivBEq.trans (b := x) hm (BEq.symm hn)
  · intro hm
    exact PartialEquivBEq.trans hm hn

theorem exists_float_iff {m n : Int64} :
    (∃ x, (int m).agrees (float x) = true ∧ (float x).agrees (int n) = true) ↔
      nearestInt m.toInt = nearestInt n.toInt := by
  constructor
  · rintro ⟨x, hm, hn⟩
    exact (float_agrees_iff hn).1 ((agrees_comm _ _).trans hm)
  · intro h
    exact ⟨roundInt n, roundInt_beq_iff.2 h, roundInt_beq_iff.2 rfl⟩

/-- Different whole numbers that are rounded together both have more than 53
bits. -/
theorem two_pow_le_of_nearestInt_eq {a b : Int} (hne : a ≠ b)
    (h : nearestInt a = nearestInt b) :
    2 ^ 53 ≤ a.natAbs ∧ 2 ^ 53 ≤ b.natAbs := by
  constructor
  · by_contra ha
    exact hne (eq_of_nearestInt_eq (by omega) h)
  · by_contra hb
    exact hne (eq_of_nearestInt_eq (by omega) h.symm).symm

/-! ## 3. Agreement as an equality of numbers -/

/-- A condition on a single field compares the field with the value named. -/
theorem holds_singleton {cs : Conditions} {name : String} {demanded : Value}
    (h : cs.pairs = [(name, demanded)]) (r : Record) :
    cs.holds r = (r.get? name).any (·.agrees demanded) := by
  rw [Conditions.holds, h, List.all_cons, List.all_nil, Bool.and_true]

/-- **Agreement is symmetric, and it is transitive but for the float that stands
between two different whole numbers.** There is such a float exactly when the
two are rounded to the same number of 53 significant bits, which takes more
than 53 bits of both; and then a condition that demands the one whole number is
met by every float that equals the other. -/
theorem agrees_numeric_but_for_rounding (a b c : Value) (m n : Int64) :
    a.agrees b = b.agrees a ∧
    (a.agrees b = true → b.agrees c = true →
      (a.agrees c = true ↔ ∀ m x n, a = int m → b = float x → c = int n → m = n)) ∧
    ((∃ x, (int m).agrees (float x) = true ∧ (float x).agrees (int n) = true) ↔
      nearestInt m.toInt = nearestInt n.toInt) ∧
    (m ≠ n → nearestInt m.toInt = nearestInt n.toInt →
      2 ^ 53 ≤ m.toInt.natAbs ∧ 2 ^ 53 ≤ n.toInt.natAbs) ∧
    (∀ (cs : Conditions) (r : Record) (name : String) (x : Float),
      cs.pairs = [(name, int m)] → r.get? name = some (float x) →
      (float x).agrees (int n) = true →
      (cs.holds r = true ↔ nearestInt m.toInt = nearestInt n.toInt)) := by
  refine ⟨agrees_comm a b, ?_, exists_float_iff, ?_, ?_⟩
  · intro hab hbc
    refine ⟨?_, agrees_trans hab hbc⟩
    rintro hac m x n rfl rfl rfl
    exact eq_of_beq hac
  · intro hne h
    exact two_pow_le_of_nearestInt_eq (fun heq => hne (Int64.toInt_inj.1 heq)) h
  · intro cs r name x hpairs hfield hn
    rw [holds_singleton hpairs, hfield]
    exact float_agrees_iff hn

/-- The greatest whole number and one 511 below it share the float `2 ^ 63`. -/
theorem agrees_numeric_but_for_rounding_greatest :
    (int 9223372036854775807).agrees (float 9223372036854775808) = true ∧
    (float 9223372036854775808).agrees (int 9223372036854775296) = true ∧
    (int 9223372036854775807).agrees (int 9223372036854775296) ≠ true ∧
    nearestInt 9223372036854775807 = nearestInt 9223372036854775296 ∧
    2 ^ 53 ≤ Int.natAbs 9223372036854775807 ∧
    ∃ (cs : Conditions) (r : Record), cs.pairs = [("id", int 9223372036854775807)] ∧
      r.get? "id" = some (float 9223372036854775808) ∧ cs.holds r = true := by
  have hlow : (int 9223372036854775807).agrees (float 9223372036854775808) = true := by
    decide +kernel
  have hhigh : (float 9223372036854775808).agrees (int 9223372036854775296) = true := by
    decide +kernel
  have hnear : nearestInt 9223372036854775807 = nearestInt 9223372036854775296 := by
    decide +kernel
  have hne : (9223372036854775807 : Int64) ≠ 9223372036854775296 := by decide
  have hget : ((∅ : Record).set "id" (float 9223372036854775808)).get? "id" =
      some (float 9223372036854775808) := by
    rw [Record.get?_set, if_pos rfl]
  obtain ⟨-, htrans, -, hbits, hmet⟩ :=
    agrees_numeric_but_for_rounding (int 9223372036854775807)
      (float 9223372036854775808) (int 9223372036854775296)
      9223372036854775807 9223372036854775296
  refine ⟨hlow, hhigh, ?_, hnear, (hbits hne hnear).1,
    ⟨[("id", int 9223372036854775807)], ?_⟩, _,
    rfl, hget, (hmet _ _ "id" _ rfl hget hhigh).2 hnear⟩
  · intro hagrees
    exact hne ((htrans hlow hhigh).1 hagrees _ _ _ rfl rfl rfl)
  · exact ⟨by decide, by decide, by decide⟩

/-- Agreement is not transitive: the float `2 ^ 53` agrees with the whole number
one above it, and a condition that demands that number is met by the float. -/
theorem agrees_not_transitive :
    (int 9007199254740993).agrees (float 9007199254740992) = true ∧
    (float 9007199254740992).agrees (int 9007199254740992) = true ∧
    (int 9007199254740993).agrees (int 9007199254740992) = false ∧
    ∃ cs : Conditions, Conditions.single "id" (int 9007199254740993) = .ok cs ∧
      cs.holds ((∅ : Record).set "id" (float 9007199254740992)) = true := by
  refine ⟨by decide +kernel, by decide +kernel, by decide,
    ⟨[("id", int 9007199254740993)], by decide, by decide, by decide⟩,
    Conditions.ofPairs_eq_ok_iff.2 rfl, ?_⟩
  rw [holds_singleton rfl, Record.get?_set, if_pos rfl]
  decide +kernel

end RowAccess.Value
