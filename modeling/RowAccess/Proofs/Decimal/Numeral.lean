/-
RowAccess.Proofs.Decimal.Numeral — the characters of written numbers.

A number written without an exponent consists of digits, points and signs, and
is never empty. That is all a reader of queries has to know of it: such a text
is one word, and none of the words that have a meaning of their own.

* `isNumeral_positional` — a decimal without exponent.
* `isNumeral_floatText`, `isNumeral_intText` — the texts of values.
-/
import RowAccess.Value

namespace RowAccess.Decimal

/-- A character of numbers written without exponent. -/
def isNumeralChar (c : Char) : Bool := c.isDigit || c == '.' || c == '-'

/-- Digits, points and signs, at least one of them. -/
def IsNumeral (w : List Char) : Prop := w ≠ [] ∧ ∀ c ∈ w, isNumeralChar c = true

theorem IsNumeral.append {v w : List Char} (hv : ∀ c ∈ v, isNumeralChar c = true)
    (hw : IsNumeral w) : IsNumeral (v ++ w) :=
  ⟨List.append_ne_nil_of_right_ne_nil v hw.1, List.forall_mem_append.mpr ⟨hv, hw.2⟩⟩

theorem isNumeral_digits (n : Nat) : IsNumeral (Nat.toDigits 10 n) := by
  refine ⟨Nat.toDigits_ne_nil, fun c hc => ?_⟩
  have hdigit : c.isDigit = true := Nat.isDigit_of_mem_toDigits (by decide) (by decide) hc
  simp [isNumeralChar, hdigit]

theorem isNumeralChar_of_mem_zeros {n : Nat} {c : Char} (hc : c ∈ List.replicate n '0') :
    isNumeralChar c = true := by
  rw [List.eq_of_mem_replicate hc]
  decide

/-- A decimal is laid out without exponent in one of three ways: whole, with
the point between its digits, or behind it. -/
theorem isNumeral_positional (d : Decimal) (pointZero : Bool) :
    IsNumeral (d.positional pointZero) := by
  have hdigits : IsNumeral d.digitChars := isNumeral_digits d.digits
  simp only [positional]
  by_cases hwhole : 0 ≤ d.exponent
  · rw [if_pos hwhole, List.append_assoc]
    refine ⟨by simp [hdigits.1], ?_⟩
    simp only [List.forall_mem_append]
    refine ⟨hdigits.2, fun _ => isNumeralChar_of_mem_zeros, ?_⟩
    exact List.all_eq_true.mp (by cases pointZero <;> decide)
  · rw [if_neg hwhole]
    split
    · refine IsNumeral.append (fun c hc => hdigits.2 c (List.mem_of_mem_take hc))
        ⟨by simp, List.forall_mem_cons.mpr ⟨by decide, fun c hc => ?_⟩⟩
      exact hdigits.2 c (List.mem_of_mem_drop hc)
    · refine IsNumeral.append ?_ hdigits
      simp only [List.forall_mem_cons]
      exact ⟨by decide, by decide, fun _ => isNumeralChar_of_mem_zeros⟩

/-- The text of a finite float. Its style never writes an exponent. -/
theorem isNumeral_floatText {x : Float} (hnan : x.isNaN = false)
    (hinf : x.isInf = false) :
    IsNumeral (Value.floatText x).toList := by
  simp only [Value.floatText, hnan, hinf, Bool.false_eq_true, if_false,
    String.toList_ofList]
  exact IsNumeral.append (List.all_eq_true.mp (by split <;> decide))
    (isNumeral_positional _ _)

theorem isNumeral_intText : ∀ n : Int, IsNumeral n.repr.toList
  | .ofNat n => by simpa [Int.repr, Nat.repr] using isNumeral_digits n
  | .negSucc n => by
      have h := IsNumeral.append (v := ['-']) (List.all_eq_true.mp (by decide))
        (isNumeral_digits (n + 1))
      simpa [Int.repr, Nat.repr] using h

end RowAccess.Decimal
