/-
RowAccess.PolicyText.Literal — values as a policy writes them.

A value is a text between double quotes, `true`, `false`, or a number. A
number has at least one digit before its point and after it, and no exponent;
without a point it is a whole number of 64 bits.

* `Failure` — where reading stopped, and what was expected there.
* `readValue` — the value at the front of a text.
-/
import RowAccess.Decimal.Binary
import RowAccess.PolicyText.Token
import RowAccess.Text.Scan
import RowAccess.Value

namespace RowAccess.PolicyText

open Text (keyword? digits? length_le_of_keyword? length_lt_of_digits?)

/-- What a policy lacks at the place where reading stopped. -/
inductive Expected where
  | action
  | subject
  | value
  | colon
  | closingBrace
  deriving DecidableEq

/-- The place where reading stopped, given by the text from there on. -/
structure Failure where
  rest : List Char
  expected : Option Expected
  deriving DecidableEq

/-- A result with the text that remains after it. -/
abbrev Reading (α : Type) := Except Failure (α × List Char)

/-- A whole number, if 64 bits hold it. -/
def whole? (negative : Bool) (digits : List Char) : Option Int64 :=
  let magnitude : Int := Nat.ofDigitChars 10 digits 0
  let n := if negative then -magnitude else magnitude
  if Int64.minValue.toInt ≤ n ∧ n ≤ Int64.maxValue.toInt then some (Int64.ofInt n)
  else none

/-- The float nearest to a number with digits behind its point. -/
def fractional (negative : Bool) (digits places : List Char) : Float :=
  Decimal.toSignedFloat negative
    ⟨Nat.ofDigitChars 10 (digits ++ places) 0, -places.length⟩

/-- The point and the digits behind it, if both are there. -/
def places? : List Char → Option (List Char × List Char)
  | '.' :: s => digits? s
  | _ => none

/-- The sign of a number, and the text after it. -/
def sign : List Char → Bool × List Char
  | '-' :: s => (true, s)
  | s => (false, s)

/-- The number at the front of the text. Without digits reading stops behind
the sign, and behind the digits if 64 bits do not hold them. -/
def readNumber (s : List Char) : Reading Value :=
  let (negative, s) := sign s
  match digits? s with
  | none => .error ⟨s, some .value⟩
  | some (digits, s) =>
    match places? s with
    | some (places, s) => .ok (.float (fractional negative digits places), s)
    | none =>
      match whole? negative digits with
      | some n => .ok (.int n, s)
      | none => .error ⟨s, some .value⟩

/-- The value at the front of the text. What is no text and no truth value is
read as a number. -/
def readValue (s : List Char) : Reading Value :=
  match quoted? s with
  | some (t, s) => .ok (.text t, s)
  | none =>
    match keyword? "true" s with
    | some s => .ok (.bool true, s)
    | none =>
      match keyword? "false" s with
      | some s => .ok (.bool false, s)
      | none => readNumber s

/-! ## A value is never longer than its text -/

theorem length_sign_le (s : List Char) : (sign s).2.length ≤ s.length := by
  unfold sign
  split
  · exact Nat.le_succ _
  · exact Nat.le_refl _

theorem length_le_of_places? {s places rest : List Char}
    (h : places? s = some (places, rest)) :
    rest.length ≤ s.length := by
  unfold places? at h
  split at h
  · exact Nat.le_succ_of_le (Nat.le_of_lt (length_lt_of_digits? h))
  · simp at h

theorem length_le_of_readNumber {s rest : List Char} {v : Value}
    (h : readNumber s = .ok (v, rest)) : rest.length ≤ s.length := by
  have hs := length_sign_le s
  unfold readNumber at h
  generalize sign s = signed at h hs
  obtain ⟨negative, s'⟩ := signed
  simp only at h hs
  split at h
  · simp at h
  · rename_i digits s₁ hd
    have h₁ := length_lt_of_digits? hd
    split at h
    · rename_i places s₂ hp
      have h₂ := length_le_of_places? hp
      simp only [Except.ok.injEq, Prod.mk.injEq] at h
      rw [← h.2]
      omega
    · split at h
      · simp only [Except.ok.injEq, Prod.mk.injEq] at h
        rw [← h.2]
        omega
      · simp at h

theorem length_le_of_readValue {s rest : List Char} {v : Value}
    (h : readValue s = .ok (v, rest)) : rest.length ≤ s.length := by
  unfold readValue at h
  split at h
  · rename_i hq
    simp only [Except.ok.injEq, Prod.mk.injEq] at h
    rw [← h.2]
    exact Nat.le_of_lt (length_lt_of_quoted? hq)
  · split at h
    · rename_i hk
      simp only [Except.ok.injEq, Prod.mk.injEq] at h
      rw [← h.2]
      exact length_le_of_keyword? hk
    · split at h
      · rename_i hk
        simp only [Except.ok.injEq, Prod.mk.injEq] at h
        rw [← h.2]
        exact length_le_of_keyword? hk
      · exact length_le_of_readNumber h

end RowAccess.PolicyText
