/-
RowAccess.Proofs.Rounding — which whole numbers the floats tell apart.

A float holds 53 significant bits. A whole number with more of them becomes the
nearest float, and half way between two the one whose last bit is zero. The
rounding is described here on whole numbers alone, and the conversion to floats
is proved to follow it: the conversion multiplies by a power of ten and packs
the product into 64 bits, so the proof goes along shifted mantissas, rounded
products and packed bits.

Nothing is said of numbers of more than 64 bits: no column holds one.

* `nearestInt` — a whole number rounded to 53 significant bits.
* `eq_of_nearestInt_eq` — below `2 ^ 53` in size nothing is rounded together.
* `stands_roundWithAccuracy` — the rounding of a product.
* `ofInt_beq_ofInt_iff` — the floats of two whole numbers are equal exactly when
  the numbers are rounded to the same one.
-/
import Mathlib
import RowAccess.Value

namespace RowAccess.Rounding

open Float.Model Float.Model.UnpackedFloat

/-! ## 1. Rounding whole numbers -/

/-- The number of steps of size `2 ^ k` nearest to `n`; half way between two,
the even one. -/
def steps (n k : Nat) : Nat :=
  match compare (2 * (n % 2 ^ k)) (2 ^ k) with
  | .lt => n / 2 ^ k
  | .eq => n / 2 ^ k + n / 2 ^ k % 2
  | .gt => n / 2 ^ k + 1

/-- The number of at most 53 significant bits that is nearest to `n`; half way
between two, the one that is an even number of steps. -/
def nearest (n : Nat) : Nat := steps n (n.log2 - 52) * 2 ^ (n.log2 - 52)

/-- A whole number rounded to 53 significant bits: the sign is kept. -/
def nearestInt (z : Int) : Int := z.sign * nearest z.natAbs

theorem steps_of_lt {n k : Nat} (h : 2 * (n % 2 ^ k) < 2 ^ k) :
    steps n k = n / 2 ^ k := by
  rw [steps, Nat.compare_eq_lt.2 h]

theorem steps_of_eq {n k : Nat} (h : 2 * (n % 2 ^ k) = 2 ^ k) :
    steps n k = n / 2 ^ k + n / 2 ^ k % 2 := by
  rw [steps, Nat.compare_eq_eq.2 h]

theorem steps_of_gt {n k : Nat} (h : 2 ^ k < 2 * (n % 2 ^ k)) :
    steps n k = n / 2 ^ k + 1 := by
  rw [steps, Nat.compare_eq_gt.2 h]

theorem steps_zero (n : Nat) : steps n 0 = n := by
  rw [steps_of_lt (by rw [Nat.pow_zero, Nat.mod_one]; decide), Nat.pow_zero, Nat.div_one]

theorem div_le_steps (n k : Nat) : n / 2 ^ k ≤ steps n k := by
  unfold steps; split <;> omega

theorem steps_le (n k : Nat) : steps n k ≤ n / 2 ^ k + 1 := by
  unfold steps; split <;> omega

/-- Rounding does not depend on the unit of measurement. -/
theorem steps_mul_two_pow (n k j : Nat) : steps (n * 2 ^ j) (k + j) = steps n k := by
  have hpos : 0 < 2 ^ j := Nat.two_pow_pos j
  have hdiv : n * 2 ^ j / 2 ^ (k + j) = n / 2 ^ k := by
    rw [Nat.pow_add, Nat.mul_div_mul_right _ _ hpos]
  have hmod : n * 2 ^ j % 2 ^ (k + j) = n % 2 ^ k * 2 ^ j := by
    rw [Nat.pow_add, Nat.mul_mod_mul_right]
  have hcompare : compare (2 * (n % 2 ^ k * 2 ^ j)) (2 ^ (k + j)) =
      compare (2 * (n % 2 ^ k)) (2 ^ k) := by
    rw [← Nat.mul_assoc, Nat.pow_add]
    simp only [Nat.compare_eq_ite_lt, Nat.mul_lt_mul_right hpos]
  rw [steps, hdiv, hmod, hcompare, steps]

theorem nearest_of_lt {n : Nat} (h : n < 2 ^ 53) : nearest n = n := by
  have hlog : n.log2 - 52 = 0 := by
    rcases Nat.eq_zero_or_pos n with rfl | hpos
    · rfl
    · have := (Nat.log2_lt hpos.ne').2 h
      omega
  rw [nearest, hlog, steps_zero, Nat.pow_zero, Nat.mul_one]

theorem log2_mul_two_pow {n : Nat} (hn : n ≠ 0) (j : Nat) :
    (n * 2 ^ j).log2 = n.log2 + j := by
  have hpos := Nat.two_pow_pos j
  rw [Nat.log2_eq_iff (Nat.mul_ne_zero hn hpos.ne'), Nat.add_right_comm,
      Nat.pow_add, Nat.pow_add]
  exact ⟨Nat.mul_le_mul_right _ (Nat.log2_self_le hn),
    Nat.mul_lt_mul_of_pos_right Nat.lt_log2_self hpos⟩

/-- What is left of a number of `53 + k` bits without its last `k` bits. -/
theorem leading_bits {n k : Nat} (hn : n ≠ 0) (h : n.log2 = 52 + k) :
    2 ^ 52 ≤ n / 2 ^ k ∧ n / 2 ^ k < 2 ^ 53 := by
  have hpos := Nat.two_pow_pos k
  constructor
  · rw [Nat.le_div_iff_mul_le hpos, ← Nat.pow_add, ← h]
    exact Nat.log2_self_le hn
  · rw [Nat.div_lt_iff_lt_mul hpos, ← Nat.pow_add, ← Nat.log2_lt hn]
    omega

theorem two_pow_le_steps {n k : Nat} (hn : n ≠ 0) (h : n.log2 = 52 + k) :
    2 ^ 52 ≤ steps n k :=
  le_trans (leading_bits hn h).1 (div_le_steps n k)

/-- Rounding may carry into a 54th bit, and then the last bit is zero. -/
theorem steps_carry {n k : Nat} (hn : n ≠ 0) (h : n.log2 = 52 + k) :
    ∃ j ≤ 1, (steps n k).log2 = 52 + j ∧ 2 ^ j ∣ steps n k := by
  have hlow := two_pow_le_steps hn h
  have hhigh := (leading_bits hn h).2
  have hsteps := steps_le n k
  rcases Nat.lt_or_ge (steps n k) (2 ^ 53) with hlt | hge
  · exact ⟨0, by omega, (Nat.log2_eq_iff (by omega)).2 ⟨hlow, hlt⟩, Nat.one_dvd _⟩
  · have hcarry : steps n k = 2 ^ 53 := by omega
    rw [hcarry, Nat.log2_two_pow]
    exact ⟨1, le_rfl, rfl, Nat.pow_dvd_pow 2 (by decide)⟩

theorem two_pow_le_nearest {n : Nat} (h : 2 ^ 53 ≤ n) : 2 ^ 53 ≤ nearest n := by
  have hn : n ≠ 0 := by omega
  have hlog : 53 ≤ n.log2 := (Nat.le_log2 hn).2 h
  obtain ⟨k, hk⟩ : ∃ k, n.log2 = 52 + (k + 1) := ⟨n.log2 - 53, by omega⟩
  have hsteps := two_pow_le_steps hn hk
  rw [nearest, hk, Nat.add_sub_cancel_left]
  calc 2 ^ 53 = 2 ^ 52 * 2 := rfl
    _ ≤ steps n (k + 1) * 2 ^ (k + 1) :=
      Nat.mul_le_mul hsteps (by rw [Nat.pow_succ]; have := Nat.two_pow_pos k; omega)

theorem nearestInt_natCast (n : Nat) : nearestInt n = nearest n := by
  rcases Nat.eq_zero_or_pos n with rfl | hpos
  · rfl
  · rw [nearestInt, Int.sign_eq_one_of_pos (by omega), Int.one_mul, Int.natAbs_natCast]

theorem nearestInt_neg (z : Int) : nearestInt (-z) = -nearestInt z := by
  rw [nearestInt, nearestInt, Int.sign_neg, Int.natAbs_neg, Int.neg_mul]

theorem nearestInt_of_lt {z : Int} (h : z.natAbs < 2 ^ 53) : nearestInt z = z := by
  rw [nearestInt, nearest_of_lt h, Int.sign_mul_natAbs]

theorem natAbs_nearestInt (z : Int) : (nearestInt z).natAbs = nearest z.natAbs := by
  rcases eq_or_ne z 0 with rfl | h
  · rfl
  · rw [nearestInt, Int.natAbs_mul, Int.natAbs_sign_of_ne_zero h, Nat.one_mul,
        Int.natAbs_natCast]

/-- **A whole number below `2 ^ 53` is rounded to itself and no other number is
rounded to it.** -/
theorem eq_of_nearestInt_eq {a b : Int} (ha : a.natAbs < 2 ^ 53)
    (h : nearestInt a = nearestInt b) : a = b := by
  rw [nearestInt_of_lt ha] at h
  rcases Nat.lt_or_ge b.natAbs (2 ^ 53) with hb | hb
  · rw [h, nearestInt_of_lt hb]
  · have hnear := two_pow_le_nearest hb
    rw [← natAbs_nearestInt, ← h] at hnear
    omega

/-! ## 2. Shifting a mantissa -/

/-- Behind a shift stand the last bit that was dropped and whether any bit
below it was set. -/
theorem shiftRight_succ (m k : Nat) :
    ((⟨m, false, false⟩ : ExtendedMantissa) >>> (k + 1)) =
      ⟨m / 2 ^ (k + 1), m / 2 ^ k % 2 != 0, m % 2 ^ k != 0⟩ := by
  induction k with
  | zero =>
      simp [HShiftRight.hShiftRight, Nat.repeat,
        ExtendedMantissa.shiftRightOne, Nat.mod_one]
  | succ k ih =>
      have hstep : ((⟨m, false, false⟩ : ExtendedMantissa) >>> (k + 1 + 1)) =
          ((⟨m, false, false⟩ : ExtendedMantissa) >>> (k + 1)).shiftRightOne := rfl
      have hquotient : m / 2 ^ (k + 1) / 2 = m / 2 ^ (k + 1 + 1) := by
        rw [Nat.div_div_eq_div_mul, ← Nat.pow_succ]
      have hsticky : (m / 2 ^ k % 2 != 0 || m % 2 ^ k != 0) = (m % 2 ^ (k + 1) != 0) := by
        have hpos := Nat.two_pow_pos k
        rw [Nat.mod_pow_succ, Bool.eq_iff_iff]
        rcases Nat.mod_two_eq_zero_or_one (m / 2 ^ k) with h | h <;> simp [h]
      rw [hstep, ih, ExtendedMantissa.shiftRightOne, hquotient, hsticky]

theorem mantissa_shiftRight (m k : Nat) :
    ((⟨m, false, false⟩ : ExtendedMantissa) >>> k).mantissa = m / 2 ^ k := by
  cases k with
  | zero => exact (Nat.div_one m).symm
  | succ k => rw [shiftRight_succ]

theorem roundedMantissa_shiftRight (m k : Nat) :
    ((⟨m, false, false⟩ : ExtendedMantissa) >>> k).roundedMantissa = steps m k := by
  cases k with
  | zero => exact (steps_zero m).symm
  | succ k =>
      have hlt : m % 2 ^ k < 2 ^ k := Nat.mod_lt _ (Nat.two_pow_pos k)
      have hpow : 2 ^ (k + 1) = 2 * 2 ^ k := Nat.pow_succ'
      have hmod : m % 2 ^ (k + 1) = m % 2 ^ k + 2 ^ k * (m / 2 ^ k % 2) :=
        Nat.mod_pow_succ
      rw [shiftRight_succ, ExtendedMantissa.roundedMantissa]
      -- the bit dropped last tells whether half a step is reached, the others whether it
      -- is passed
      rcases Nat.mod_two_eq_zero_or_one (m / 2 ^ k) with hround | hround <;>
        rw [hround, Nat.mul_comm] at hmod <;>
        rcases Nat.eq_zero_or_pos (m % 2 ^ k) with hsticky | hsticky
      · rw [steps_of_lt (by omega), hround, hsticky]; rfl
      · rw [steps_of_lt (by omega), hround, bne_iff_ne.2 hsticky.ne']; rfl
      · rw [steps_of_eq (by omega), hround, hsticky]; rfl
      · rw [steps_of_gt (by omega), hround, bne_iff_ne.2 hsticky.ne']; rfl

/-- Within the range of binary64 the last digit of a number of 53 or more bits
has weight `2 ^ (log2 - 52)`. -/
theorem shiftToTargetExponent_eq {m k : Nat} {e : Int} (h : m.log2 = 52 + k)
    (he : -1074 ≤ e + k) :
    shiftToTargetExponent .binary64 m e .exact =
      ((⟨m, false, false⟩ : ExtendedMantissa) >>> k, e + k) := by
  have htarget : Format.binary64.targetExponent (totalExponent m e) = e + k := by
    simp only [Format.targetExponent, totalExponent, Format.mantissaBits,
      Format.minExponent, h]
    omega
  rw [shiftToTargetExponent, htarget, shiftToExponent]
  simp [ExtendedMantissa.ofMantissaAndAccuracy]

/-! ## 3. Floats that stand for whole numbers -/

/-- An unpacked float stands for a whole number: it is a zero, or it has 53
significant bits and their value is the number. -/
inductive Stands : UnpackedFloat → Int → Prop
  | zero (s : Sign) : Stands (.zero s) 0
  | finite (s : Sign) (m e : Nat) (hm : 0 < m) (z : Int) (low : 2 ^ 52 ≤ m)
      (high : m < 2 ^ 53) (range : e ≤ 1023)
      (value : z * 2 ^ 52 = s.apply (m * 2 ^ e : Nat)) :
      Stands (.finite s m (e - 52) hm) z

/-- Rounding shifts twice: the second shift takes back a carry into a 54th bit. -/
theorem roundWithAccuracy_eq {s : Sign} {m k j : Nat} {e : Int} (hlog : m.log2 = 52 + k)
    (hlog' : (steps m k).log2 = 52 + j) (he : -1074 ≤ e + k)
    (hpos : 0 < steps m k / 2 ^ j) :
    roundWithAccuracy .binary64 s m e .exact =
      .finite s (steps m k / 2 ^ j) (e + k + j) hpos := by
  have hsecond := shiftToTargetExponent_eq (e := e + k) hlog' (by omega)
  simp only [roundWithAccuracy, shiftToTargetExponent_eq hlog he,
    roundedMantissa_shiftRight, hsecond, mantissa_shiftRight, dif_neg hpos.ne']

/-- What has 53 or more bits is rounded to the nearest number of steps, if the
exponents leave room for a carry. -/
theorem stands_roundWithAccuracy {s : Sign} {m k p : Nat} {e : Int} {z : Int} (hm : m ≠ 0)
    (hlog : m.log2 = 52 + k) (he : e + k = p - 52)
    (room : steps m k < 2 ^ 53 ∧ p ≤ 1023 ∨ p < 1023)
    (value : z * 2 ^ 52 = s.apply (steps m k * 2 ^ p : Nat)) :
    Stands (roundWithAccuracy .binary64 s m e .exact) z := by
  have hsteps : steps m k ≠ 0 := by have := two_pow_le_steps hm hlog; omega
  obtain ⟨j, hj, hlog', hdvd⟩ := steps_carry hm hlog
  have range : p + j ≤ 1023 := by
    rcases room with ⟨hlt, hp⟩ | hp
    · have := (Nat.log2_lt hsteps).2 hlt
      omega
    · omega
  obtain ⟨low, high⟩ := leading_bits hsteps hlog'
  have hexponent : e + k + j = ((p + j : Nat) - 52 : Int) := by omega
  have hvalue : steps m k / 2 ^ j * 2 ^ (p + j) = steps m k * 2 ^ p := by
    rw [Nat.add_comm, Nat.pow_add, ← Nat.mul_assoc, Nat.div_mul_cancel hdvd]
  rw [roundWithAccuracy_eq hlog hlog' (by omega) (by omega)]
  simp only [hexponent]
  exact .finite s _ (p + j) _ z low high range (by rw [hvalue, value])

/-- The bits of a float in the normal range hold it without loss. -/
theorem unpack_pack_finite {s : Sign} {m e : Nat} (hm : 0 < m) (low : 2 ^ 52 ≤ m)
    (high : m < 2 ^ 53) (range : e ≤ 1023) :
    UnpackedFloat.unpack .binary64
      (UnpackedFloat.pack .binary64 (.finite s m (e - 52) hm)) =
      .finite s m (e - 52) hm := by
  have hlog : m.log2 = 52 := (Nat.log2_eq_iff hm.ne').2 ⟨low, high⟩
  have hbias : ((e - 52 : Int) + Format.binary64.exponentBias +
      Format.binary64.mantissaBitsWithoutImplicit).toNat = e + 1023 := by
    show ((e - 52 : Int) + (1023 : Nat) + (52 : Nat)).toNat = e + 1023
    omega
  have hfield : (BitVec.ofNat 11 (e + 1023)).toNat = e + 1023 := by
    rw [BitVec.toNat_ofNat]; omega
  have hmantissa : (1#1 ++ BitVec.ofNat 52 m).toNat = m := by
    rw [BitVec.toNat_append, ← Nat.shiftLeft_add_eq_or_of_lt (BitVec.ofNat 52 m).isLt,
      BitVec.toNat_ofNat, Nat.shiftLeft_eq]
    simp [BitVec.toNat_ofNat]
    omega
  have hfield_ne {v : BitVec 11} (hv : v.toNat ≠ e + 1023) :
      BitVec.ofNat 11 (e + 1023) ≠ v := by
    rintro rfl
    exact hv hfield
  have hnotLast : BitVec.ofNat 11 (e + 1023) ≠ -1#11 := hfield_ne (by
    show 2047 ≠ e + 1023
    omega)
  have hnotFirst : BitVec.ofNat 11 (e + 1023) ≠ 0#11 := hfield_ne (by
    show 0 ≠ e + 1023
    omega)
  rw [UnpackedFloat.pack]
  simp only [hlog, hbias]
  rw [if_neg (by omega), if_pos (by rfl), UnpackedFloat.unpack]
  simp only [unpackMantissa_packComponents, unpackExponent_packComponents,
    unpackSign_packComponents, Sign.ofBitVec_toBitVec]
  have hexponent :
      ((BitVec.ofNat 11 (e + 1023)).toNat : Int) - (Format.binary64.exponentBias +
        Format.binary64.mantissaBitsWithoutImplicit) = e - 52 := by
    rw [hfield]
    show ((e + 1023 : Nat) : Int) - ((1023 : Nat) + (52 : Nat)) = e - 52
    omega
  rw [if_neg hnotLast, if_neg hnotFirst, UnpackedFloat.finite.injEq]
  exact ⟨rfl, hmantissa, hexponent⟩

/-- Packing keeps what stands for a whole number. -/
theorem unpack_pack {u : UnpackedFloat} {z : Int} (h : Stands u z) :
    (Float.Model.pack u).unpack = u := by
  cases h with
  | zero s => cases s <;> rfl
  | finite s m e hm _ low high range _ => exact unpack_pack_finite hm low high range

theorem Stands.neg {u : UnpackedFloat} {z : Int} (h : Stands u z) :
    Stands u.neg (-z) := by
  cases h with
  | zero s => exact .zero _
  | finite s m e hm _ low high range value =>
      refine .finite _ m e hm _ low high range ?_
      rw [Int.neg_mul, value]
      cases s with
      | positive => rfl
      | negative => exact Int.neg_neg _

/-- Of 53 significant bits the value determines the mantissa and the exponent. -/
theorem mul_two_pow_inj {m m' e e' : Nat} (low : 2 ^ 52 ≤ m) (high : m < 2 ^ 53)
    (low' : 2 ^ 52 ≤ m') (high' : m' < 2 ^ 53) (h : m * 2 ^ e = m' * 2 ^ e') :
    m = m' ∧ e = e' := by
  have hlog := (Nat.log2_eq_iff (by omega)).2 ⟨low, high⟩
  have hlog' := (Nat.log2_eq_iff (by omega)).2 ⟨low', high'⟩
  have he : e = e' := by
    have heq := log2_mul_two_pow (n := m) (by omega) e
    rw [h, log2_mul_two_pow (by omega), hlog, hlog'] at heq
    omega
  subst he
  exact ⟨Nat.mul_right_cancel (Nat.two_pow_pos e) h, rfl⟩

theorem sign_apply_inj {s t : Sign} {a b : Nat} (ha : 0 < a) (hb : 0 < b)
    (h : s.apply a = t.apply b) : s = t ∧ a = b := by
  cases s <;> cases t <;> simp only [Sign.apply] at h
  · exact ⟨rfl, by omega⟩
  · omega
  · omega
  · exact ⟨rfl, by omega⟩

/-- Floats that stand for whole numbers are equal when the numbers are. -/
theorem beq_iff_of_stands {u v : UnpackedFloat} {a b : Int} (ha : Stands u a)
    (hb : Stands v b) :
    u.beq v = true ↔ a = b := by
  -- a finite float has a positive mantissa, so only the zeros stand for zero
  have hnonzero {s : Sign} {m e : Nat} {z : Int} (hm : 0 < m)
      (value : z * 2 ^ 52 = s.apply (m * 2 ^ e : Nat)) : z ≠ 0 := by
    rintro rfl
    have := Nat.mul_pos hm (Nat.two_pow_pos e)
    cases s <;> simp only [Sign.apply] at value <;> omega
  rw [beq_iff_ne_notANumber_and_eq]
  cases ha with
  | zero s =>
      cases hb with
      | zero t => cases s <;> cases t <;> simp
      | finite t m e hm _ _ _ _ value => simpa using (hnonzero hm value).symm
  | finite s m e hm _ low high _ value =>
      cases hb with
      | zero t => simpa using hnonzero hm value
      | finite t m' e' hm' _ low' high' _ value' =>
          have hpos := Nat.mul_pos hm (Nat.two_pow_pos e)
          have hpos' := Nat.mul_pos hm' (Nat.two_pow_pos e')
          rw [← Int.mul_eq_mul_right_iff (by decide : (2 : Int) ^ 52 ≠ 0), value, value']
          simp only [UnpackedFloat.finite.injEq, reduceCtorEq, ne_eq, not_false_eq_true,
            true_and, false_and, or_false]
          constructor
          · rintro ⟨rfl, rfl, he⟩
            obtain rfl : e = e' := by omega
            rfl
          · intro h
            obtain ⟨rfl, hvalue⟩ := sign_apply_inj hpos hpos' h
            obtain ⟨rfl, rfl⟩ := mul_two_pow_inj low high low' high' hvalue
            exact ⟨rfl, rfl, rfl⟩

/-! ## 4. Whole numbers as floats -/

/-- A number of at most 53 bits is moved to the left, and nothing is rounded. -/
theorem stands_ofNat_lt {n : Nat} (h : n < 2 ^ 53) :
    Stands (UnpackedFloat.ofNat .binary64 n) n := by
  rcases Nat.eq_zero_or_pos n with rfl | hpos
  · exact .zero .positive
  obtain ⟨j, hj⟩ : ∃ j, n.log2 + j = 52 := ⟨52 - n.log2, by
    have := (Nat.log2_lt hpos.ne').2 h
    omega⟩
  have hcompare : compare (n : Int) 0 = .gt := by
    rw [compare_gt_iff_gt]; omega
  have htarget : Format.binary64.targetExponent (totalExponent n 0) = -j := by
    simp only [Format.targetExponent, totalExponent, Format.mantissaBits,
      Format.minExponent]
    omega
  have hdecrease : decreaseExponent n 0 (-j) = (n * 2 ^ j, (-j : Int)) := by
    rw [decreaseExponent, show ((0 : Int) - -j).toNat = j by omega, Nat.shiftLeft_eq]
    simp
  have hlog : (n * 2 ^ j).log2 = 52 + 0 := by
    rw [log2_mul_two_pow hpos.ne', hj]
  rw [UnpackedFloat.ofNat, UnpackedFloat.ofInt,
      Float.Model.UnpackedFloat.normalize, hcompare]
  simp only [Int.toNat_natCast, Float.Model.UnpackedFloat.round, htarget, hdecrease]
  refine stands_roundWithAccuracy (p := n.log2) ?_ hlog (by omega) (.inr (by omega)) ?_
  · exact Nat.mul_ne_zero hpos.ne' (Nat.two_pow_pos j).ne'
  · rw [steps_zero, Nat.mul_assoc, ← Nat.pow_add, Nat.add_comm j, hj, Sign.apply]
    norm_cast

theorem stands_mul_one {u : UnpackedFloat} {z : Int} (h : Stands u z) :
    Stands (UnpackedFloat.mul .binary64 u
      (.finite .positive (2 ^ 52) (-52) (by decide))) z := by
  cases h with
  | zero s => exact .zero _
  | finite s m e hm _ low high range value =>
      have hlog : (m * 2 ^ 52).log2 = 52 + 52 := by
        rw [log2_mul_two_pow hm.ne', (Nat.log2_eq_iff hm.ne').2 ⟨low, high⟩]
      have hsteps : steps (m * 2 ^ 52) 52 = m := by
        have := steps_mul_two_pow m 0 52
        rwa [steps_zero] at this
      have hsign : s * Sign.positive = s := by cases s <;> rfl
      rw [UnpackedFloat.mul, hsign]
      refine stands_roundWithAccuracy (p := e) (by omega) hlog (by omega) (.inl ?_) ?_
      · exact ⟨by rwa [hsteps], range⟩
      · rw [hsteps, value]

/-- A number of more than 53 bits is rounded to 53. -/
theorem stands_ofScientific {n : Nat} (h : 2 ^ 53 ≤ n) (range : n < 2 ^ 64) :
    Stands (UnpackedFloat.ofScientific .binary64 n 0) (nearest n) := by
  have hn : n ≠ 0 := by omega
  have hlow : 53 ≤ n.log2 := (Nat.le_log2 hn).2 h
  have hhigh : n.log2 < 64 := (Nat.log2_lt hn).2 range
  obtain ⟨k, hk⟩ : ∃ k, n.log2 = 52 + k := ⟨n.log2 - 52, by omega⟩
  have hlog : (n * 2 ^ 53).log2 = 52 + (k + 53) := by
    rw [log2_mul_two_pow hn, hk, Nat.add_assoc]
  have hnotTiny : ¬ (0 : Int) < -((2 ^ Format.binary64.exponentBits : Int) + n.log2) := by
    have : (0 : Int) ≤ 2 ^ Format.binary64.exponentBits := by decide
    omega
  have hshift : n <<< 53 * 10 ^ 0 = n * 2 ^ 53 := by
    rw [Nat.shiftLeft_eq, Nat.pow_zero, Nat.mul_one]
  have hvalue : nearest n * 2 ^ 52 = steps (n * 2 ^ 53) (k + 53) * 2 ^ n.log2 := by
    rw [nearest, steps_mul_two_pow, hk, Nat.add_sub_cancel_left, Nat.add_comm,
      Nat.pow_add, Nat.mul_assoc]
  rw [UnpackedFloat.ofScientific, dif_neg hn, if_neg (by decide), if_neg hnotTiny,
    if_pos le_rfl, UnpackedFloat.mul]
  show Stands
    (roundWithAccuracy .binary64 .positive (n <<< 53 * 10 ^ 0) (-53 + 0) .exact) _
  rw [hshift]
  refine stands_roundWithAccuracy (p := n.log2) (by omega) hlog (by omega)
    (.inr (by omega)) ?_
  rw [← hvalue]
  exact (Int.natCast_mul _ _).symm

theorem ofNat_eq_of_lt {n : Nat} (h : n < 2 ^ 53) :
    Float.ofNat n = n.toUInt64.toFloat * Float.ofBits 0x3FF0000000000000 := by
  have : Float.ofNat n = Float.ofScientific n false 0 := rfl
  rw [this, Float.ofScientific, dif_pos ⟨h, by decide⟩]
  rfl

theorem ofNat_eq_of_ge {n : Nat} (h : 2 ^ 53 ≤ n) :
    Float.ofNat n = ⟨Float.Model.ofScientific n 0⟩ := by
  have : Float.ofNat n = Float.ofScientific n false 0 := rfl
  rw [this, Float.ofScientific, dif_neg (by omega)]
  rfl

theorem stands_ofNat {n : Nat} (h : n < 2 ^ 64) :
    Stands (Float.ofNat n).toModel.unpack (nearest n) := by
  rcases Nat.lt_or_ge n (2 ^ 53) with hlt | hge
  · -- a small number is converted as a machine word and multiplied by one
    have htoNat : n.toUInt64.toNat = n := by simp; omega
    have hfirst := stands_ofNat_lt hlt
    have hone : (Float.ofBits 0x3FF0000000000000).toModel.unpack =
      .finite .positive (2 ^ 52) (-52) (by decide) := rfl
    rw [ofNat_eq_of_lt hlt, nearest_of_lt hlt]
    show Stands (Float.Model.pack (UnpackedFloat.mul .binary64
      (Float.Model.pack (UnpackedFloat.ofNat .binary64 n.toUInt64.toNat)).unpack
      (Float.ofBits 0x3FF0000000000000).toModel.unpack)).unpack n
    have hsecond := stands_mul_one hfirst
    rw [htoNat, hone, unpack_pack hfirst, unpack_pack hsecond]
    exact hsecond
  · have := stands_ofScientific hge h
    rw [ofNat_eq_of_ge hge]
    show Stands (Float.Model.pack _).unpack _
    rw [unpack_pack this]
    exact this

theorem stands_ofInt {z : Int} (h : z.natAbs < 2 ^ 64) :
    Stands (Float.ofInt z).toModel.unpack (nearestInt z) := by
  cases z with
  | ofNat n =>
      rw [Int.ofNat_eq_natCast, nearestInt_natCast]
      exact stands_ofNat (n := n) h
  | negSucc n =>
      have hn := (stands_ofNat (n := n + 1) h).neg
      rw [Int.negSucc_eq, nearestInt_neg, ← Int.natCast_add_one, nearestInt_natCast]
      show Stands (Float.Model.pack (Float.ofNat (n + 1)).toModel.unpack.neg).unpack _
      rw [unpack_pack hn]
      exact hn

/-- **The floats of two whole numbers are equal exactly when the numbers are
rounded to the same one.** -/
theorem ofInt_beq_ofInt_iff {a b : Int} (ha : a.natAbs < 2 ^ 64)
    (hb : b.natAbs < 2 ^ 64) :
    (Float.ofInt a == Float.ofInt b) = true ↔ nearestInt a = nearestInt b :=
  beq_iff_of_stands (stands_ofInt ha) (stands_ofInt hb)

end RowAccess.Rounding
