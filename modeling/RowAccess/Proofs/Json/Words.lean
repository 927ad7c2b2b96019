/-
RowAccess.Proofs.Json.Words — written values and their tokens.

What the writer puts down for a mark, a literal, a string or a number is one token,
whatever stands behind it. Only a number could go on there, with a digit, a point or
the mark of an exponent: in front of anything else it ends (`Stops continuesNumber`).

A string is read piece by piece, and each character is written as one piece. A whole
number is written without zeros in front, as the reader demands. Of a float it is only
assumed that its text is read back. The text has a point or an exponent, so what is
read is not taken for a whole number.

* `tokens_of_token?` — the token at the front, and those of the rest.
* `token?_quoted` — a string is one token.
* `settled_numeral?` — a number is read in front of whatever does not continue it.
* `numeral?_intText`, `number?_wholeNumeral` — a whole number is read as that number.
* `mark_mem_write` — the text of a float has a point or an exponent.
* `ReadsBack`, `exists_token` — a value is one token, which stands for it.
-/
import RowAccess.Json.Reader
import RowAccess.Json.Writer

namespace RowAccess.Json

open Text (digits? digits?_append run_of_digits? keyword?_append Stops stops_cons)

/-! ## 1. One token after the other -/

theorem tokens_nil : tokens [] = [] := by rw [tokens]

/-- The token at the front is followed by those of the rest. -/
theorem tokens_of_token? {s rest : List Char} {t : Token}
    (h : token? s = some (t, rest)) :
    tokens s = t :: tokens rest := by
  cases s with
  | nil => simp [token?] at h
  | cons c s =>
      -- A blank begins no token, so it was not passed over.
      have hblank : ¬isBlank c = true := by
        intro hc
        simp only [isBlank, Bool.or_eq_true, decide_eq_true_eq] at hc
        obtain ((rfl | rfl) | rfl) | rfl := hc <;>
          simp [token?, numeral?, unsigned?, whole?, digits?, Char.isDigit] at h
      rw [tokens, if_neg hblank]
      split
      · simp_all
      · simp_all

section Marks

variable (s : List Char)

@[simp] theorem tokens_openArray : tokens ('[' :: s) = .openArray :: tokens s :=
  tokens_of_token? rfl

@[simp] theorem tokens_closeArray : tokens (']' :: s) = .closeArray :: tokens s :=
  tokens_of_token? rfl

@[simp] theorem tokens_openObject : tokens ('{' :: s) = .openObject :: tokens s :=
  tokens_of_token? rfl

@[simp] theorem tokens_closeObject : tokens ('}' :: s) = .closeObject :: tokens s :=
  tokens_of_token? rfl

@[simp] theorem tokens_comma : tokens (',' :: s) = .comma :: tokens s :=
  tokens_of_token? rfl

@[simp] theorem tokens_colon : tokens (':' :: s) = .colon :: tokens s :=
  tokens_of_token? rfl

@[simp] theorem tokens_null : tokens ("null".toList ++ s) = .null :: tokens s := by
  refine tokens_of_token? ?_
  have h := keyword?_append "ull" s
  simp_all [token?]

@[simp] theorem tokens_bool (b : Bool) :
    tokens ((Value.boolText b).toList ++ s) = .bool b :: tokens s := by
  refine tokens_of_token? ?_
  cases b with
  | true =>
      have h := keyword?_append "rue" s
      simp_all [token?, Value.boolText]
  | false =>
      have h := keyword?_append "alse" s
      simp_all [token?, Value.boolText]

end Marks

/-! ## 2. Strings -/

/-- The digits of a control character give its number back. -/
theorem unit?_control : ∀ n < 0x20,
    unit? '0' '0' (hexDigit (n / 16)) (hexDigit (n % 16)) = some n := by decide

/-- A character is written as one piece, which stands for it. -/
theorem exists_piece (c : Char) : ∃ p,
    (∀ ps, content? (p :: ps) = (content? ps).map (c :: ·)) ∧
    ∀ s, pieces? (escaped c ++ s) =
      (pieces? s).map fun (ps, rest) => (p :: ps, rest) := by
  fun_cases escaped c with
  | case8 c _ _ _ _ _ _ _ hcontrol =>
      -- Its code unit lies below the surrogates and stands for itself.
      refine ⟨.unit c.toNat, fun ps => ?_, fun s => ?_⟩
      · have hscalar : c.toNat < 0xD800 ∨ 0xDFFF < c.toNat := .inl (by omega)
        rw [content?.eq_def]
        simp only [if_pos hscalar, Char.ofNat_toNat]
      · simp [pieces?, unit?_control c.toNat hcontrol]
  | case9 c hquote hbackslash _ _ _ _ _ hcontrol =>
      refine ⟨.char c, fun _ => rfl, fun s => ?_⟩
      have hplain : ¬(c.toNat < 0x20 ∨ c = '\\') := by
        rintro (hc | rfl)
        · exact hcontrol hc
        · exact hbackslash rfl
      rw [List.singleton_append, pieces?]
      · rw [if_neg hplain]
      · exact hquote
      · simp_all
      · simp_all
  | _ => exact ⟨.char _, fun _ => rfl, fun s => by simp [pieces?, letter?]⟩

theorem exists_pieces (s rest : List Char) : ∃ ps,
    content? ps = some s ∧
      pieces? (s.flatMap escaped ++ '"' :: rest) = some (ps, rest) := by
  induction s with
  | nil => exact ⟨[], rfl, by simp [pieces?]⟩
  | cons c s ih =>
      obtain ⟨ps, hcontent, hpieces⟩ := ih
      obtain ⟨p, hp, hread⟩ := exists_piece c
      refine ⟨p :: ps, ?_, ?_⟩
      · rw [hp, hcontent]
        rfl
      · rw [List.flatMap_cons, List.append_assoc, hread, hpieces]
        rfl

/-- A string is one token. -/
theorem token?_quoted (s : String) (rest : List Char) :
    token? (quoted s ++ rest) = some (.string (some s), rest) := by
  obtain ⟨ps, hcontent, hpieces⟩ := exists_pieces s.toList rest
  have hquoted : quoted s ++ rest = '"' :: (s.toList.flatMap escaped ++ '"' :: rest) := by
    simp [quoted]
  rw [hquoted]
  change string? _ = _
  rw [string?, hpieces]
  simp [hcontent]

@[simp] theorem tokens_quoted (s : String) (rest : List Char) :
    tokens (quoted s ++ rest) = .string (some s) :: tokens rest :=
  tokens_of_token? (token?_quoted s rest)

/-! ## 3. Numbers -/

/-- A character that may continue a number. -/
def continuesNumber (c : Char) : Bool := c.isDigit || c == '.' || c == 'e' || c == 'E'

/-- A scanner of a part of a number reads the same in front of a text that does not
continue the number. What it leaves may be nothing: then the part ends there. -/
def Settled {α : Type} (scan : List Char → Option (α × List Char)) : Prop :=
  ∀ {s r more : List Char} {a : α}, scan s = some (a, r) → Stops continuesNumber more →
    scan (s ++ more) = some (a, r ++ more)

theorem settled_digits? : Settled digits? := by
  intro s r more ds h hmore
  obtain ⟨rfl, ⟨hne, hds⟩, hr⟩ := run_of_digits? h
  rw [List.append_assoc]
  refine digits?_append hne hds fun c hc => ?_
  cases r with
  | nil =>
      have hstop := hmore c hc
      simp only [continuesNumber, Bool.or_eq_false_iff] at hstop
      exact hstop.1.1.1
  | cons x r => exact hr c hc

theorem settled_whole? : Settled whole? := by
  intro s r more ds h hmore
  unfold whole? at h
  split at h
  · simp at h
  · rename_i hzero
    rw [whole?, settled_digits? h hmore]
    split
    · rename_i heq
      cases heq
      exact absurd h (hzero _ _ _)
    · rfl

theorem places?_eq_none {s : List Char} (h : s.head? ≠ some '.') :
    places? s = some (none, s) := by
  unfold places?
  split
  · exact absurd rfl h
  · rfl

theorem settled_places? : Settled places? := by
  intro s r more ds h hmore
  by_cases hpoint : s.head? = some '.'
  · obtain ⟨s, rfl⟩ := List.head?_eq_some_iff.mp hpoint
    obtain ⟨⟨ds', r'⟩, hdigits, heq⟩ := Option.map_eq_some_iff.mp h
    cases heq
    rw [List.cons_append, places?, settled_digits? hdigits hmore]
    rfl
  · rw [places?_eq_none hpoint] at h
    cases h
    refine places?_eq_none ?_
    cases s with
    | nil => exact hmore.head_ne (by decide)
    | cons c s => exact hpoint

theorem exponent?_eq_none {s : List Char} (h : ∀ c ∈ s.head?, ¬(c = 'e' ∨ c = 'E')) :
    exponent? s = some (none, s) := by
  cases s with
  | nil => rfl
  | cons c s => rw [exponent?, if_neg (h c rfl)]

theorem exponentSign_append {s : List Char} (hs : s ≠ []) (more : List Char) :
    exponentSign (s ++ more) = ((exponentSign s).1, (exponentSign s).2 ++ more) := by
  fun_cases exponentSign s with
  | case1 => rfl
  | case2 => rfl
  | case3 s hminus hplus =>
      cases s with
      | nil => exact absurd rfl hs
      | cons c s =>
          unfold exponentSign
          split <;> simp_all

theorem settled_exponent? : Settled exponent? := by
  intro s r more ds h hmore
  cases s with
  | nil =>
      cases h
      refine exponent?_eq_none fun c hc => ?_
      have hstop := hmore c hc
      rintro (rfl | rfl) <;> exact absurd hstop (by decide)
  | cons c s =>
      by_cases hmark : c = 'e' ∨ c = 'E'
      · simp only [exponent?, if_pos hmark] at h
        obtain ⟨⟨ds', r'⟩, hdigits, heq⟩ := Option.map_eq_some_iff.mp h
        -- Digits were read, so the sign is not taken from what is appended.
        have hs : s ≠ [] := by
          rintro rfl
          simp [digits?, exponentSign] at hdigits
        simp only [List.cons_append, exponent?, if_pos hmark, exponentSign_append hs more]
        rw [settled_digits? hdigits hmore]
        cases heq
        rfl
      · rw [exponent?, if_neg hmark] at h
        cases h
        rw [List.cons_append, exponent?, if_neg hmark]

theorem settled_unsigned? (negative : Bool) : Settled (unsigned? negative) := by
  intro s r more n h hmore
  unfold unsigned? at h ⊢
  simp only [bind, Option.bind_eq_some_iff, pure] at h
  obtain ⟨⟨w, s₁⟩, hwhole, ⟨p, s₂⟩, hplaces, ⟨e, s₃⟩, hexponent, heq⟩ := h
  cases heq
  simp only [bind, pure]
  rw [settled_whole? hwhole hmore, Option.bind_some, settled_places? hplaces hmore,
    Option.bind_some, settled_exponent? hexponent hmore]
  rfl

theorem numeral?_eq_unsigned? {s : List Char} (h : s.head? ≠ some '-') :
    numeral? s = unsigned? false s := by
  unfold numeral?
  split
  · exact absurd rfl h
  · rfl

/-- **A number ends in front of what does not continue it.** -/
theorem settled_numeral? : Settled numeral? := by
  intro s r more n h hmore
  by_cases hsign : s.head? = some '-'
  · obtain ⟨s, rfl⟩ := List.head?_eq_some_iff.mp hsign
    exact settled_unsigned? true h hmore
  · rw [numeral?_eq_unsigned? hsign] at h
    rw [numeral?_eq_unsigned?, settled_unsigned? false h hmore]
    cases s with
    | nil => simp [unsigned?, whole?, digits?] at h
    | cons c s => exact hsign

/-- A number begins with a sign or a digit, and no other token does. -/
theorem head_of_numeral? {c : Char} {s : List Char} {read : Numeral × List Char}
    (h : numeral? (c :: s) = some read) : c = '-' ∨ c.isDigit = true := by
  by_cases hsign : c = '-'
  · exact .inl hsign
  · rw [numeral?_eq_unsigned? (by simpa using hsign)] at h
    cases hdigit : c.isDigit with
    | true => exact .inr rfl
    | false => simp [unsigned?, whole?, digits?, hdigit] at h

/-- A number is one token. -/
theorem token?_of_numeral? {s rest : List Char} {n : Numeral}
    (h : numeral? s = some (n, rest)) :
    token? s = some (.number n.number?, rest) := by
  cases s with
  | nil => simp [numeral?, unsigned?, whole?, digits?] at h
  | cons c s =>
      have hstart := head_of_numeral? h
      rw [token?.eq_def]
      simp only
      split
      case h_11 => rw [h, Option.map_some]
      all_goals exact absurd hstart (by decide)

/-! ## 4. Whole numbers -/

/-- No zero stands in front of the digits of a number. -/
theorem eq_zero_of_head?_toDigits {m : Nat} (h : (Nat.toDigits 10 m).head? = some '0') :
    m = 0 := by
  by_cases hm : m < 10
  · rw [Nat.toDigits_of_lt_base hm, List.head?_singleton, Option.some.injEq] at h
    exact Nat.digitChar_eq_zero.mp h
  · rw [Nat.toDigits_of_base_le (by decide) (by omega), List.head?_append,
      List.head?_eq_some_head Nat.toDigits_ne_nil, Option.some_or,
      ← List.head?_eq_some_head Nat.toDigits_ne_nil] at h
    have hzero := eq_zero_of_head?_toDigits h
    omega

theorem whole?_toDigits (m : Nat) :
    whole? (Nat.toDigits 10 m) = some (Nat.toDigits 10 m, []) := by
  have hdigits : digits? (Nat.toDigits 10 m ++ []) = some (Nat.toDigits 10 m, []) :=
    digits?_append Nat.toDigits_ne_nil
      (fun c hc => Nat.isDigit_of_mem_toDigits (by decide) (by decide) hc) (by simp)
  rw [List.append_nil] at hdigits
  rw [whole?, hdigits]
  split
  · rename_i heq
    simp only [Option.some.injEq, Prod.mk.injEq] at heq
    have hm := eq_zero_of_head?_toDigits (m := m) (by rw [heq.1]; rfl)
    rw [hm] at heq
    simp at heq
  · rfl

/-- A whole number as written. -/
def wholeNumeral (n : Int) : Numeral :=
  ⟨decide (n < 0), Nat.toDigits 10 n.natAbs, none, none⟩

theorem unsigned?_toDigits (negative : Bool) (m : Nat) :
    unsigned? negative (Nat.toDigits 10 m) =
      some (⟨negative, Nat.toDigits 10 m, none, none⟩, []) := by
  rw [unsigned?, whole?_toDigits]
  rfl

theorem numeral?_intText : ∀ n : Int, numeral? n.repr.toList = some (wholeNumeral n, [])
  | .ofNat m => by
      have hsign : (Nat.toDigits 10 m).head? ≠ some '-' := by
        intro h
        have hdigit :=
          Nat.isDigit_of_mem_toDigits (by decide) (by decide) (List.mem_of_head? h)
        exact absurd hdigit (by decide)
      rw [Int.repr, Nat.repr, String.toList_ofList, numeral?_eq_unsigned? hsign,
          unsigned?_toDigits]
      simp [wholeNumeral]
  | .negSucc m => by
      simp [Int.repr, Nat.repr, numeral?, unsigned?_toDigits, wholeNumeral]

/-- A whole number that 64 bits hold is read as that number. -/
theorem number?_wholeNumeral (n : Int64) :
    (wholeNumeral n.toInt).number? = some (.whole n.toInt) := by
  have hlow := n.le_toInt
  have hhigh := n.toInt_lt
  have hdigits : Nat.ofDigitChars 10 (Nat.toDigits 10 n.toInt.natAbs) 0 =
      n.toInt.natAbs :=
    Nat.ofDigitChars_toDigits (by decide) (by decide)
  simp only [wholeNumeral, Numeral.number?, Option.isNone_none, Bool.and_self, if_true,
    hdigits, decide_eq_true_eq]
  by_cases hneg : n.toInt < 0
  · have hn : -(n.toInt.natAbs : Int) = n.toInt := by omega
    rw [if_pos hneg, if_pos (by omega), hn]
  · have hn : (n.toInt.natAbs : Int) = n.toInt := by omega
    rw [if_neg hneg, if_pos (by rw [UInt64.size]; omega), hn]

/-- It is a whole number of a column, and no float. -/
theorem scalar?_int (n : Int64) :
    scalar? (.number (some (.whole n.toInt))) = some (.int n) := by
  have hmax : n.toInt ≤ Int64.maxValue.toInt := by
    have := n.toInt_lt
    rw [Int64.toInt_maxValue]
    omega
  simp [scalar?, Number.toValue, hmax]

/-! ## 5. Floats -/

/-- The float that a text is read as, if it is a number. -/
def readFloat? (s : List Char) : Option Float :=
  match numeral? s with
  | some (n, []) => n.float?
  | _ => none

theorem eq_of_places?_none {s r : List Char} (h : places? s = some (none, r)) :
    s = r := by
  unfold places? at h
  split at h
  · simp at h
  · simpa using h

theorem eq_of_exponent?_none {s r : List Char} (h : exponent? s = some (none, r)) :
    s = r := by
  unfold exponent? at h
  split at h
  · simpa using h
  · split at h
    · simp at h
    · simpa using h

/-- Without point and exponent a number consists of digits, behind its sign. -/
theorem digits_of_unsigned? {negative : Bool} {s : List Char} {n : Numeral}
    (h : unsigned? negative s = some (n, [])) (hplaces : n.places = none)
    (hexponent : n.exponent = none) : ∀ c ∈ s, c.isDigit = true := by
  unfold unsigned? at h
  simp only [bind, Option.bind_eq_some_iff, pure] at h
  obtain ⟨⟨w, s₁⟩, hw, ⟨p, s₂⟩, hp, ⟨e, s₃⟩, he, heq⟩ := h
  cases heq
  cases hplaces
  cases hexponent
  cases eq_of_exponent?_none he
  cases eq_of_places?_none hp
  unfold whole? at hw
  split at hw
  · simp at hw
  · obtain ⟨rfl, ⟨-, hdigits⟩, -⟩ := run_of_digits? hw
    rwa [List.append_nil]

theorem digits_of_numeral? {s : List Char} {n : Numeral} (h : numeral? s = some (n, []))
    (hplaces : n.places = none) (hexponent : n.exponent = none) :
    ∀ c ∈ s, c = '-' ∨ c.isDigit = true := by
  unfold numeral? at h
  split at h
  · simp only [List.forall_mem_cons]
    exact ⟨.inl trivial, fun c hc => .inr (digits_of_unsigned? h hplaces hexponent c hc)⟩
  · exact fun c hc => .inr (digits_of_unsigned? h hplaces hexponent c hc)

/-- A decimal without exponent has a point, where whole numbers end in `.0`. -/
theorem point_mem_positional (d : Decimal) : '.' ∈ d.positional true := by
  simp only [Decimal.positional]
  split
  · simp
  · split <;> simp

theorem mark_mem_scientific (d : Decimal) : 'e' ∈ d.scientific := by
  have hmark : 'e' ∈ (if 0 ≤ d.leading then ['e', '+'] else ['e', '-']) := by
    split <;> simp
  simp only [Decimal.scientific]
  split <;> simp [hmark]

theorem mark_mem_layout (d : Decimal) :
    '.' ∈ numberStyle.layout d ∨ 'e' ∈ numberStyle.layout d := by
  unfold Decimal.Style.layout
  split
  · exact .inl (point_mem_positional d)
  · exact .inr (mark_mem_scientific d)

/-- **A written float has a point or an exponent.** -/
theorem mark_mem_write (x : Float) :
    '.' ∈ numberStyle.write x ∨ 'e' ∈ numberStyle.write x :=
  (mark_mem_layout _).imp (List.mem_append_right _) (List.mem_append_right _)

/-- NaN and the infinities have no numeral. -/
theorem floatText_of_numeral? {x : Float} {read : Numeral × List Char}
    (h : numeral? (floatText x) = some read) : floatText x = numberStyle.write x := by
  unfold floatText at h ⊢
  split at h
  · simp [numeral?, unsigned?, whole?, digits?, Char.isDigit] at h
  · rw [if_neg ‹_›]

/-- A float that is read back from its text is read as a float. -/
theorem exists_numeral_floatText {x : Float} (h : readFloat? (floatText x) = some x) :
    ∃ n, numeral? (floatText x) = some (n, []) ∧ n.number? = some (.float x) := by
  unfold readFloat? at h
  split at h
  · rename_i n hn
    refine ⟨n, hn, ?_⟩
    have hmark : ¬(n.places.isNone && n.exponent.isNone) = true := by
      simp only [Bool.and_eq_true, Option.isNone_iff_eq_none]
      rintro ⟨hplaces, hexponent⟩
      have hdigits := digits_of_numeral? hn hplaces hexponent
      rw [floatText_of_numeral? hn] at hdigits
      obtain hmark | hmark := mark_mem_write x
      · exact absurd (hdigits _ hmark) (by decide)
      · exact absurd (hdigits _ hmark) (by decide)
    rw [Numeral.number?, if_neg hmark, h, Option.map_some]
  · simp at h

/-! ## 6. Values -/

/-- A float is read back from its text. Other values have no need of it. NaN and the
infinities have no numeral, so they are not read back. -/
def ReadsBack : Value → Prop
  | .float x => readFloat? (floatText x) = some x
  | _ => True

instance : DecidablePred ReadsBack
  | .float x => inferInstanceAs (Decidable (readFloat? (floatText x) = some x))
  | .bool _ | .int _ | .text _ => .isTrue trivial

/-- **A value is written as one token, which stands for it.** -/
theorem exists_token {v : Value} (h : ReadsBack v) : ∃ t, scalar? t = some v ∧
    ∀ more, Stops continuesNumber more →
      tokens (writeValue v ++ more) = t :: tokens more := by
  cases v with
  | bool b => exact ⟨.bool b, rfl, fun more _ => tokens_bool more b⟩
  | int n =>
      refine ⟨_, scalar?_int n, fun more hmore => tokens_of_token? ?_⟩
      rw [← number?_wholeNumeral]
      exact token?_of_numeral? (settled_numeral? (numeral?_intText n.toInt) hmore)
  | float x =>
      obtain ⟨n, hn, hnumber⟩ := exists_numeral_floatText h
      refine ⟨.number (some (.float x)), rfl, fun more hmore => tokens_of_token? ?_⟩
      rw [← hnumber]
      exact token?_of_numeral? (settled_numeral? hn hmore)
  | text s => exact ⟨.string (some s), rfl, fun more _ => tokens_quoted s more⟩

end RowAccess.Json
