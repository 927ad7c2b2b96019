/-
RowAccess.Json.Token — the words of a JSON text.

A text is divided into tokens as far as it goes; where no token begins, a last
token `malformed` stands for the rest. Two faults of a token show only to a
reader that wants its content: a number beyond the range of floats, and a
string in which half of a surrogate pair stands alone.

* `Token` — marks, literals, numbers and strings.
* `Number` — a whole number of 64 bits, with or without sign, or a float.
* `tokens` — the tokens of a text.
-/
import RowAccess.Decimal.Binary
import RowAccess.Text.Scan

namespace RowAccess.Json

open Text (keyword? digits? length_le_of_keyword? length_lt_of_digits?)

/-- A number of a JSON text. -/
inductive Number where
  /-- At least -2^63 and less than 2^64. -/
  | whole (n : Int)
  | float (x : Float)

/-- A word of a JSON text. -/
inductive Token where
  | openArray
  | closeArray
  | openObject
  | closeObject
  | comma
  | colon
  | null
  | bool (b : Bool)
  /-- A number, or `none` if it lies beyond the range of floats. -/
  | number (n : Option Number)
  /-- A string, or `none` if half of a surrogate pair stands alone in it. -/
  | string (s : Option String)
  /-- No token begins here. -/
  | malformed

/-! ## Numbers -/

/-- The parts of a number as written. -/
structure Numeral where
  negative : Bool
  whole : List Char
  /-- The digits behind the point, if there is one. -/
  places : Option (List Char)
  /-- Whether the exponent is negative, and its digits, if there is one. -/
  exponent : Option (Bool × List Char)

/-- The whole part: a zero stands alone. -/
def whole? (s : List Char) : Option (List Char × List Char) :=
  match digits? s with
  | some ('0' :: _ :: _, _) => none
  | read => read

/-- The part behind the point, if there is a point. After it digits are due. -/
def places? : List Char → Option (Option (List Char) × List Char)
  | '.' :: s => (digits? s).map fun (ds, s) => (some ds, s)
  | s => some (none, s)

/-- The sign of an exponent. -/
def exponentSign : List Char → Bool × List Char
  | '-' :: s => (true, s)
  | '+' :: s => (false, s)
  | s => (false, s)

/-- The exponent, if there is one. After its mark digits are due. -/
def exponent? : List Char → Option (Option (Bool × List Char) × List Char)
  | [] => some (none, [])
  | c :: s =>
    if c = 'e' ∨ c = 'E' then
      let (negative, s) := exponentSign s
      (digits? s).map fun (ds, s) => (some (negative, ds), s)
    else some (none, c :: s)

/-- A number without its sign. -/
def unsigned? (negative : Bool) (s : List Char) : Option (Numeral × List Char) := do
  let (whole, s) ← whole? s
  let (places, s) ← places? s
  let (exponent, s) ← exponent? s
  return (⟨negative, whole, places, exponent⟩, s)

/-- The number at the front of the text. -/
def numeral? : List Char → Option (Numeral × List Char)
  | '-' :: s => unsigned? true s
  | s => unsigned? false s

/-- How many significant digits of a number are told apart. -/
def digitLimit : Nat := 768

namespace Numeral

/-- The power of ten that the exponent of a number adds. -/
def scale (n : Numeral) : Int :=
  match n.exponent with
  | none => 0
  | some (false, ds) => Nat.ofDigitChars 10 ds 0
  | some (true, ds) => -Nat.ofDigitChars 10 ds 0

/-- The digits behind the point, without the zeros at their end. -/
def trimmedPlaces (n : Numeral) : List Char :=
  ((n.places.getD []).reverse.dropWhile (· = '0')).reverse

/-- The significant digits: those from the first that is not zero, without
the zeros at the end of the places. -/
def significant (n : Numeral) : List Char :=
  (n.whole ++ n.trimmedPlaces).dropWhile (· = '0')

/-- The magnitude as far as it is told apart. Of a long number the digits
behind the limit are read as a single `1`. No point half way between two
floats has as many digits, so all they can tell is that such a point is
passed; zeros at the end of a long whole part are taken to tell so, too. -/
def magnitude (n : Numeral) : Decimal :=
  let digits := n.significant
  let exponent := n.scale - n.trimmedPlaces.length
  if digits.length ≤ digitLimit then ⟨Nat.ofDigitChars 10 digits 0, exponent⟩
  else
    ⟨Nat.ofDigitChars 10 (digits.take digitLimit ++ ['1']) 0,
      exponent + (digits.length - (digitLimit + 1) : Nat)⟩

/-- The float nearest to a number, unless that is infinite. -/
def float? (n : Numeral) : Option Float :=
  let x := n.magnitude.toSignedFloat n.negative
  if x.isInf then none else some x

/-- What a number denotes. Without point and exponent it is whole, if 64 bits
hold it. Negative zero is a float. -/
def number? (n : Numeral) : Option Number :=
  if n.places.isNone && n.exponent.isNone then
    let whole := Nat.ofDigitChars 10 n.whole 0
    if n.negative then
      if whole ≠ 0 ∧ whole ≤ 0x8000000000000000 then some (.whole (-whole))
      else n.float?.map .float
    else if whole < UInt64.size then some (.whole whole) else n.float?.map .float
  else n.float?.map .float

end Numeral

/-! ## Strings -/

/-- An element of a string: a character as it stands, or the 16-bit unit of
an escape. -/
inductive Piece where
  | char (c : Char)
  | unit (n : Nat)

/-- The value of a hexadecimal digit of either case. -/
def hexDigit? (c : Char) : Option Nat :=
  if '0' ≤ c ∧ c ≤ '9' then some (c.toNat - '0'.toNat)
  else if 'a' ≤ c ∧ c ≤ 'f' then some (c.toNat - 'a'.toNat + 10)
  else if 'A' ≤ c ∧ c ≤ 'F' then some (c.toNat - 'A'.toNat + 10)
  else none

/-- The unit of four hexadecimal digits. -/
def unit? (a b c d : Char) : Option Nat := do
  return ((← hexDigit? a) * 16 + (← hexDigit? b)) * 256 + (← hexDigit? c) * 16 +
    (← hexDigit? d)

/-- What a single letter stands for behind a backslash. -/
def letter? : Char → Option Char
  | '"' => some '"'
  | '\\' => some '\\'
  | '/' => some '/'
  | 'b' => some '\x08'
  | 'f' => some '\x0c'
  | 'n' => some '\n'
  | 'r' => some '\r'
  | 't' => some '\t'
  | _ => none

/-- The pieces up to the closing quote, and the text after that quote.
Control characters have to be escaped. -/
def pieces? : List Char → Option (List Piece × List Char)
  | [] => none
  | '"' :: s => some ([], s)
  | '\\' :: 'u' :: a :: b :: c :: d :: s =>
    match unit? a b c d with
    | none => none
    | some n => (pieces? s).map fun (ps, rest) => (.unit n :: ps, rest)
  | '\\' :: c :: s =>
    match letter? c with
    | none => none
    | some l => (pieces? s).map fun (ps, rest) => (.char l :: ps, rest)
  | c :: s =>
    if c.toNat < 0x20 ∨ c = '\\' then none
    else (pieces? s).map fun (ps, rest) => (.char c :: ps, rest)

/-- The characters that pieces stand for. Two units that form a surrogate pair
stand for one character; half of a pair stands for none. -/
def content? : List Piece → Option (List Char)
  | [] => some []
  | .char c :: ps => (content? ps).map (c :: ·)
  | .unit n :: ps =>
    if n < 0xD800 ∨ 0xDFFF < n then (content? ps).map (Char.ofNat n :: ·)
    else
      match ps with
      | .unit m :: ps =>
        if n < 0xDC00 ∧ 0xDC00 ≤ m ∧ m ≤ 0xDFFF then
          (content? ps).map
            (Char.ofNat (0x10000 + (n - 0xD800) * 0x400 + (m - 0xDC00)) :: ·)
        else none
      | _ => none

/-! ## Tokens -/

/-- Space, tab, line feed and carriage return. -/
def isBlank (c : Char) : Bool := c = ' ' || c = '\t' || c = '\n' || c = '\r'

/-- The string whose opening quote has been read. -/
def string? (s : List Char) : Option (Token × List Char) :=
  (pieces? s).map fun (ps, rest) => (.string ((content? ps).map String.ofList), rest)

/-- The token at the front of the text. -/
def token? : List Char → Option (Token × List Char)
  | [] => none
  | c :: s =>
    match c with
    | '[' => some (.openArray, s)
    | ']' => some (.closeArray, s)
    | '{' => some (.openObject, s)
    | '}' => some (.closeObject, s)
    | ',' => some (.comma, s)
    | ':' => some (.colon, s)
    | '"' => string? s
    | 'n' => (keyword? "ull" s).map (.null, ·)
    | 't' => (keyword? "rue" s).map (.bool true, ·)
    | 'f' => (keyword? "alse" s).map (.bool false, ·)
    | _ => (numeral? (c :: s)).map fun (n, rest) => (.number n.number?, rest)

/-! ## Every token takes something from the text -/

theorem length_lt_of_pieces? {s rest : List Char} {ps : List Piece}
    (h : pieces? s = some (ps, rest)) : rest.length < s.length := by
  fun_induction pieces? s generalizing ps with
  | case1 => simp at h
  | case2 => simp_all
  | case3 => simp at h
  | case4 a b c d s n _ ih =>
    obtain ⟨⟨qs, r⟩, hq, he⟩ := Option.map_eq_some_iff.1 h
    cases he
    have := ih hq
    simp only [List.length_cons]
    omega
  | case5 => simp at h
  | case6 c s _ l _ ih =>
    obtain ⟨⟨qs, r⟩, hq, he⟩ := Option.map_eq_some_iff.1 h
    cases he
    have := ih hq
    simp only [List.length_cons]
    omega
  | case7 => simp at h
  | case8 c s _ _ _ _ ih =>
    obtain ⟨⟨qs, r⟩, hq, he⟩ := Option.map_eq_some_iff.1 h
    cases he
    have := ih hq
    simp only [List.length_cons]
    omega

theorem length_lt_of_whole? {s rest ds : List Char} (h : whole? s = some (ds, rest)) :
    rest.length < s.length := by
  unfold whole? at h
  split at h
  · simp at h
  · exact length_lt_of_digits? h

theorem length_le_of_places? {s rest : List Char} {ds : Option (List Char)}
    (h : places? s = some (ds, rest)) : rest.length ≤ s.length := by
  unfold places? at h
  split at h
  · obtain ⟨⟨qs, q⟩, hq, he⟩ := Option.map_eq_some_iff.1 h
    cases he
    exact Nat.le_succ_of_le (Nat.le_of_lt (length_lt_of_digits? hq))
  · cases h
    exact Nat.le_refl _

theorem length_exponentSign_le (s : List Char) :
    (exponentSign s).2.length ≤ s.length := by
  unfold exponentSign
  split
  · exact Nat.le_succ _
  · exact Nat.le_succ _
  · exact Nat.le_refl _

theorem length_le_of_exponent? {s rest : List Char} {e : Option (Bool × List Char)}
    (h : exponent? s = some (e, rest)) : rest.length ≤ s.length := by
  unfold exponent? at h
  split at h
  · cases h
    exact Nat.le_refl _
  · rename_i c s
    split at h
    · obtain ⟨⟨ds, r⟩, hdigits, he⟩ := Option.map_eq_some_iff.1 h
      cases he
      have hlt : rest.length < (exponentSign s).2.length := length_lt_of_digits? hdigits
      exact Nat.le_succ_of_le (Nat.le_trans (Nat.le_of_lt hlt) (length_exponentSign_le s))
    · cases h
      exact Nat.le_refl _

theorem length_lt_of_unsigned? {negative : Bool} {s rest : List Char} {n : Numeral}
    (h : unsigned? negative s = some (n, rest)) : rest.length < s.length := by
  unfold unsigned? at h
  simp only [bind, Option.bind_eq_some_iff, pure, Option.some.injEq, Prod.mk.injEq] at h
  obtain ⟨⟨w, s₁⟩, hwhole, ⟨p, s₂⟩, hplaces, ⟨e, s₃⟩, hexponent, -, rfl⟩ := h
  calc s₃.length
    _ ≤ s₂.length := length_le_of_exponent? hexponent
    _ ≤ s₁.length := length_le_of_places? hplaces
    _ < s.length := length_lt_of_whole? hwhole

theorem length_lt_of_numeral? {s rest : List Char} {n : Numeral}
    (h : numeral? s = some (n, rest)) : rest.length < s.length := by
  unfold numeral? at h
  split at h
  · exact Nat.lt_succ_of_lt (length_lt_of_unsigned? h)
  · exact length_lt_of_unsigned? h

theorem length_lt_of_token? {s rest : List Char} {t : Token}
    (h : token? s = some (t, rest)) : rest.length < s.length := by
  unfold token? at h
  split at h
  · simp at h
  · rename_i c s
    have hword : ∀ {w : String} {t' : Token},
        (keyword? w s).map (t', ·) = some (t, rest) → rest.length < (c :: s).length := by
      intro w t' hw
      obtain ⟨r, hr, he⟩ := Option.map_eq_some_iff.1 hw
      cases he
      exact Nat.lt_succ_of_le (length_le_of_keyword? hr)
    split at h
    · cases h; exact Nat.lt_succ_self _
    · cases h; exact Nat.lt_succ_self _
    · cases h; exact Nat.lt_succ_self _
    · cases h; exact Nat.lt_succ_self _
    · cases h; exact Nat.lt_succ_self _
    · cases h; exact Nat.lt_succ_self _
    · unfold string? at h
      obtain ⟨⟨ps, r⟩, hp, he⟩ := Option.map_eq_some_iff.1 h
      cases he
      exact Nat.lt_succ_of_lt (length_lt_of_pieces? hp)
    · exact hword h
    · exact hword h
    · exact hword h
    · obtain ⟨⟨n, r⟩, hn, he⟩ := Option.map_eq_some_iff.1 h
      cases he
      exact length_lt_of_numeral? hn

/-- The tokens of a text. Blanks between tokens are left out. -/
def tokens : List Char → List Token
  | [] => []
  | c :: s =>
    if isBlank c then tokens s
    else
      match _h : token? (c :: s) with
      | none => [.malformed]
      | some (t, rest) => t :: tokens rest
termination_by s => s.length
decreasing_by
  · exact Nat.lt_succ_self _
  · exact length_lt_of_token? _h

end RowAccess.Json
