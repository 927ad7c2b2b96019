/-
RowAccess.Text.Scan — words at the front of a text.

* `keyword?` — a fixed word.
* `digits?` — one or more decimal digits.

Both return what remains behind the word.
-/

namespace RowAccess.Text

/-- The text after a fixed word. -/
def keyword? (word : String) (s : List Char) : Option (List Char) :=
  if word.toList <+: s then some (s.drop word.toList.length) else none

/-- The longest run of decimal digits at the front, if there is any. -/
def digits? (s : List Char) : Option (List Char × List Char) :=
  match s.takeWhile Char.isDigit with
  | [] => none
  | ds => some (ds, s.dropWhile Char.isDigit)

/-- No character that satisfies `p` comes next. -/
def Stops (p : Char → Bool) (s : List Char) : Prop := ∀ c ∈ s.head?, p c = false

@[simp] theorem stops_nil (p : Char → Bool) : Stops p [] := by simp [Stops]

@[simp] theorem stops_cons (p : Char → Bool) (c : Char) (s : List Char) :
    Stops p (c :: s) ↔ p c = false := by simp [Stops]

theorem Stops.head_ne {p : Char → Bool} {s : List Char} (hs : Stops p s) {c : Char}
    (hc : p c = true) : s.head? ≠ some c := by
  intro h
  simp [hs c h] at hc

/-- A run of characters ends where no further character belongs to it. -/
theorem takeWhile_append_stop {p : Char → Bool} {w r : List Char}
    (hw : ∀ c ∈ w, p c = true) (hr : Stops p r) :
    (w ++ r).takeWhile p = w ∧ (w ++ r).dropWhile p = r := by
  rw [List.takeWhile_append_of_pos hw, List.dropWhile_append_of_pos hw]
  cases r with
  | nil => simp
  | cons c r =>
    have hc : p c = false := hr c rfl
    simp [hc]

theorem stops_dropWhile (p : Char → Bool) (s : List Char) : Stops p (s.dropWhile p) := by
  intro c hc
  have h := List.head?_dropWhile_not p s
  simp_all

theorem keyword?_append (word : String) (r : List Char) :
    keyword? word (word.toList ++ r) = some r := by
  simp [keyword?]

theorem keyword?_eq_none {word : String} {c : Char} (hword : word.toList.head? = some c)
    {s : List Char} (hs : s.head? ≠ some c) : keyword? word s = none := by
  rw [keyword?, if_neg]
  rintro ⟨t, rfl⟩
  exact hs (by rw [List.head?_append, hword, Option.some_or])

theorem eq_append_of_keyword? {word : String} {s rest : List Char}
    (h : keyword? word s = some rest) : s = word.toList ++ rest := by
  unfold keyword? at h
  split at h
  · rename_i hp
    rw [← Option.some.inj h]
    exact (List.prefix_iff_eq_append.1 hp).symm
  · simp at h

theorem length_le_of_keyword? {word : String} {s rest : List Char}
    (h : keyword? word s = some rest) : rest.length ≤ s.length := by
  rw [eq_append_of_keyword? h, List.length_append]
  exact Nat.le_add_left _ _

theorem digits?_append {ds r : List Char} (hne : ds ≠ [])
    (hds : ∀ c ∈ ds, c.isDigit = true) (hr : Stops Char.isDigit r) :
    digits? (ds ++ r) = some (ds, r) := by
  obtain ⟨htake, hdrop⟩ := takeWhile_append_stop hds hr
  unfold digits?
  rw [htake, hdrop]
  split
  · exact absurd rfl hne
  · rfl

/-- What is read is the whole run of digits. -/
theorem run_of_digits? {s ds rest : List Char} (h : digits? s = some (ds, rest)) :
    s = ds ++ rest ∧ (ds ≠ [] ∧ ∀ c ∈ ds, c.isDigit = true) ∧
      Stops Char.isDigit rest := by
  unfold digits? at h
  split at h
  · simp at h
  · rename_i hne
    cases h
    exact ⟨List.takeWhile_append_dropWhile.symm,
      ⟨hne, fun c hc => List.all_eq_true.mp List.all_takeWhile c hc⟩, stops_dropWhile _ _⟩

theorem length_lt_of_digits? {s ds rest : List Char} (h : digits? s = some (ds, rest)) :
    rest.length < s.length := by
  obtain ⟨rfl, ⟨hne, -⟩, -⟩ := run_of_digits? h
  have hpos : 0 < ds.length := List.length_pos_iff.2 hne
  rw [List.length_append]
  omega

end RowAccess.Text
