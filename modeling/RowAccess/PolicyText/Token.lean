/-
RowAccess.PolicyText.Token — the words of a policy.

Each scanner takes its word from the front of the text and returns it with the
text that remains, or `none` if the text starts otherwise.

* `identifier?` — a letter or `_`, then letters, digits, `_` and `.`.
* `quoted?` — a text between double quotes.
-/

namespace RowAccess.PolicyText

/-- Whether a character begins an identifier. Only ASCII letters do. -/
def isIdentifierStart (c : Char) : Bool := c.isAlpha || c = '_'

/-- Whether a character continues an identifier. -/
def isIdentifierRest (c : Char) : Bool := c.isAlphanum || c = '_' || c = '.'

/-- The longest identifier at the front of the text. -/
def identifier? : List Char → Option (String × List Char)
  | [] => none
  | c :: s =>
    if isIdentifierStart c then
      some (String.ofList (c :: s.takeWhile isIdentifierRest),
        s.dropWhile isIdentifierRest)
    else none

/-- What a character stands for behind a backslash. A character without a
meaning of its own there leaves the backslash standing. -/
def unescaped : Char → List Char
  | '"' => ['"']
  | '\\' => ['\\']
  | 'n' => ['\n']
  | 't' => ['\t']
  | c => ['\\', c]

/-- The text up to the closing quote, escapes resolved, and the text after
that quote. -/
def quotedRest? : List Char → Option (List Char × List Char)
  | [] => none
  | '"' :: s => some ([], s)
  | '\\' :: c :: s => (quotedRest? s).map fun (t, rest) => (unescaped c ++ t, rest)
  | c :: s =>
    if c = '\\' then none else (quotedRest? s).map fun (t, rest) => (c :: t, rest)

/-- The text between double quotes at the front. -/
def quoted? : List Char → Option (String × List Char)
  | '"' :: s => (quotedRest? s).map fun (t, rest) => (String.ofList t, rest)
  | _ => none

/-! ## Every word takes something from the text -/

theorem length_lt_of_identifier? {s rest : List Char} {name : String}
    (h : identifier? s = some (name, rest)) : rest.length < s.length := by
  unfold identifier? at h
  split at h
  · simp at h
  · rename_i c s
    split at h
    · simp only [Option.some.injEq, Prod.mk.injEq] at h
      rw [← h.2]
      exact Nat.lt_succ_of_le (List.dropWhile_sublist _).length_le
    · simp at h

theorem length_lt_of_quotedRest? {s t rest : List Char}
    (h : quotedRest? s = some (t, rest)) :
    rest.length < s.length := by
  fun_induction quotedRest? s generalizing t with
  | case1 => simp at h
  | case2 => simp_all
  | case3 c s ih =>
    obtain ⟨⟨u, r⟩, hu, he⟩ := Option.map_eq_some_iff.1 h
    simp only [Prod.mk.injEq] at he
    obtain ⟨-, rfl⟩ := he
    have := ih hu
    simp only [List.length_cons]
    omega
  | case4 => simp at h
  | case5 c s _ _ _ ih =>
    obtain ⟨⟨u, r⟩, hu, he⟩ := Option.map_eq_some_iff.1 h
    simp only [Prod.mk.injEq] at he
    obtain ⟨-, rfl⟩ := he
    have := ih hu
    simp only [List.length_cons]
    omega

theorem length_lt_of_quoted? {s rest : List Char} {t : String}
    (h : quoted? s = some (t, rest)) : rest.length < s.length := by
  unfold quoted? at h
  split at h
  · obtain ⟨⟨u, r⟩, hu, he⟩ := Option.map_eq_some_iff.1 h
    simp only [Prod.mk.injEq] at he
    obtain ⟨-, rfl⟩ := he
    exact Nat.lt_succ_of_lt (length_lt_of_quotedRest? hu)
  · simp at h

end RowAccess.PolicyText
