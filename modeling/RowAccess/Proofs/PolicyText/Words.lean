/-
RowAccess.Proofs.PolicyText.Words — the scanners of a policy and its grammar.

Each scanner takes from the front of a text what the grammar admits there, and
nothing else. Names and runs of digits end where no further character continues
them, so a text that goes on with such a character has another front: this is the
condition on what follows that stands in the statements about them.

* `skipLayout_append`, `exists_layout` — layout is passed over, and nothing else.
* `identifier?_append`, `quoted?_append`, `readValue_append` — words are read as what
  they stand for.
* `isName_of_identifier?`, `writesText_of_quoted?`, `writesValue_of_readValue` — and
  nothing else is.
-/
import RowAccess.Proofs.PolicyText.Grammar

namespace RowAccess.PolicyText

open Text (keyword? keyword?_append keyword?_eq_none digits? digits?_append
  eq_append_of_keyword? Stops takeWhile_append_stop stops_dropWhile)

/-! ## 1. Layout -/

/-- What ends a comment: the end of the text or of a line. -/
def EndsComment (s : List Char) : Prop :=
  s = [] ∨ ∃ lineEnd ∈ [['\n'], ['\r', '\n']], ∃ t, s = lineEnd ++ t

theorem commentRest?_append {body rest : List Char} (hbody : CommentBody body)
    (hrest : EndsComment rest) : commentRest? (body ++ rest) = some rest := by
  induction body with
  | nil =>
      obtain rfl | ⟨lineEnd, hend, t, rfl⟩ := hrest
      · rfl
      · simp only [List.mem_cons, List.not_mem_nil, or_false] at hend
        obtain rfl | rfl := hend <;> simp [commentRest?]
  | cons c body ih =>
      obtain ⟨⟨hn, hr⟩, hbody⟩ := List.forall_mem_cons.mp hbody
      rw [List.cons_append, commentRest?, if_neg hn, if_neg hr, ih hbody]

theorem exists_commentBody {s rest : List Char} (h : commentRest? s = some rest) :
    ∃ body, CommentBody body ∧ EndsComment rest ∧ s = body ++ rest := by
  fun_induction commentRest? s with
  | case1 =>
      cases h
      exact ⟨[], by simp [CommentBody], .inl rfl, rfl⟩
  | case2 s =>
      cases h
      exact ⟨[], by simp [CommentBody], .inr ⟨['\n'], by simp, s, rfl⟩, rfl⟩
  | case3 s hs =>
      cases h
      obtain ⟨t, rfl⟩ := List.head?_eq_some_iff.mp hs
      exact ⟨[], by simp [CommentBody], .inr ⟨['\r', '\n'], by simp, t, rfl⟩, rfl⟩
  | case4 => simp at h
  | case5 c s hn hr ih =>
      obtain ⟨body, hbody, hrest, rfl⟩ := ih h
      exact ⟨c :: body, List.forall_mem_cons.mpr ⟨⟨hn, hr⟩, hbody⟩, hrest, rfl⟩

theorem skipLayout_blank {c : Char} (s : List Char) (hc : isBlank c = true) :
    skipLayout (c :: s) = skipLayout s := by
  rw [skipLayout, if_pos hc]

theorem skipLayout_comment {body rest : List Char} (hbody : CommentBody body)
    (hrest : EndsComment rest) :
    skipLayout ('#' :: (body ++ rest)) = skipLayout rest := by
  have hscan := commentRest?_append hbody hrest
  rw [skipLayout, if_neg (by decide), if_pos rfl]
  split
  · simp_all
  · simp_all

/-- A broken comment is no layout. -/
theorem skipLayout_hash {s : List Char} (h : commentRest? s = none) :
    skipLayout ('#' :: s) = '#' :: s := by
  rw [skipLayout, if_neg (by decide), if_pos rfl]
  split
  · simp_all
  · rfl

theorem skipLayout_lineEnd {lineEnd : List Char} (h : lineEnd ∈ [['\n'], ['\r', '\n']])
    (s : List Char) : skipLayout (lineEnd ++ s) = skipLayout s := by
  simp only [List.mem_cons, List.not_mem_nil, or_false] at h
  obtain rfl | rfl := h <;> simp [skipLayout_blank, isBlank]

/-- **Layout is passed over.** -/
theorem skipLayout_append {l : List Char} (hl : Layout l) (s : List Char) :
    skipLayout (l ++ s) = skipLayout s := by
  induction hl with
  | nil => rfl
  | blank hc _ ih => rw [List.cons_append, skipLayout_blank _ hc, ih]
  | comment hbody hend _ ih =>
      rw [List.cons_append, List.append_assoc, List.append_assoc,
          skipLayout_comment hbody (.inr ⟨_, hend, _, rfl⟩), skipLayout_lineEnd hend, ih]

theorem skipLayout_eq_nil {l : List Char} (hl : FinalLayout l) : skipLayout l = [] := by
  have hnil : skipLayout [] = [] := by rw [skipLayout]
  cases hl with
  | layout hl => simpa [hnil] using skipLayout_append hl []
  | comment hl hbody =>
      rw [skipLayout_append hl, ← List.append_nil (_ :: _), List.cons_append,
          skipLayout_comment hbody (.inl rfl), hnil]

/-- A character with which layout starts. -/
def isLayoutStart (c : Char) : Bool := isBlank c || c == '#'

theorem skipLayout_eq_self {s : List Char} (hs : Stops isLayoutStart s) :
    skipLayout s = s := by
  cases s with
  | nil => rw [skipLayout]
  | cons c s =>
      have hc : isLayoutStart c = false := hs c rfl
      simp only [isLayoutStart, Bool.or_eq_false_iff, beq_eq_false_iff_ne] at hc
      rw [skipLayout, if_neg (by simp [hc.1]), if_neg hc.2]

/-- Layout is passed over up to the next word. -/
theorem skipLayout_append_word {l s : List Char} (hl : Layout l)
    (hs : Stops isLayoutStart s) :
    skipLayout (l ++ s) = s := by
  rw [skipLayout_append hl, skipLayout_eq_self hs]

/-- Layout has been passed over and nothing else, where `rest` is what remains.
Only at the end of a text may it lack a line end. -/
def PassesOver (s rest : List Char) : Prop :=
  ∃ l, s = l ++ rest ∧ (Layout l ∨ rest = [] ∧ FinalLayout l)

theorem PassesOver.append {l s rest : List Char} (hl : Layout l) (h : PassesOver s rest) :
    PassesOver (l ++ s) rest := by
  obtain ⟨l', rfl, hl'⟩ := h
  refine ⟨l ++ l', (List.append_assoc ..).symm, ?_⟩
  obtain hl' | ⟨hrest, hl'⟩ := hl'
  · exact .inl (hl.append hl')
  · exact .inr ⟨hrest, .append hl hl'⟩

/-- **Nothing but layout is passed over.** -/
theorem passesOver_skipLayout : ∀ s : List Char, PassesOver s (skipLayout s)
  | [] => ⟨[], by rw [skipLayout]; rfl, .inl .nil⟩
  | c :: s => by
      by_cases hblank : isBlank c = true
      · rw [skipLayout_blank s hblank]
        exact .append (.blank hblank .nil) (passesOver_skipLayout s)
      · by_cases hcomment : c = '#'
        · subst hcomment
          cases hscan : commentRest? s with
          | none => rw [skipLayout_hash hscan]; exact ⟨[], rfl, .inl .nil⟩
          | some rest =>
              obtain ⟨body, hbody, hrest, hs⟩ := exists_commentBody hscan
              rw [hs, skipLayout_comment hbody hrest]
              obtain rfl | ⟨lineEnd, hend, t, rfl⟩ := hrest
              · rw [skipLayout, List.append_nil]
                exact ⟨'#' :: body, (List.append_nil _).symm,
                  .inr ⟨rfl, .comment .nil hbody⟩⟩
              · rw [skipLayout_lineEnd hend]
                have _hlt : t.length ≤ s.length := by simp [hs]; omega
                have hline :=
                  PassesOver.append (.comment hbody hend .nil) (passesOver_skipLayout t)
                simpa using hline
        · rw [skipLayout_eq_self (by simp [isLayoutStart, hblank, hcomment])]
          exact ⟨[], rfl, .inl .nil⟩
  termination_by s => s.length
  decreasing_by
    · exact Nat.lt_succ_self _
    · exact Nat.lt_succ_of_le _hlt

/-- Where a word follows, what was passed over is layout. -/
theorem exists_layout {s rest : List Char} (h : skipLayout s = rest) (hrest : rest ≠ []) :
    ∃ l, Layout l ∧ s = l ++ rest := by
  subst h
  obtain ⟨l, hs, hl | ⟨hnil, -⟩⟩ := passesOver_skipLayout s
  · exact ⟨l, hl, hs⟩
  · exact absurd hnil hrest

theorem finalLayout_of_skipLayout {s : List Char} (h : skipLayout s = []) :
    FinalLayout s := by
  obtain ⟨l, hs, hl⟩ := passesOver_skipLayout s
  rw [h, List.append_nil] at hs
  subst hs
  obtain hl | ⟨-, hl⟩ := hl
  · exact .layout hl
  · exact hl

/-! ## 2. Names and texts -/

/-- A name that ends where no character continues it is read. -/
theorem identifier?_append {name : String} {r : List Char} (hname : IsName name.toList)
    (hr : Stops isIdentifierRest r) :
    identifier? (name.toList ++ r) = some (name, r) := by
  generalize hw : name.toList = w at hname
  obtain ⟨hc, hs⟩ := hname
  obtain ⟨htake, hdrop⟩ := takeWhile_append_stop hs hr
  rw [List.cons_append, identifier?, if_pos hc, htake, hdrop, ← hw, String.ofList_toList]

/-- What is read as a name is one, as long as it can be. -/
theorem isName_of_identifier? {s rest : List Char} {name : String}
    (h : identifier? s = some (name, rest)) :
    IsName name.toList ∧ Stops isIdentifierRest rest ∧ s = name.toList ++ rest := by
  unfold identifier? at h
  split at h
  · simp at h
  · rename_i c s
    split at h
    · rename_i hc
      simp only [Option.some.injEq, Prod.mk.injEq] at h
      obtain ⟨rfl, rfl⟩ := h
      rw [String.toList_ofList]
      refine ⟨.intro hc fun x hx => ?_, stops_dropWhile _ s, ?_⟩
      · exact List.all_eq_true.mp List.all_takeWhile x hx
      · rw [List.cons_append, List.takeWhile_append_dropWhile]
    · simp at h

theorem Escapes.unescaped {t w : List Char} (h : Escapes t w) (c : Char) :
    Escapes (unescaped c ++ t) ('\\' :: c :: w) := by
  unfold PolicyText.unescaped
  split
  · exact .quote h
  · exact .backslash h
  · exact .newline h
  · exact .tab h
  · exact .other (by simp_all) h

theorem unescaped_of_not_mem {c : Char} (h : c ∉ ['"', '\\', 'n', 't']) :
    unescaped c = ['\\', c] := by
  unfold unescaped
  split <;> simp_all

theorem quotedRest?_append {t w : List Char} (h : Escapes t w) (r : List Char) :
    quotedRest? (w ++ '"' :: r) = some (t, r) := by
  induction h with
  | nil => rfl
  | plain _ hescape _ ih => simp [quotedRest?, hescape, ih]
  | quote _ ih => simp [quotedRest?, unescaped, ih]
  | backslash _ ih => simp [quotedRest?, unescaped, ih]
  | newline _ ih => simp [quotedRest?, unescaped, ih]
  | tab _ ih => simp [quotedRest?, unescaped, ih]
  | other hc _ ih => simp [quotedRest?, unescaped_of_not_mem hc, ih]

theorem exists_escapes {s t rest : List Char} (h : quotedRest? s = some (t, rest)) :
    ∃ w, Escapes t w ∧ s = w ++ '"' :: rest := by
  fun_induction quotedRest? s generalizing t with
  | case1 => simp at h
  | case2 s =>
      cases h
      exact ⟨[], .nil, rfl⟩
  | case3 c s ih =>
      obtain ⟨⟨t', rest'⟩, hread, heq⟩ := Option.map_eq_some_iff.mp h
      cases heq
      obtain ⟨w, hw, rfl⟩ := ih hread
      exact ⟨_, hw.unescaped c, rfl⟩
  | case4 => simp at h
  | case5 c s hquote _ hescape ih =>
      obtain ⟨⟨t', rest'⟩, hread, heq⟩ := Option.map_eq_some_iff.mp h
      cases heq
      obtain ⟨w, hw, rfl⟩ := ih hread
      exact ⟨_, .plain hquote hescape hw, rfl⟩

/-- **A quoted text is read as what it stands for**, whatever follows it. -/
theorem quoted?_append {t : String} {w : List Char} (h : WritesText t w) (r : List Char) :
    quoted? (w ++ r) = some (t, r) := by
  obtain ⟨h⟩ := h
  simp [quoted?, quotedRest?_append h]

theorem writesText_of_quoted? {s rest : List Char} {t : String}
    (h : quoted? s = some (t, rest)) :
    ∃ w, WritesText t w ∧ s = w ++ rest := by
  unfold quoted? at h
  split at h
  · obtain ⟨⟨t', rest'⟩, hread, heq⟩ := Option.map_eq_some_iff.mp h
    cases heq
    obtain ⟨w, hw, rfl⟩ := exists_escapes hread
    exact ⟨_, .intro hw, by simp⟩
  · simp at h

theorem quoted?_eq_none {s : List Char} (h : s.head? ≠ some '"') : quoted? s = none := by
  unfold quoted?
  split
  · simp at h
  · rfl

/-! ## 3. Fields -/

theorem IsName.head_ne {w : List Char} (h : IsName w) (r : List Char) {c : Char}
    (hc : isIdentifierStart c = false) : (w ++ r).head? ≠ some c := by
  obtain ⟨hstart, -⟩ := h
  rintro heq
  cases heq
  simp [hc] at hstart

/-- The name of a field is read, unless a bare name goes on behind it. -/
theorem fieldName?_append {name : String} {w : List Char} (h : WritesField name w)
    {r : List Char} (hr : Stops isIdentifierRest r) :
    fieldName? (w ++ r) = some (name, r) := by
  cases h with
  | quoted h => rw [fieldName?, quoted?_append h, Option.some_or]
  | bare h =>
      rw [fieldName?, quoted?_eq_none (h.head_ne r (by decide)), Option.none_or,
          identifier?_append h hr]

theorem writesField_of_fieldName? {s rest : List Char} {name : String}
    (h : fieldName? s = some (name, rest)) : ∃ w, WritesField name w ∧ s = w ++ rest := by
  unfold fieldName? at h
  cases hquoted : quoted? s with
  | some read =>
      rw [hquoted] at h
      cases h
      obtain ⟨w, hw, hs⟩ := writesText_of_quoted? hquoted
      exact ⟨w, .quoted hw, hs⟩
  | none =>
      rw [hquoted, Option.none_or] at h
      obtain ⟨hname, -, hs⟩ := isName_of_identifier? h
      exact ⟨_, .bare hname, hs⟩

/-! ## 4. Values -/

/-- A character that may continue a numeral. -/
def continuesNumeral (c : Char) : Bool := c.isDigit || c == '.'

theorem stops_isDigit {r : List Char} (hr : Stops continuesNumeral r) :
    Stops Char.isDigit r := by
  intro c hc
  exact (Bool.or_eq_false_iff.mp (hr c hc)).1

theorem digits_of_digits? {s ds rest : List Char} (h : digits? s = some (ds, rest)) :
    Digits ds ∧ s = ds ++ rest := by
  obtain ⟨hs, hds, -⟩ := Text.run_of_digits? h
  exact ⟨hds, hs⟩

/-- Digits without a point are a value just if 64 bits hold their number. -/
theorem whole?_eq_some_iff {negative : Bool} {ds : List Char} {n : Int64} :
    whole? negative ds = some n ↔
      n.toInt = if negative then -(numberOf ds : Int) else numberOf ds := by
  unfold whole? numberOf
  simp only
  generalize
    (if negative then -(Nat.ofDigitChars 10 ds 0 : Int) else Nat.ofDigitChars 10 ds 0) = k
  constructor
  · intro h
    split at h
    · rename_i hk
      rw [Int64.toInt_minValue, Int64.toInt_maxValue] at hk
      rw [← Option.some.inj h, Int64.toInt_ofInt_of_le hk.1 (by omega)]
    · simp at h
  · rintro rfl
    rw [if_pos ⟨n.minValue_le_toInt, n.toInt_le⟩, Int64.ofInt_toInt]

theorem sign_append (negative : Bool) {ds : List Char} (hds : Digits ds) (r : List Char) :
    sign (signText negative ++ (ds ++ r)) = (negative, ds ++ r) := by
  cases negative with
  | true => rfl
  | false =>
      rw [signText, if_neg (by decide), List.nil_append, sign]
      intro s hs
      cases ds with
      | nil => exact hds.1 rfl
      | cons c ds =>
          have hc := hds.2 c (by simp)
          cases hs
          simp at hc

theorem eq_signText_append (s : List Char) : s = signText (sign s).1 ++ (sign s).2 := by
  unfold sign
  split <;> rfl

theorem places?_eq_none {r : List Char} (hr : Stops continuesNumeral r) :
    places? r = none := by
  unfold places?
  split
  · exact absurd rfl (hr.head_ne (by decide))
  · rfl

theorem readNumber_whole {negative : Bool} {ds r : List Char} {n : Int64}
    (hds : Digits ds)
    (hn : n.toInt = if negative then -(numberOf ds : Int) else numberOf ds)
    (hr : Stops continuesNumeral r) :
    readNumber (signText negative ++ (ds ++ r)) = .ok (.int n, r) := by
  unfold readNumber
  rw [sign_append negative hds]
  simp only
  rw [digits?_append hds.1 hds.2 (stops_isDigit hr)]
  simp only
  rw [places?_eq_none hr]
  simp only
  rw [whole?_eq_some_iff.mpr hn]

theorem readNumber_decimal {negative : Bool} {ds places r : List Char} (hds : Digits ds)
    (hplaces : Digits places) (hr : Stops continuesNumeral r) :
    readNumber (signText negative ++ (ds ++ ('.' :: (places ++ r)))) =
      .ok (.float (Decimal.toSignedFloat negative
        ⟨numberOf (ds ++ places), -places.length⟩), r) := by
  unfold readNumber
  rw [sign_append negative hds]
  simp only
  rw [digits?_append hds.1 hds.2 (by simp)]
  simp only
  rw [places?, digits?_append hplaces.1 hplaces.2 (stops_isDigit hr)]
  rfl

/-- What is read as a number is a numeral that stands for it. -/
theorem writesValue_of_readNumber {s rest : List Char} {v : Value}
    (h : readNumber s = .ok (v, rest)) : ∃ w, WritesValue v w ∧ s = w ++ rest := by
  have hsign := eq_signText_append s
  unfold readNumber at h
  generalize sign s = signed at h hsign
  obtain ⟨negative, s'⟩ := signed
  simp only at h hsign
  split at h
  · simp at h
  · rename_i ds s₁ hdigits
    obtain ⟨hds, rfl⟩ := digits_of_digits? hdigits
    split at h
    · rename_i places s₂ hpoint
      cases h
      unfold places? at hpoint
      split at hpoint
      · obtain ⟨hplaces, rfl⟩ := digits_of_digits? hpoint
        exact ⟨_, .decimal hds hplaces, by simp [hsign]⟩
      · simp at hpoint
    · split at h
      · rename_i n hwhole
        cases h
        exact ⟨_, .whole hds (whole?_eq_some_iff.mp hwhole), by simp [hsign]⟩
      · simp at h

/-- What starts with a sign or a digit is no text and no truth value. -/
theorem readValue_number {negative : Bool} {ds : List Char} (hds : Digits ds)
    (r : List Char) :
    readValue (signText negative ++ (ds ++ r)) =
      readNumber (signText negative ++ (ds ++ r)) := by
  have hhead : ∀ c, c ≠ '-' → c.isDigit = false →
      (signText negative ++ (ds ++ r)).head? ≠ some c := by
    intro c hsign hdigit hc
    obtain ⟨hne, hds⟩ := hds
    cases negative with
    | true => exact hsign (by simpa [signText] using hc.symm)
    | false =>
        cases ds with
        | nil => exact hne rfl
        | cons d ds =>
            have hd := hds d (by simp)
            obtain rfl : d = c := by simpa [signText] using hc
            simp [hdigit] at hd
  rw [readValue, quoted?_eq_none (hhead _ (by decide) (by decide))]
  simp only
  rw [keyword?_eq_none (c := 't') (by decide) (hhead _ (by decide) (by decide))]
  simp only
  rw [keyword?_eq_none (c := 'f') (by decide) (hhead _ (by decide) (by decide))]

/-- **A value is read as what its text stands for**, as long as no numeral goes
on behind it. -/
theorem readValue_append {v : Value} {w r : List Char} (h : WritesValue v w)
    (hr : Stops continuesNumeral r) : readValue (w ++ r) = .ok (v, r) := by
  cases h with
  | text h => rw [readValue, quoted?_append h]
  | yes => rw [readValue, quoted?_eq_none (by simp), keyword?_append]
  | no =>
      rw [readValue, quoted?_eq_none (by simp),
          keyword?_eq_none (c := 't') (by decide) (by simp), keyword?_append]
  | whole hds hn =>
      rw [List.append_assoc, readValue_number hds, readNumber_whole hds hn hr]
  | decimal hds hplaces =>
      rw [List.append_assoc, List.append_assoc, List.cons_append, readValue_number hds,
          readNumber_decimal hds hplaces hr]

/-- **What is read as a value stands for it.** -/
theorem writesValue_of_readValue {s rest : List Char} {v : Value}
    (h : readValue s = .ok (v, rest)) : ∃ w, WritesValue v w ∧ s = w ++ rest := by
  unfold readValue at h
  split at h
  · rename_i hquoted
    cases h
    obtain ⟨w, hw, hs⟩ := writesText_of_quoted? hquoted
    exact ⟨w, .text hw, hs⟩
  · split at h
    · rename_i hword
      cases h
      exact ⟨_, .yes, eq_append_of_keyword? hword⟩
    · split at h
      · rename_i hword
        cases h
        exact ⟨_, .no, eq_append_of_keyword? hword⟩
      · exact writesValue_of_readNumber h

end RowAccess.PolicyText
