/-
RowAccess.Proofs.Sql.Formula — the grammar of where clauses: `=` binds
tighter than `not`, `not` tighter than `and`, `and` tighter than `or`.

The precedence is in the shape of the tree. A formula is a disjunction of
conjunctions of factors; a factor is an equality, a negated factor, or a
formula between parentheses:

    formula      ::=  conjunction ("or" conjunction)*
    conjunction  ::=  factor ("and" factor)*
    factor       ::=  name "=" literal  |  "not" factor  |  "(" formula ")"

A formula is a parse of a token list when writing it gives that list
(`Formula.Parses`). `Formula.parses_unique` says that the grammar is
unambiguous: a token list has at most one parse.

All functions on trees are instances of one, `Factor.fold`, and all inductions
instances of one principle, `Factor.induct`: the tree nests lists of lists of
itself, and both see to the nesting once.
-/
import RowAccess.Sql.Dialect

namespace RowAccess.Sql

/-! ## 1. Tokens and trees -/

/-- A literal as it stands in a text: a word, or a string given by its
content. -/
inductive Literal where
  | word (s : String)
  | quoted (s : String)
  deriving DecidableEq

/-- A token of a where clause. Names are given by their content. -/
inductive Token where
  | name (s : String)
  | literal (l : Literal)
  | equals
  | neg
  | conj
  | disj
  | opening
  | closing
  deriving DecidableEq

/-- What conjunctions are made of. -/
inductive Factor (α : Type) where
  | equality (atom : α)
  | negated (f : Factor α)
  | group (alternatives : List (List (Factor α)))

/-- A disjunction of conjunctions of factors. -/
abbrev Formula (α : Type) := List (List (Factor α))

namespace Factor

variable {α β δ : Type}

section Fold

variable (equality : α → δ) (negated : δ → δ) (group : List (List δ) → δ)

mutual

/-- The value of a factor, given the values of its parts. -/
def fold : Factor α → δ
  | .equality a => equality a
  | .negated f => negated f.fold
  | .group ds => group (foldAlternatives ds)

/-- The values of the factors of a conjunction. -/
def foldFactors : List (Factor α) → List δ
  | [] => []
  | f :: fs => f.fold :: foldFactors fs

/-- The values of the factors of a formula. -/
def foldAlternatives : List (List (Factor α)) → List (List δ)
  | [] => []
  | c :: ds => foldFactors c :: foldAlternatives ds

end

theorem foldFactors_eq_map : ∀ fs : List (Factor α),
    foldFactors equality negated group fs = fs.map (fold equality negated group)
  | [] => rfl
  | f :: fs => by rw [foldFactors, foldFactors_eq_map fs, List.map_cons]

theorem foldAlternatives_eq_map : ∀ ds : List (List (Factor α)),
    foldAlternatives equality negated group ds =
      ds.map (·.map (fold equality negated group))
  | [] => rfl
  | c :: ds => by
      rw [foldAlternatives, foldAlternatives_eq_map ds, foldFactors_eq_map, List.map_cons]

theorem fold_group (ds : List (List (Factor α))) :
    (Factor.group ds).fold equality negated group =
      group (ds.map (·.map (fold equality negated group))) := by
  rw [fold, foldAlternatives_eq_map]

end Fold

/-- Induction on factors: what holds of all factors in a group holds of the
group. -/
theorem induct {P : Factor α → Prop} (equality : ∀ a, P (.equality a))
    (negated : ∀ f, P f → P (.negated f))
    (group : ∀ ds, (∀ c ∈ ds, ∀ f ∈ c, P f) → P (.group ds)) : ∀ f, P f
  | .equality a => equality a
  | .negated f => negated f (induct equality negated group f)
  | .group ds => group ds fun c _hc f _hf => induct equality negated group f
  termination_by f => sizeOf f
  decreasing_by
    · simp
    · have hfc := List.sizeOf_lt_of_mem _hf
      have hcd := List.sizeOf_lt_of_mem _hc
      simp only [Factor.group.sizeOf_spec]
      omega

/-- The factor with other atoms. -/
def map (g : α → β) : Factor α → Factor β :=
  fold (fun a => .equality (g a)) .negated .group

/-- The atoms of a factor, from left to right. -/
def atoms : Factor α → List α := fold (fun a => [a]) id fun ds => ds.flatten.flatten

/-- A factor of the grammar: no disjunction or conjunction in it is empty. -/
def Proper : Factor α → Prop :=
  fold (fun _ => True) id fun ds => ds ≠ [] ∧ ∀ c ∈ ds, c ≠ [] ∧ ∀ p ∈ c, p

end Factor

namespace Formula

variable {α β : Type}

/-- The formula with other atoms. -/
def map (g : α → β) (f : Formula α) : Formula β := List.map (List.map (Factor.map g)) f

/-- The atoms of a formula, from left to right. -/
def atoms (f : Formula α) : List α := List.flatMap (List.flatMap Factor.atoms) f

/-- A formula of the grammar: no disjunction or conjunction in it is empty. -/
def Proper (f : Formula α) : Prop := f ≠ [] ∧ ∀ c ∈ f, c ≠ [] ∧ ∀ x ∈ c, x.Proper

end Formula

namespace Factor

variable {α β : Type}

@[simp] theorem map_equality (g : α → β) (a : α) :
    (Factor.equality a).map g = .equality (g a) := rfl

@[simp] theorem map_negated (g : α → β) (f : Factor α) :
    f.negated.map g = (f.map g).negated := rfl

@[simp] theorem map_group (g : α → β) (ds : Formula α) :
    (Factor.group ds).map g = .group (ds.map g) := fold_group ..

@[simp] theorem atoms_equality (a : α) : (Factor.equality a).atoms = [a] := rfl

@[simp] theorem atoms_negated (f : Factor α) : f.negated.atoms = f.atoms := rfl

@[simp] theorem atoms_group (ds : Formula α) : (Factor.group ds).atoms = ds.atoms := by
  rw [atoms, fold_group, List.flatten_flatten]
  simp only [Formula.atoms, List.flatMap_def, List.map_map, Function.comp_def]
  rfl

@[simp] theorem proper_equality (a : α) : (Factor.equality a).Proper := trivial

@[simp] theorem proper_negated (f : Factor α) : f.negated.Proper ↔ f.Proper := Iff.rfl

@[simp] theorem proper_group (ds : Formula α) : (Factor.group ds).Proper ↔ ds.Proper := by
  rw [Proper, fold_group]
  simp only [Formula.Proper, List.map_eq_nil_iff, List.forall_mem_map, ne_eq, Proper]

end Factor

/-! ## 2. Writing trees -/

/-- How the marks of formulas are written in an alphabet. -/
structure Marks (γ : Type) where
  neg : List γ
  conj : List γ
  disj : List γ
  opening : List γ
  closing : List γ

section Written

variable {α γ : Type} (m : Marks γ) (atom : α → List γ)

/-- A factor written with marks and atoms. -/
def Factor.written : Factor α → List γ :=
  fold atom (m.neg ++ ·) fun ds =>
    m.opening ++ m.disj.intercalate (ds.map m.conj.intercalate) ++ m.closing

/-- A conjunction written with marks and atoms. -/
def writtenConjunction (c : List (Factor α)) : List γ :=
  m.conj.intercalate (c.map (Factor.written m atom))

/-- A formula written with marks and atoms. -/
def Formula.written (f : Formula α) : List γ :=
  m.disj.intercalate (List.map (writtenConjunction m atom) f)

@[simp] theorem Factor.written_equality (a : α) :
    (Factor.equality a).written m atom = atom a := rfl

@[simp] theorem Factor.written_negated (f : Factor α) :
    f.negated.written m atom = m.neg ++ f.written m atom := rfl

@[simp] theorem Factor.written_group (ds : Formula α) :
    (Factor.group ds).written m atom = m.opening ++ ds.written m atom ++ m.closing := by
  rw [written, fold_group, List.map_map]
  rfl

end Written

/-- The marks as tokens. -/
def tokenMarks : Marks Token := ⟨[.neg], [.conj], [.disj], [.opening], [.closing]⟩

/-- The tokens of an equality between a name and a literal. -/
def equalityTokens (a : String × Literal) : List Token :=
  [.name a.1, .equals, .literal a.2]

/-- The tokens of a factor. -/
def Factor.tokens : Factor (String × Literal) → List Token :=
  Factor.written tokenMarks equalityTokens

/-- The tokens of a formula. -/
def Formula.tokens : Formula (String × Literal) → List Token :=
  Formula.written tokenMarks equalityTokens

@[simp] theorem Factor.tokens_equality (a : String × Literal) :
    (Factor.equality a).tokens = [.name a.1, .equals, .literal a.2] := rfl

@[simp] theorem Factor.tokens_negated (f : Factor (String × Literal)) :
    f.negated.tokens = .neg :: f.tokens := rfl

@[simp] theorem Factor.tokens_group (ds : Formula (String × Literal)) :
    (Factor.group ds).tokens = .opening :: (ds.tokens ++ [.closing]) :=
  Factor.written_group tokenMarks equalityTokens ds

/-- `f` is a parse of a token list. No token at all is read as the conjunction
of nothing. -/
def Formula.Parses (f : Formula (String × Literal)) (ts : List Token) : Prop :=
  f.tokens = ts ∧ (f.Proper ∨ f = [[]])

/-! ## 3. The grammar is unambiguous -/

/-- Two sequences with a separator between their members are the same when
they start the same text, provided that members can be told apart at the start
of a text and that neither sequence goes on behind its end. `stops` says what
may stand behind a member. -/
theorem intercalate_cancel {ι : Type} (w : ι → List Token) (ok : ι → Prop) (sep : Token)
    (stops : List Token → Prop) (hsep : ∀ r, stops (sep :: r)) :
    ∀ (xs ys : List ι) (r r' : List Token),
      (∀ x ∈ xs, ∀ y, ok y → ∀ r r', stops r → stops r' → w x ++ r = w y ++ r' →
        x = y ∧ r = r') →
      xs ≠ [] → ys ≠ [] → (∀ y ∈ ys, ok y) →
      stops r → stops r' → r.head? ≠ some sep → r'.head? ≠ some sep →
      [sep].intercalate (xs.map w) ++ r = [sep].intercalate (ys.map w) ++ r' →
        xs = ys ∧ r = r'
  | [], _, _, _, _, hxs, _, _, _, _, _, _, _ => absurd rfl hxs
  | _ :: _, [], _, _, _, _, hys, _, _, _, _, _, _ => absurd rfl hys
  | [x], [y], r, r', hcancel, _, _, hok, hr, hr', _, _, h => by
      simp only [List.map_cons, List.map_nil, List.intercalate_singleton] at h
      obtain ⟨rfl, hrest⟩ := hcancel x (by simp) y (hok y (by simp)) r r' hr hr' h
      exact ⟨rfl, hrest⟩
  | [x], y :: y' :: ys, r, r', hcancel, _, _, hok, hr, _, hend, _, h => by
      simp only [List.map_cons, List.map_nil, List.intercalate_singleton,
        List.intercalate_cons_cons, List.append_assoc, List.singleton_append] at h
      obtain ⟨-, hrest⟩ := hcancel x (by simp) y (hok y (by simp)) _ _ hr (hsep _) h
      exact absurd (by simp [hrest]) hend
  | x :: x' :: xs, [y], r, r', hcancel, _, _, hok, _, hr', _, hend', h => by
      simp only [List.map_cons, List.map_nil, List.intercalate_singleton,
        List.intercalate_cons_cons, List.append_assoc, List.singleton_append] at h
      obtain ⟨-, hrest⟩ := hcancel x (by simp) y (hok y (by simp)) _ _ (hsep _) hr' h
      exact absurd (by simp [← hrest]) hend'
  | x :: x' :: xs, y :: y' :: ys, r, r', hcancel, _, _, hok, hr, hr', hend, hend', h => by
      simp only [List.map_cons, List.intercalate_cons_cons, List.append_assoc,
        List.singleton_append] at h
      obtain ⟨rfl, hrest⟩ :=
        hcancel x (by simp) y (hok y (by simp)) _ _ (hsep _) (hsep _) h
      obtain ⟨hxs, hr⟩ :=
        intercalate_cancel w ok sep stops hsep (x' :: xs) (y' :: ys) r r'
        (fun z hz => hcancel z (List.mem_cons_of_mem _ hz)) (by simp) (by simp)
        (fun z hz => hok z (List.mem_cons_of_mem _ hz)) hr hr' hend hend'
        (by simpa using hrest)
      exact ⟨by rw [hxs], hr⟩

/-- A sequence whose first member is not empty is not empty. -/
theorem intercalate_ne_nil {sep x : List Token} {xs : List (List Token)} (hx : x ≠ []) :
    sep.intercalate (x :: xs) ≠ [] := by
  cases xs <;> simp [hx]

/-- A factor is told apart from every other at the start of a text. -/
def Factor.Cancels (f : Factor (String × Literal)) : Prop :=
  ∀ (g : Factor (String × Literal)) (r r' : List Token), g.Proper →
    f.tokens ++ r = g.tokens ++ r' → f = g ∧ r = r'

/-- Formulas whose factors are told apart are told apart themselves, up to
where neither `and` nor `or` goes on. -/
theorem Formula.tokens_cancel {f g : Formula (String × Literal)} {r r' : List Token}
    (hf : f.Proper) (hg : g.Proper) (hcancels : ∀ c ∈ f, ∀ x ∈ c, x.Cancels)
    (hr : r.head? ≠ some .conj ∧ r.head? ≠ some .disj)
    (hr' : r'.head? ≠ some .conj ∧ r'.head? ≠ some .disj)
    (h : f.tokens ++ r = g.tokens ++ r') : f = g ∧ r = r' := by
  refine intercalate_cancel (writtenConjunction tokenMarks equalityTokens)
    (fun c => c ≠ [] ∧ ∀ x ∈ c, x.Proper) .disj (fun r => r.head? ≠ some .conj) (by simp)
    f g r r' ?_ hf.1 hg.1 hg.2 hr.1 hr'.1 hr.2 hr'.2 h
  intro c hc d hd s s' hs hs' hcd
  exact intercalate_cancel Factor.tokens Factor.Proper .conj (fun _ => True)
    (fun _ => trivial) c d s s'
    (fun x hx y hy t t' _ _ hxy => hcancels c hc x hx y t t' hy hxy)
    (hf.2 c hc).1 hd.1 hd.2 trivial trivial hs hs' hcd

theorem Factor.cancels (f : Factor (String × Literal)) : f.Proper → f.Cancels := by
  induction f using Factor.induct with
  | equality a =>
      intro _ g r r' hg h
      cases g with
      | equality b =>
          simp only [tokens_equality, List.cons_append, List.nil_append, List.cons.injEq,
            Token.name.injEq, Token.literal.injEq, true_and] at h
          obtain ⟨hname, hliteral, hrest⟩ := h
          exact ⟨congrArg Factor.equality (Prod.ext hname hliteral), hrest⟩
      | negated g => simp at h
      | group es => simp at h
  | negated f ih =>
      intro hf g r r' hg h
      cases g with
      | equality b => simp at h
      | negated g =>
          obtain ⟨rfl, hrest⟩ := ih hf g r r' hg (by simpa using h)
          exact ⟨rfl, hrest⟩
      | group es => simp at h
  | group ds ih =>
      intro hf g r r' hg h
      rw [proper_group] at hf
      cases g with
      | equality b => simp at h
      | negated g => simp at h
      | group es =>
          rw [proper_group] at hg
          have hcancels : ∀ c ∈ ds, ∀ x ∈ c, x.Cancels :=
            fun c hc x hx => ih c hc x hx ((hf.2 c hc).2 x hx)
          have htokens : Formula.tokens ds ++ .closing :: r =
              Formula.tokens es ++ .closing :: r' := by
            simpa using h
          obtain ⟨rfl, hrest⟩ :=
            Formula.tokens_cancel hf hg hcancels (by simp) (by simp) htokens
          exact ⟨rfl, (List.cons.inj hrest).2⟩

/-- A formula of the grammar is written with at least one token. -/
theorem Formula.tokens_ne_nil :
    ∀ {f : Formula (String × Literal)}, f.Proper → f.tokens ≠ []
  | [], hf => absurd rfl hf.1
  | [] :: _, hf => absurd rfl (hf.2 [] (by simp)).1
  | (x :: c) :: ds, _ => by
      have hx : x.tokens ≠ [] := by cases x <;> simp
      have hc : writtenConjunction tokenMarks equalityTokens (x :: c) ≠ [] :=
        intercalate_ne_nil hx
      exact intercalate_ne_nil hc

/-- **The grammar is unambiguous**: a token list has at most one parse. -/
theorem Formula.parses_unique {f g : Formula (String × Literal)} {ts : List Token}
    (hf : f.Parses ts) (hg : g.Parses ts) : f = g := by
  obtain ⟨hfts, hf | rfl⟩ := hf <;> obtain ⟨hgts, hg | rfl⟩ := hg
  · have h : f.tokens ++ [] = g.tokens ++ [] := by rw [hfts, hgts]
    exact (Formula.tokens_cancel hf hg
      (fun c hc x hx => x.cancels ((hf.2 c hc).2 x hx)) (by simp) (by simp) h).1
  · exact absurd (hfts.trans hgts.symm) (Formula.tokens_ne_nil hf)
  · exact absurd (hgts.trans hfts.symm) (Formula.tokens_ne_nil hg)
  · rfl

/-! ## 4. A tree is known by its shape and its atoms -/

section

variable {α β : Type}

/-- Two lists with members of the same shapes are the same when they start the
same text, provided that this holds of their members. -/
theorem flatMap_cancel {ι μ γ : Type} (shape : ι → μ) (w : ι → List γ) :
    ∀ (xs ys : List ι) (r r' : List γ),
      (∀ x ∈ xs, ∀ y r r', shape x = shape y → w x ++ r = w y ++ r' → x = y ∧ r = r') →
      xs.map shape = ys.map shape → xs.flatMap w ++ r = ys.flatMap w ++ r' →
        xs = ys ∧ r = r'
  | [], [], _, _, _, _, h => ⟨rfl, by simpa using h⟩
  | [], _ :: _, _, _, _, hshape, _ => by simp at hshape
  | _ :: _, [], _, _, _, hshape, _ => by simp at hshape
  | x :: xs, y :: ys, r, r', hcancel, hshape, h => by
      rw [List.map_cons, List.map_cons, List.cons.injEq] at hshape
      rw [List.flatMap_cons, List.flatMap_cons, List.append_assoc, List.append_assoc] at h
      obtain ⟨rfl, hrest⟩ := hcancel x (by simp) y _ _ hshape.1 h
      obtain ⟨rfl, hr⟩ := flatMap_cancel shape w xs ys r r'
        (fun z hz => hcancel z (List.mem_cons_of_mem _ hz)) hshape.2 hrest
      exact ⟨rfl, hr⟩

theorem Formula.atoms_cancel (g : α → β) {f f' : Formula α} {r r' : List α}
    (hcancels : ∀ c ∈ f, ∀ x ∈ c, ∀ y r r', x.map g = y.map g →
      x.atoms ++ r = y.atoms ++ r' → x = y ∧ r = r')
    (hshape : f.map g = f'.map g) (h : f.atoms ++ r = f'.atoms ++ r') :
    f = f' ∧ r = r' := by
  refine flatMap_cancel (List.map (Factor.map g)) (List.flatMap Factor.atoms) f f' r r' ?_
    hshape h
  intro c hc d s s' hcd hs
  exact flatMap_cancel (Factor.map g) Factor.atoms c d s s' (hcancels c hc) hcd hs

theorem Factor.atoms_cancel (g : α → β) (f : Factor α) :
    ∀ (f' : Factor α) (r r' : List α),
    f.map g = f'.map g → f.atoms ++ r = f'.atoms ++ r' → f = f' ∧ r = r' := by
  induction f using Factor.induct with
  | equality a =>
      intro f' r r' hshape h
      cases f' with
      | equality b =>
          obtain ⟨rfl, hr⟩ := List.cons.inj h
          exact ⟨rfl, hr⟩
      | negated f' => cases hshape
      | group es => simp at hshape
  | negated f ih =>
      intro f' r r' hshape h
      cases f' with
      | equality b => cases hshape
      | negated f' =>
          obtain ⟨rfl, hr⟩ := ih f' r r' (by simpa using hshape) h
          exact ⟨rfl, hr⟩
      | group es => simp at hshape
  | group ds ih =>
      intro f' r r' hshape h
      cases f' with
      | equality b => simp at hshape
      | negated f' => simp at hshape
      | group es =>
          rw [map_group, map_group, Factor.group.injEq] at hshape
          rw [atoms_group, atoms_group] at h
          obtain ⟨rfl, hr⟩ := Formula.atoms_cancel g ih hshape h
          exact ⟨rfl, hr⟩

/-- Formulas that differ in their atoms at most are the same if they have the
same atoms. -/
theorem Formula.eq_of_map_eq (g : α → β) {f f' : Formula α} (hshape : f.map g = f'.map g)
    (hatoms : f.atoms = f'.atoms) : f = f' :=
  (Formula.atoms_cancel g (fun _ _ x _ => x.atoms_cancel g) hshape
    (congrArg (· ++ []) hatoms)).1

end

end RowAccess.Sql
