import MatrixReckoner.Proofs.Expression.Evaluation

/-!
The grammar of expressions, and the tree that a derivation stands for.

* `Primary`, `Powers`, `Term`, `Expr`: the productions of the grammar. Each names the tree that is
  read from its text, and the column where the text begins.
* `usualReading`: a chain of terms with operators between them, products first and equals from left
  to right.
* `Expr.spelled`: a derived text spells its tree.
-/

namespace MatrixReckoner.Expression.Grammar

/-! ### Productions -/

/-- The texts of operators with their right operands, none or more. The operands are of a class of
texts. -/
inductive Tail (R : ℕ → Tree → List Char → Prop) :
    ℕ → List (Operator × Tree) → List Char → Prop where
  | nil {column : ℕ} : Tail R column [] []
  | cons {column : ℕ} {op : Operator} {t : Tree} {ts : List (Operator × Tree)}
      {b b' u v : List Char} : Blanks b → Blanks b' → R (column + b.length + 1 + b'.length) t u →
      Tail R (column + b.length + 1 + b'.length + u.length) ts v →
      Tail R column ((op, t) :: ts) (b ++ op.symbol :: b' ++ u ++ v)

/-- The texts of powers, none or more. The sign of a power is kept by its column. -/
inductive Powers : ℕ → List (ℕ × Exponent) → List Char → Prop where
  | nil {column : ℕ} : Powers column [] []
  | cons {column : ℕ} {e : Exponent} {es : List (ℕ × Exponent)} {b b' w v : List Char} : Blanks b →
      Blanks b' → e.Spelled w → Powers (column + b.length + 1 + b'.length + w.length) es v →
      Powers column ((column + b.length, e) :: es) (b ++ '^' :: b' ++ w ++ v)

/-- A tree raised to one power after another. -/
def raised (t : Tree) (es : List (ℕ × Exponent)) : Tree :=
  es.foldl (fun t p => .power p.1 p.2 t) t

/-- The product that begins with a term, and the operators behind it that are no multiplications,
each with the product to its right. Factors are joined from left to right. -/
def products (t : Tree) : List (Operator × Tree) → Tree × List (Operator × Tree)
  | [] => (t, [])
  | (.mul, r) :: ts => products (.binary .mul t r) ts
  | (op, r) :: ts => (t, (op, (products r ts).1) :: (products r ts).2)

/-- The usual reading of a term and the operators behind it with their terms: products first, then
sums and differences from left to right. -/
def usualReading (t : Tree) (ts : List (Operator × Tree)) : Tree :=
  (products t ts).2.foldl (fun l p => .binary p.1 l p.2) (products t ts).1

mutual

/-- A literal, a number, an identity, or an expression in parentheses. -/
inductive Primary : ℕ → Tree → List Char → Prop where
  | leaf {column : ℕ} {t : Tree} {u : List Char} : t.LeafSpelled u → Primary column t u
  | group {column : ℕ} {t : Tree} {b b' u : List Char} : Blanks b → Blanks b' →
      Expr (column + 1 + b.length) t u → Primary column t ('(' :: b ++ u ++ b' ++ [')'])

/-- A primary with powers. -/
inductive Term : ℕ → Tree → List Char → Prop where
  | powers {column : ℕ} {t : Tree} {es : List (ℕ × Exponent)} {u v : List Char} :
      Primary column t u → Powers (column + u.length) es v → Term column (raised t es) (u ++ v)

/-- Terms with operators between them. -/
inductive Expr : ℕ → Tree → List Char → Prop where
  | chain {column : ℕ} {t : Tree} {ts : List (Operator × Tree)} {u v : List Char} :
      Term column t u → Tail Term (column + u.length) ts v →
      Expr column (usualReading t ts) (u ++ v)

end

/-! ### Derived texts spell their trees -/

/-- A text at a level is one at a lower level. -/
lemma spelled_mono {level level' column : ℕ} {t : Tree} {u : List Char}
    (h : t.Spelled level' column u) (hle : level ≤ level') : t.Spelled level column u := by
  cases h with
  | leaf h => exact .leaf h
  | group hb hb' h => exact .group hb hb' h
  | binary hop hb hb' hl hr => exact .binary (hle.trans hop) hb hb' hl hr
  | power hb hb' h he => exact .power hb hb' h he

/-- Powers behind a text of any level make up a text of any level. -/
lemma raised_spelled {column level : ℕ} {t : Tree} {es : List (ℕ × Exponent)} {u v : List Char}
    (ht : ∀ level, t.Spelled level column u) (hes : Powers (column + u.length) es v) :
    (raised t es).Spelled level column (u ++ v) := by
  generalize hcolumn : column + u.length = column' at hes
  induction hes generalizing t u with
  | nil =>
      rw [List.append_nil]
      exact ht level
  | @cons column' e es b b' w v hb hb' he _ ih =>
      subst hcolumn
      have hpower : ∀ level, (Tree.power (column + u.length + b.length) e t).Spelled level column
          (u ++ b ++ '^' :: b' ++ w) :=
        fun level => .power hb hb' (ht 3) he
      have hlength : column + (u ++ b ++ '^' :: b' ++ w).length =
          column + u.length + b.length + 1 + b'.length + w.length := by
        simp only [List.length_append, List.length_cons]
        omega
      simpa [raised] using ih hpower hlength

/-- A product and the products behind it are spelled where a text of the product's beginning and the
terms behind it stand. -/
lemma products_spelled {column : ℕ} {t : Tree} {ts : List (Operator × Tree)} {u v : List Char}
    (ht : t.Spelled 2 column u)
    (hts : Tail (fun c t u => t.Spelled 3 c u) (column + u.length) ts v) :
    ∃ u' v', u ++ v = u' ++ v' ∧ (products t ts).1.Spelled 2 column u' ∧
      Tail (fun c t u => t.Spelled 2 c u) (column + u'.length) (products t ts).2 v' ∧
      ∀ p ∈ (products t ts).2, p.1.priority = 1 := by
  fun_induction products t ts generalizing column u v with
  | case1 t =>
      cases hts with
      | nil => exact ⟨u, [], rfl, ht, .nil, by simp⟩
  | case2 t r ts ih =>
      cases hts with
      | @cons _ _ _ _ b b' w v hb hb' hr hts =>
          have hproduct : (Tree.binary .mul t r).Spelled 2 column (u ++ b ++ '*' :: b' ++ w) :=
            .binary le_rfl hb hb' ht hr
          have hlength : column + u.length + b.length + 1 + b'.length + w.length =
              column + (u ++ b ++ '*' :: b' ++ w).length := by
            simp only [List.length_append, List.length_cons]
            omega
          rw [hlength] at hts
          obtain ⟨u', v', huv, h⟩ := ih hproduct hts
          exact ⟨u', v', by rw [← huv]; simp [Operator.symbol], h⟩
  | case3 t op r ts hop ih =>
      cases hts with
      | @cons _ _ _ _ b b' w v hb hb' hr hts =>
          obtain ⟨u', v', huv, hproduct, htail, hpriority⟩ := ih (spelled_mono hr (by omega)) hts
          refine ⟨u, b ++ op.symbol :: b' ++ u' ++ v', ?_, ht, .cons hb hb' hproduct htail, ?_⟩
          · simp [huv]
          · intro p hp
            rcases List.mem_cons.mp hp with rfl | hp
            · cases op with
              | mul => exact absurd rfl hop
              | _ => rfl
            · exact hpriority p hp

/-- Sums and differences of products, from left to right. -/
lemma sums_spelled {column : ℕ} {t : Tree} {ts : List (Operator × Tree)} {u v : List Char}
    (ht : t.Spelled 1 column u)
    (hts : Tail (fun c t u => t.Spelled 2 c u) (column + u.length) ts v)
    (hpriority : ∀ p ∈ ts, p.1.priority = 1) :
    (ts.foldl (fun l p => .binary p.1 l p.2) t).Spelled 1 column (u ++ v) := by
  induction ts generalizing t u v with
  | nil =>
      cases hts with
      | nil => simpa using ht
  | cons p ts ih =>
      cases hts with
      | @cons _ op r _ b b' w v hb hb' hr hts =>
          have hop : op.priority = 1 := hpriority (op, r) (by simp)
          have hsum : (Tree.binary op t r).Spelled 1 column (u ++ b ++ op.symbol :: b' ++ w) :=
            .binary hop.ge hb hb' (by rwa [hop]) (by rwa [hop])
          have hlength : column + u.length + b.length + 1 + b'.length + w.length =
              column + (u ++ b ++ op.symbol :: b' ++ w).length := by
            simp only [List.length_append, List.length_cons]
            omega
          rw [hlength] at hts
          simpa using ih hsum hts fun p hp => hpriority p (by simp [hp])

lemma usualReading_spelled {column : ℕ} {t : Tree} {ts : List (Operator × Tree)} {u v : List Char}
    (ht : t.Spelled 2 column u)
    (hts : Tail (fun c t u => t.Spelled 3 c u) (column + u.length) ts v) :
    (usualReading t ts).Spelled 1 column (u ++ v) := by
  obtain ⟨u', v', huv, hproduct, htail, hpriority⟩ := products_spelled ht hts
  rw [huv]
  exact sums_spelled (spelled_mono hproduct (by omega)) htail hpriority

mutual

theorem Primary.spelled {column : ℕ} {t : Tree} {u : List Char} :
    Primary column t u → ∀ level, t.Spelled level column u
  | .leaf h => fun _ => .leaf h
  | .group hb hb' h => fun _ => .group hb hb' h.spelled

theorem Term.spelled {column : ℕ} {t : Tree} {u : List Char} :
    Term column t u → ∀ level, t.Spelled level column u
  | .powers h hes => fun _ => raised_spelled h.spelled hes

/-- A derived text spells its tree. -/
theorem Expr.spelled {column : ℕ} {t : Tree} {u : List Char} :
    Expr column t u → t.Spelled 1 column u
  | .chain h hts => usualReading_spelled (h.spelled 2) (tail_spelled hts)

theorem tail_spelled {column : ℕ} {ts : List (Operator × Tree)} {v : List Char} :
    Tail Term column ts v → Tail (fun c t u => t.Spelled 3 c u) column ts v
  | .nil => .nil
  | .cons hb hb' h hts => .cons hb hb' (h.spelled 3) (tail_spelled hts)

end

end MatrixReckoner.Expression.Grammar
