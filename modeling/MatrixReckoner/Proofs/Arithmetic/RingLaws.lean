import MatrixReckoner.Proofs.Arithmetic.Values

/-!
The laws of a ring for sums, multiples and products of matrices, where no operation overflows.  The
shapes decide for each product of a law by which method it is computed, so a law may join products
by both.

* `DenseMatrix.multiply_assoc`, `DenseMatrix.multiply_add`, `DenseMatrix.add_multiply`,
  `DenseMatrix.scale_multiply`: one law each, over numbers with exact arithmetic.
* `DenseMatrix.multiply_ring_laws`: the laws over bounded integers.
-/

namespace MatrixReckoner.DenseMatrix

section Exact

variable {α R : Type} [Element α] [CommRing R] [Exact α R] {k l m n : ℕ}

include R

/-- Products associate. -/
lemma multiply_assoc (x : Grid α k l) (y : Grid α l m) (z : Grid α m n) :
    Agree (do multiply (← multiply ⟨k, l, x⟩ ⟨l, m, y⟩) ⟨m, n, z⟩)
      (do multiply ⟨k, l, x⟩ (← multiply ⟨l, m, y⟩ ⟨m, n, z⟩)) := by
  have hleft : Computes (x.values * y.values * z.values)
      (do multiply (← multiply ⟨k, l, x⟩ ⟨l, m, y⟩) ⟨m, n, z⟩) :=
    (computes_multiply rfl rfl).bind fun _ hxy => computes_multiply hxy rfl
  have hright : Computes (x.values * (y.values * z.values))
      (do multiply ⟨k, l, x⟩ (← multiply ⟨l, m, y⟩ ⟨m, n, z⟩)) :=
    (computes_multiply rfl rfl).bind fun _ hyz => computes_multiply rfl hyz
  rw [← Matrix.mul_assoc] at hright
  exact hleft.agree hright

/-- Products distribute over the sum of two right operands. -/
lemma multiply_add (x : Grid α k l) (y z : Grid α l m) :
    Agree (do multiply ⟨k, l, x⟩ (← add ⟨l, m, y⟩ ⟨l, m, z⟩))
      (do add (← multiply ⟨k, l, x⟩ ⟨l, m, y⟩) (← multiply ⟨k, l, x⟩ ⟨l, m, z⟩)) := by
  have hleft : Computes (x.values * (y.values + z.values))
      (do multiply ⟨k, l, x⟩ (← add ⟨l, m, y⟩ ⟨l, m, z⟩)) :=
    (computes_add rfl rfl).bind fun _ hyz => computes_multiply rfl hyz
  have hright : Computes (x.values * y.values + x.values * z.values)
      (do add (← multiply ⟨k, l, x⟩ ⟨l, m, y⟩) (← multiply ⟨k, l, x⟩ ⟨l, m, z⟩)) :=
    (computes_multiply rfl rfl).bind fun _ hxy =>
      (computes_multiply rfl rfl).bind fun _ hxz => computes_add hxy hxz
  rw [← Matrix.mul_add] at hright
  exact hleft.agree hright

/-- Products distribute over the sum of two left operands. -/
lemma add_multiply (x y : Grid α k l) (z : Grid α l m) :
    Agree (do multiply (← add ⟨k, l, x⟩ ⟨k, l, y⟩) ⟨l, m, z⟩)
      (do add (← multiply ⟨k, l, x⟩ ⟨l, m, z⟩) (← multiply ⟨k, l, y⟩ ⟨l, m, z⟩)) := by
  have hleft : Computes ((x.values + y.values) * z.values)
      (do multiply (← add ⟨k, l, x⟩ ⟨k, l, y⟩) ⟨l, m, z⟩) :=
    (computes_add rfl rfl).bind fun _ hxy => computes_multiply hxy rfl
  have hright : Computes (x.values * z.values + y.values * z.values)
      (do add (← multiply ⟨k, l, x⟩ ⟨l, m, z⟩) (← multiply ⟨k, l, y⟩ ⟨l, m, z⟩)) :=
    (computes_multiply rfl rfl).bind fun _ hxz =>
      (computes_multiply rfl rfl).bind fun _ hyz => computes_add hxz hyz
  rw [← Matrix.add_mul] at hright
  exact hleft.agree hright

/-- The multiple of a factor makes the multiple of the product. -/
lemma scale_multiply (x : Grid α k l) (y : Grid α l m) (s : α) :
    Agree (do multiply (← scale ⟨k, l, x⟩ s) ⟨l, m, y⟩)
      (do scale (← multiply ⟨k, l, x⟩ ⟨l, m, y⟩) s) := by
  have hleft : Computes ((Exact.value s • x.values) * y.values)
      (do multiply (← scale ⟨k, l, x⟩ s) ⟨l, m, y⟩) :=
    (computes_scale rfl s).bind fun _ hx => computes_multiply hx rfl
  have hright : Computes (Exact.value s • (x.values * y.values))
      (do scale (← multiply ⟨k, l, x⟩ ⟨l, m, y⟩) s) :=
    (computes_multiply rfl rfl).bind fun _ hxy => computes_scale hxy s
  rw [← Matrix.smul_mul] at hright
  exact hleft.agree hright

end Exact

/-- **The ring laws** of bounded integer matrices of any fitting shapes, whichever methods compute
their products: products associate, and they distribute over sums on both sides and over multiples.
Where no operation of the two sides of a law overflows, both are computed and are one matrix. -/
theorem multiply_ring_laws (w : IntWidth) {k l m n : ℕ} :
    (∀ (x : Grid (BoundedInt w) k l) (y : Grid (BoundedInt w) l m) (z : Grid (BoundedInt w) m n),
      Agree (do multiply (← multiply ⟨k, l, x⟩ ⟨l, m, y⟩) ⟨m, n, z⟩)
        (do multiply ⟨k, l, x⟩ (← multiply ⟨l, m, y⟩ ⟨m, n, z⟩))) ∧
    (∀ (x : Grid (BoundedInt w) k l) (y z : Grid (BoundedInt w) l m),
      Agree (do multiply ⟨k, l, x⟩ (← add ⟨l, m, y⟩ ⟨l, m, z⟩))
        (do add (← multiply ⟨k, l, x⟩ ⟨l, m, y⟩) (← multiply ⟨k, l, x⟩ ⟨l, m, z⟩))) ∧
    (∀ (x y : Grid (BoundedInt w) k l) (z : Grid (BoundedInt w) l m),
      Agree (do multiply (← add ⟨k, l, x⟩ ⟨k, l, y⟩) ⟨l, m, z⟩)
        (do add (← multiply ⟨k, l, x⟩ ⟨l, m, z⟩) (← multiply ⟨k, l, y⟩ ⟨l, m, z⟩))) ∧
    ∀ (x : Grid (BoundedInt w) k l) (y : Grid (BoundedInt w) l m) (s : BoundedInt w),
      Agree (do multiply (← scale ⟨k, l, x⟩ s) ⟨l, m, y⟩)
        (do scale (← multiply ⟨k, l, x⟩ ⟨l, m, y⟩) s) :=
  ⟨multiply_assoc, multiply_add, add_multiply, scale_multiply⟩

/-- Strassen's product of two matrices of order two, joined with the classical product by a matrix
of two rows and three columns. -/
theorem multiply_ring_laws_of_two_methods :
    ∃ (x y : Grid (BoundedInt .w32) 2 2) (z : Grid (BoundedInt .w32) 2 3),
      usesStrassen ⟨2, 2, x⟩ ⟨2, 2, y⟩ = true ∧ usesStrassen ⟨2, 2, y⟩ ⟨2, 3, z⟩ = false ∧
      OverflowFree (do multiply (← multiply ⟨2, 2, x⟩ ⟨2, 2, y⟩) ⟨2, 3, z⟩) ∧
      OverflowFree (do multiply ⟨2, 2, x⟩ (← multiply ⟨2, 2, y⟩ ⟨2, 3, z⟩)) ∧
      ∃ c, (do multiply (← multiply ⟨2, 2, x⟩ ⟨2, 2, y⟩) ⟨2, 3, z⟩) = .ok c ∧
        (do multiply ⟨2, 2, x⟩ (← multiply ⟨2, 2, y⟩ ⟨2, 3, z⟩)) = .ok c := by
  let x : Grid (BoundedInt .w32) 2 2 := .ofVector #v[.one, ⟨2, by decide, by decide⟩,
    ⟨-3, by decide, by decide⟩, ⟨4, by decide, by decide⟩]
  let z : Grid (BoundedInt .w32) 2 3 := .ofVector #v[.one, .zero, ⟨5, by decide, by decide⟩,
    ⟨6, by decide, by decide⟩, ⟨-7, by decide, by decide⟩, .one]
  have h : OverflowFree (do multiply (← multiply ⟨2, 2, x⟩ ⟨2, 2, x⟩) ⟨2, 3, z⟩) := fun o => by
    cases o <;> decide +kernel
  have h' : OverflowFree (do multiply ⟨2, 2, x⟩ (← multiply ⟨2, 2, x⟩ ⟨2, 3, z⟩)) := fun o => by
    cases o <;> decide +kernel
  exact ⟨x, x, z, by decide, by decide, h, h', (multiply_ring_laws .w32).1 x x z h h'⟩

end MatrixReckoner.DenseMatrix
