import MatrixReckoner.Element.Basic
import MatrixReckoner.Grid.Blocks

/-!
Products, determinants and adjugates of grids.  The classical product adds multiples of the rows of
the right operand into a running row; Strassen's product of two grids of order `2 ^ e` makes seven
half-size products from sums and differences of the quarters.  Determinants and adjugates are
expanded into minors, which have their order by type.

* `Grid.identity`: ones on the diagonal, zeros elsewhere;
* `Grid.add`, `Grid.sub`, `Grid.scale`: sums, differences and multiples entry by entry;
* `Grid.product`: the classical product;
* `Grid.strassen`: Strassen's product;
* `Grid.IsSide`: the orders that can be halved down to single entries;
* `Grid.det`: the determinant, expanded along the first row;
* `Grid.cofactor`, `Grid.adjugate`: signed minors and their transposed grid.
-/

namespace MatrixReckoner

variable {α : Type} [Element α]

namespace Grid

variable {m k n : Nat}

open Element (zero one)

/-! ### Entry by entry -/

/-- The square grid with ones on the diagonal and zeros elsewhere. -/
def identity (n : Nat) : Grid α n n :=
  ofFn fun i j => if i = j then one else zero

/-- The sum entry by entry. -/
def add (a b : Grid α m n) : Except Overflow (Grid α m n) :=
  zipM Element.add a b

/-- The difference entry by entry. -/
def sub (a b : Grid α m n) : Except Overflow (Grid α m n) :=
  zipM Element.sub a b

/-- Every entry times `s`. -/
def scale (a : Grid α m n) (s : α) : Except Overflow (Grid α m n) :=
  a.mapM (Element.mul · s)

/-! ### The classical product -/

/-- The running row `acc` with `x` times `row` added. -/
def addMultiple (acc : Vector α n) (x : α) (row : Vector α n) : Except Overflow (Vector α n) :=
  Vector.ofFnM fun j => do Element.add (acc.get j) (← Element.mul x (row.get j))

/-- One row of the product: the rows of `b` times the entries of `row`, added from the top. -/
def rowProduct (row : Vector α k) (b : Grid α k n) : Except Overflow (Vector α n) :=
  (List.finRange k).foldlM (fun acc p => addMultiple acc (row.get p) (b.row p))
    (Vector.replicate n zero)

/-- The classical product, computed row after row. -/
def product (a : Grid α m k) (b : Grid α k n) : Except Overflow (Grid α m n) :=
  Grid.mk <$> Vector.ofFnM fun i => rowProduct (a.row i) b

/-! ### Strassen's product -/

/-- The order of a grid that can be halved `e` times, down to a single entry. -/
def side : Nat → Nat
  | 0 => 1
  | e + 1 => side e + side e

/-- Strassen's product.  The seven half-size products are made in the order of the identities

* `p₁ = a(f - h)`, `p₂ = (a + b)h`, `p₃ = (c + d)e`, `p₄ = d(g - e)`,
* `p₅ = (a + d)(e + h)`, `p₆ = (b - d)(g + h)`, `p₇ = (a - c)(e + f)`,

where `a b c d` and `e f g h` are the quarters of the operands. -/
def strassen : (e : Nat) → Grid α (side e) (side e) → Grid α (side e) (side e) →
    Except Overflow (Grid α (side e) (side e))
  | 0, x, y => x.scale (y.entry ⟨0, Nat.one_pos⟩ ⟨0, Nat.one_pos⟩)
  | k + 1, x, y => do
    let ⟨a, b, c, d⟩ := x.quadrants
    let ⟨e, f, g, h⟩ := y.quadrants
    let p₁ ← strassen k a (← f.sub h)
    let p₂ ← strassen k (← a.add b) h
    let p₃ ← strassen k (← c.add d) e
    let p₄ ← strassen k d (← g.sub e)
    let p₅ ← strassen k (← a.add d) (← e.add h)
    let p₆ ← strassen k (← b.sub d) (← g.add h)
    let p₇ ← strassen k (← a.sub c) (← e.add f)
    let topLeft ← (← (← p₅.add p₄).sub p₂).add p₆
    let topRight ← p₁.add p₂
    let bottomLeft ← p₃.add p₄
    let bottomRight ← (← (← p₁.add p₅).sub p₃).sub p₇
    return Quadrants.join ⟨topLeft, topRight, bottomLeft, bottomRight⟩

/-- Whether a square grid of order `n` can be halved down to single entries. -/
def IsSide (n : Nat) : Prop :=
  side n.log2 = n

instance (n : Nat) : Decidable (IsSide n) :=
  inferInstanceAs (Decidable (side n.log2 = n))

/-! ### Expansion into minors -/

/-- The determinant.  Orders up to two have a formula of their own; a larger grid is expanded along
its first row, with the sign of a term applied before it is added. -/
def det : {n : Nat} → Grid α n n → Except Overflow α
  | 0, _ => .ok one
  | 1, g => .ok (g.entry 0 0)
  | 2, g => do
    Element.sub (← Element.mul (g.entry 0 0) (g.entry 1 1))
      (← Element.mul (g.entry 0 1) (g.entry 1 0))
  | n + 3, g =>
    (List.finRange (n + 3)).foldlM
      (fun sum j => do
        let term ← Element.mul (g.entry 0 j) (← det (g.minor 0 j))
        Element.add sum (← if j.val % 2 = 0 then .ok term else Element.neg term))
      zero

/-- The minor of row `i` and column `j` with its sign.  A minor with a negative sign is subtracted
from zero, so that a zero minor stays the zero of additions. -/
def cofactor (g : Grid α (n + 1) (n + 1)) (i j : Fin (n + 1)) : Except Overflow α := do
  let minor ← (g.minor i j).det
  if (i.val + j.val) % 2 = 0 then .ok minor else Element.sub zero minor

/-- The transposed grid of the cofactors, which are computed row after row. -/
def adjugate : {n : Nat} → Grid α n n → Except Overflow (Grid α n n)
  | 0, g => .ok g
  | _ + 1, g => transpose <$> tabulate g.cofactor

end Grid

end MatrixReckoner
