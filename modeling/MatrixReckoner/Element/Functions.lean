import MatrixReckoner.Element.Basic

/-!
Common functions on entries.

* `EntryFunction`, `EntryFunction.apply`: functions of one entry;
* `EntryCombination`, `EntryCombination.apply`: functions of two.
-/

namespace MatrixReckoner

/-- A function of one entry. -/
inductive EntryFunction where
  | id
  | double
  | square
  | neg
  | inc
  | dec
  | zero
  deriving DecidableEq, Repr

namespace EntryFunction

variable {α : Type} [Element α]

/-- The value of the function. -/
def apply : EntryFunction → α → Except Overflow α
  | id, x => .ok x
  | double, x => Element.add x x
  | square, x => Element.mul x x
  | neg, x => Element.neg x
  | inc, x => Element.add x Element.one
  | dec, x => Element.sub x Element.one
  | zero, _ => .ok Element.zero

end EntryFunction

/-- A function of two entries. -/
inductive EntryCombination where
  | add
  /-- The first entry subtracted from the second. -/
  | subFrom
  | mul
  | first
  | second
  /-- The second entry if it is below the first, and the first otherwise. -/
  | min
  deriving DecidableEq, Repr

namespace EntryCombination

variable {α : Type} [Element α]

/-- The value of the function. -/
def apply : EntryCombination → α → α → Except Overflow α
  | add, x, y => Element.add x y
  | subFrom, x, y => Element.sub y x
  | mul, x, y => Element.mul x y
  | first, x, _ => .ok x
  | second, _, y => .ok y
  | min, x, y => .ok (if Element.lt y x then y else x)

end EntryCombination

end MatrixReckoner
