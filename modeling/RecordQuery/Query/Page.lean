/-!
Pages: so many items are passed over, and at most so many are taken. Without a number to take, a default applies,
so that a page is never without bound.
-/
namespace RecordQuery

structure Page where
  skip : Option Nat
  take : Option Nat
deriving DecidableEq, Repr

namespace Page

variable {α : Type}

def defaultTake : Nat := 30

def skipItems (skip : Option Nat) (items : List α) : List α :=
  items.drop (skip.getD 0)

def takeItems (take : Option Nat) (default : Nat) (items : List α) : List α :=
  items.take (take.getD default)

def items (page : Page) (default : Nat) (items : List α) : List α :=
  takeItems page.take default (skipItems page.skip items)

end Page

end RecordQuery
