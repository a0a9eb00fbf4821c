/-!
The operators of clauses: comparisons by order, membership in a list, tests on text, and quantifiers over the
items of a relation.
-/
namespace RecordQuery.Filter

inductive Comparison where
  | equals
  | greaterThan
  | greaterThanOrEquals
  | lessThan
  | lessThanOrEquals
deriving DecidableEq, Repr

namespace Comparison

/-- Whether the comparison is true of a value that stands in this order to the literal. -/
def admits : Comparison → Ordering → Bool
  | equals, o => o.isEq
  | greaterThan, o => o.isGT
  | greaterThanOrEquals, o => o.isGE
  | lessThan, o => o.isLT
  | lessThanOrEquals, o => o.isLE

/-- Compares a value with a literal of which either may be absent, and which may have no order between them. With
one side absent the comparison is false; with both absent only equality is true. -/
def holds {α : Type} (c : Comparison) (order? : α → α → Option Ordering) :
    Option α → Option α → Bool
  | some value, some literal => (order? value literal).any c.admits
  | none, none => c = equals
  | _, _ => false

end Comparison

/-- Tests on text, by exact characters. -/
inductive TextTest where
  | contains
  | startsWith
  | endsWith
deriving DecidableEq, Repr

/-- Whether `part` stands somewhere in `text`. -/
def occursIn (part : List Char) : List Char → Bool
  | [] => part.isEmpty
  | c :: text => part.isPrefixOf (c :: text) || occursIn part text

def TextTest.holds : TextTest → String → String → Bool
  | contains, text, part => occursIn part.toList text.toList
  | startsWith, text, part => part.toList.isPrefixOf text.toList
  | endsWith, text, part => part.toList.isSuffixOf text.toList

inductive Quantifier where
  | any
  | all
deriving DecidableEq, Repr

/-- Over no items at all, `any` is false and `all` is true. -/
def Quantifier.holds {α : Type} : Quantifier → List α → (α → Bool) → Bool
  | any, items, test => items.any test
  | all, items, test => items.all test

inductive Operator where
  | compare (comparison : Comparison)
  | member
  | text (test : TextTest)
  | quantify (quantifier : Quantifier)
deriving DecidableEq, Repr

namespace Operator

/-- The operators with their names. -/
def names : List (Operator × String) :=
  [(compare .equals, "equals"), (compare .greaterThan, "greaterThan"),
    (compare .greaterThanOrEquals, "greaterThanOrEquals"), (compare .lessThan, "lessThan"),
    (compare .lessThanOrEquals, "lessThanOrEquals"), (member, "in"), (text .contains, "contains"),
    (text .startsWith, "startsWith"), (text .endsWith, "endsWith"), (quantify .any, "any"),
    (quantify .all, "all")]

/-- Second names that are read and never written. -/
def aliases : List (Operator × String) :=
  [(compare .greaterThanOrEquals, "greaterThanOrEqual"), (compare .lessThanOrEquals, "lessThanOrEqual")]

def word (op : Operator) : String :=
  (names.lookup op).getD ""

def ofWord? (word : String) : Option Operator :=
  ((names ++ aliases).find? fun entry => entry.2 = word).map (·.1)

def isComparison : Operator → Bool
  | compare _ => true
  | _ => false

def quantifier? : Operator → Option Quantifier
  | quantify q => some q
  | _ => none

/-- Whether the operator is a comparison that is true of a value in this order to the literal. -/
def admits : Operator → Ordering → Bool
  | compare c, o => c.admits o
  | _, _ => false

/-- Compares as the operator's comparison does; an operator that is no comparison is never true. -/
def holds {α : Type} (op : Operator) (order? : α → α → Option Ordering) (value literal : Option α) :
    Bool :=
  match op with
  | compare c => c.holds order? value literal
  | _ => false

end Operator

end RecordQuery.Filter
