import RecordQuery.Filter.Compile
import RecordQuery.Query.Parameters
import RecordQuery.Sorting.Comparator

/-!
Applying queries to records: filter, sort, skip and take, in that order or step by step. What is selected are rows:
records with their positions in the input, so that equal records stay apart.
-/
namespace RecordQuery

/-- A record with its position in the input. -/
structure Row (ρ : Type) where
  position : Nat
  record : ρ

/-- All records of the input, in its order. -/
def Row.ofList {ρ : Type} (records : List ρ) : List (Row ρ) :=
  records.mapIdx fun position record => ⟨position, record⟩

structure Config where
  defaultTake : Nat
  maxNesting : Nat
deriving DecidableEq, Repr

def Config.default : Config :=
  ⟨Page.defaultTake, Nesting.defaultLimit⟩

structure Engine (ρ : Type) where
  registry : Registry ρ
  config : Config

namespace Engine

variable {ρ : Type}

/-- An empty text asks for nothing, as a missing one does; a blank text is not empty. -/
def asked (text : Option String) : Option String :=
  text.filter fun text => text ≠ ""

def compileFilter (e : Engine ρ) (text : String) : Except QueryError (Filter.Predicate ρ) :=
  Filter.compile e.registry e.config.maxNesting text

def compileOrder (e : Engine ρ) (text : String) : Except QueryError (Sorting.Comparator ρ) :=
  Sorting.compile e.registry text

/-- Compiles the texts of a query, the filter first, and applies nothing. -/
def validate (e : Engine ρ) (filter orderBy : Option String) : Except QueryError Unit := do
  if let some text := asked filter then discard (e.compileFilter text)
  if let some text := asked orderBy then discard (e.compileOrder text)

/-- Keeps the rows that match, in their order. -/
def keep (e : Engine ρ) (filter : Option String) (rows : List (Row ρ)) :
    Except QueryError (List (Row ρ)) :=
  match asked filter with
  | none => .ok rows
  | some text => (e.compileFilter text).map fun test => rows.filter fun row => test row.record

/-- Sorts the rows; ties keep their order. -/
def sort (e : Engine ρ) (orderBy : Option String) (rows : List (Row ρ)) :
    Except QueryError (List (Row ρ)) :=
  match asked orderBy with
  | none => .ok rows
  | some text => (e.compileOrder text).map fun comparator => (comparator.on Row.record).sort rows

def skip (_ : Engine ρ) (skip : Option Nat) (rows : List (Row ρ)) : List (Row ρ) :=
  Page.skipItems skip rows

def take (e : Engine ρ) (take : Option Nat) (rows : List (Row ρ)) : List (Row ρ) :=
  Page.takeItems take e.config.defaultTake rows

/-- Filters, sorts, skips and takes. -/
def run (e : Engine ρ) (p : Parameters) (records : List ρ) : Except QueryError (List (Row ρ)) := do
  let rows ← e.keep p.filter (Row.ofList records)
  let rows ← e.sort p.orderBy rows
  .ok (e.take p.take (e.skip p.skip rows))

end Engine

end RecordQuery
