import Questionnaire.Decimal.Binary64

/-! The values of a TOML document, and the tables into which keys and headers put them. A table
remembers how it came about, because that decides who may still add to it. -/
namespace Questionnaire.Toml
open Decimal

/-- A floating-point number. -/
inductive Float where
  | nan
  | infinity (negative : Bool)
  /-- A written number; its magnitude is infinite if it is too large. -/
  | number (negative : Bool) (magnitude : Binary64)
deriving DecidableEq, Repr

/-- A value without parts. Of dates and times only their being there is kept. -/
inductive Scalar where
  | boolean (value : Bool)
  | integer (value : Int)
  | float (value : Float)
  | string (text : String)
  | dateTime
deriving DecidableEq, Repr

/-- How a table came about. -/
inductive TableKind where
  /-- By its own header. -/
  | defined
  /-- On the way to the header of another table. -/
  | implied
  /-- By a dotted key. -/
  | dotted
  /-- Between braces. -/
  | inline
deriving DecidableEq, Repr

/-- A value of a document. -/
inductive Item where
  | scalar (value : Scalar)
  | array (items : List Item)
  | table (kind : TableKind) (members : List (String × Item))
  /-- Tables with headers of their own, in order. -/
  | tables (list : List (List (String × Item)))

namespace Item
mutual

/-- Whether every value without parts inside an item passes a test. -/
def all (test : Scalar → Bool) : Item → Bool
  | .scalar value => test value
  | .array items => allItems test items
  | .table _ members => allMembers test members
  | .tables list => allTables test list
termination_by structural item => item

/-- Whether every value without parts inside a list of items passes a test. -/
def allItems (test : Scalar → Bool) : List Item → Bool
  | [] => true
  | item :: items => item.all test && allItems test items
termination_by structural items => items

/-- Whether every value without parts inside a table passes a test. -/
def allMembers (test : Scalar → Bool) : List (String × Item) → Bool
  | [] => true
  | (_, item) :: members => item.all test && allMembers test members
termination_by structural members => members

/-- Whether every value without parts inside a list of tables passes a test. -/
def allTables (test : Scalar → Bool) : List (List (String × Item)) → Bool
  | [] => true
  | members :: list => allMembers test members && allTables test list
termination_by structural list => list

end
end Item

/-- The members of a table in the order in which they were added. -/
abbrev Members := List (String × Item)

namespace Members

/-- Whether every value without parts inside a table passes a test. -/
def all (test : Scalar → Bool) (members : Members) : Bool :=
  Item.allMembers test members

/-- Puts an item in the place of the one under a key. -/
def replace (members : Members) (key : String) (item : Item) : Members :=
  members.map fun member => if member.1 = key then (key, item) else member

/-- Changes the table at a path of keys. A table that is missing on the way is made; one that
came about by a header must not be entered by a dotted key, and one between braces by neither.
Of a list of tables the last one is entered. -/
def updateAt (dotted : Bool) (update : TableKind → Members → Option Members) :
    (path : List String) → TableKind → Members → Option Members
  | [], kind, members => update kind members
  | key :: path, _, members =>
    match members.lookup key with
    | none => do
      let kind := if dotted then TableKind.dotted else .implied
      let inner ← updateAt dotted update path kind []
      return members ++ [(key, .table kind inner)]
    | some (.table kind inner) =>
      if kind = .inline ∨ (dotted ∧ kind = .defined) then none
      else do
        let changed ← updateAt dotted update path kind inner
        return members.replace key (.table kind changed)
    | some (.tables list) => do
      let changed ← updateAt dotted update path .defined (← list.getLast?)
      return members.replace key (.tables (list.dropLast ++ [changed]))
    | some _ => none

/-- Puts a value under a new key of a table; a dotted key must come to a table of its own. -/
def addNew (viaDots : Bool) (key : String) (item : Item) (kind : TableKind) (members : Members) :
    Option Members :=
  if viaDots != (kind == .dotted) || (members.lookup key).isSome then none
  else some (members ++ [(key, item)])

/-- Puts a value under a path of keys. -/
def assign (path : List String) (item : Item) (kind : TableKind) (members : Members) :
    Option Members :=
  match path.reverse with
  | [] => none
  | key :: outer => updateAt true (addNew (!outer.isEmpty) key item) outer.reverse kind members

/-- Opens the table that a header names. It may have been implied before, but not defined. -/
def openTable (key : String) (_ : TableKind) (members : Members) : Option Members :=
  match members.lookup key with
  | none => some (members ++ [(key, .table .defined [])])
  | some (.table .implied inner) => some (members.replace key (.table .defined inner))
  | some _ => none

/-- Opens one more table of the list that a header names. -/
def openListed (key : String) (_ : TableKind) (members : Members) : Option Members :=
  match members.lookup key with
  | none => some (members ++ [(key, .tables [[]])])
  | some (.tables list) => some (members.replace key (.tables (list ++ [[]])))
  | some _ => none

end Members
end Questionnaire.Toml
