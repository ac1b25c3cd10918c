namespace GcRoots
namespace Scenario

/-!
# Scenario values

Scenarios arrive and answers leave as JSON documents. A `Value` is such a document: null,
a boolean, a number, a string, an array, or an object with its fields in order.

Numbers come in two kinds, as a reader of the text sees them. A number written with digits
only, which a 64-bit word holds, is an integer; every other number is a real. Steps read only
integers, so a field written as `16.0` or `1e3` is never taken for one.

Answers are built from the small constructors below (`Value.nat`, `Value.fields`, …), so that
the shape of each answer is written once where it is decided.
-/

/-- A JSON document. -/
inductive Value where
  | null
  | bool (b : Bool)
  /-- A number written as an integer, which an unsigned or a signed 64-bit word holds. -/
  | int (n : Int)
  /-- Any other number: `mantissa * 10 ^ exponent`. -/
  | real (mantissa : Int) (exponent : Int)
  | str (s : String)
  | arr (items : List Value)
  | obj (fields : List (String × Value))
  deriving Repr, Inhabited

namespace Value

/-- A natural number. -/
def nat (n : Nat) : Value := .int n

/-- A natural number, or null. -/
def natOrNull : Option Nat → Value
  | some n => .nat n
  | none => .null

/-- An object address: null for the null object. -/
def object (obj : Nat) : Value := if obj = 0 then .null else .nat obj

/-- The value of field `k` of an object. -/
def field? (v : Value) (k : String) : Option Value :=
  match v with
  | .obj fs => (fs.find? fun p => p.1 == k).map Prod.snd
  | _ => none

/-- The value of field `k` when it is given: a null field counts as absent. -/
def given? (v : Value) (k : String) : Option Value :=
  match v.field? k with
  | some .null => none
  | x => x

/-- The integer, when the value is one. -/
def int? : Value → Option Int
  | .int n => some n
  | _ => none

mutual
/-- The number of nodes of a document; it bounds how deeply steps can nest. -/
def size : Value → Nat
  | .arr xs => 1 + sizeOfItems xs
  | .obj fs => 1 + sizeOfFields fs
  | _ => 1

/-- The number of nodes of a list of documents. -/
def sizeOfItems : List Value → Nat
  | [] => 0
  | x :: xs => x.size + sizeOfItems xs

/-- The number of nodes of the values of a list of fields. -/
def sizeOfFields : List (String × Value) → Nat
  | [] => 0
  | (_, v) :: fs => v.size + sizeOfFields fs
end

end Value

end Scenario
end GcRoots
