import GcRoots.Scenario.Value
import GcRoots.Text

namespace GcRoots
namespace Scenario

/-!
# Writing JSON text

`Value.print` writes a document as compact JSON text: no blanks, fields in the order the
document holds them. Inside a string, the quote, the backslash and the control characters are
escaped, with the short escapes where JSON has one; every other character is written as it is.
A real is written as its mantissa and its power of ten.
-/

namespace Value

/-- The text of one character inside a JSON string. -/
def stringChar (c : Char) : String :=
  match c with
  | '"' => "\\\""
  | '\\' => "\\\\"
  | '\n' => "\\n"
  | '\r' => "\\r"
  | '\t' => "\\t"
  | '\x08' => "\\b"
  | '\x0c' => "\\f"
  | c =>
    if c.toNat < 0x20 then
      "\\u00" ++ (if c.toNat < 0x10 then "0" else "") ++ Text.hexDigits c.toNat
    else String.singleton c

/-- Appends a string, as a JSON string literal, to `out`. -/
def putString (out : String) (s : String) : String :=
  s.foldl (fun acc c => acc ++ stringChar c) (out ++ "\"") ++ "\""

mutual
/-- Appends the compact JSON text of a document to `out`. Each piece is appended once to the
one growing text, so the work is proportional to the length of the result. -/
def putValue (out : String) : Value → String
  | .null => out ++ "null"
  | .bool true => out ++ "true"
  | .bool false => out ++ "false"
  | .int n => out ++ toString n
  | .real m e => out ++ toString m ++ "e" ++ toString e
  | .str s => putString out s
  | .arr xs => putItems (out ++ "[") true xs ++ "]"
  | .obj fs => putFields (out ++ "\x7b") true fs ++ "\x7d"

/-- Appends the elements of an array to `out`, separated by commas; `first` says that none
has been written yet. -/
def putItems (out : String) (first : Bool) : List Value → String
  | [] => out
  | x :: xs => putItems (putValue (if first then out else out ++ ",") x) false xs

/-- Appends the fields of an object to `out`, separated by commas; `first` says that none has
been written yet. -/
def putFields (out : String) (first : Bool) : List (String × Value) → String
  | [] => out
  | (k, v) :: fs =>
    putFields (putValue (putString (if first then out else out ++ ",") k ++ ":") v) false fs
end

/-- The compact JSON text of a document. -/
def print (v : Value) : String := putValue "" v

end Value

end Scenario
end GcRoots
