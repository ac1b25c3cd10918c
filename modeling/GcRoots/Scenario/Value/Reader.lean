import GcRoots.Scenario.Value

namespace GcRoots
namespace Scenario

/-!
# Reading JSON text

`Value.read` reads a JSON text into a document, or says why the text is not one and where
reading stopped, as a line and a byte column.

A number written with digits only, after an optional minus sign, is an integer when a 64-bit
word holds it: an unsigned word for a number that is not negative, a signed word for a negative
one. Every other number, negative zero among them, is a real. A real keeps the leading digits
that fit an unsigned word and the power of ten that scales them; one whose double would be
infinite is refused. Object fields are kept in the order of their names, and a name given twice
keeps its last value. Arrays and objects nest at most 127 deep.

A failure is reported at the byte just after the last byte read, or at the byte that could not
be read: `Reader.Stop` records the text left and how many bytes past its start the position
lies.
-/

/-- Why a text is not a JSON document. -/
inductive ReadError where
  | eofInValue
  | eofInString
  | eofInList
  | eofInObject
  | expectedColon
  | expectedListCommaOrEnd
  | expectedObjectCommaOrEnd
  | expectedIdent
  | expectedValue
  | invalidEscape
  | invalidNumber
  | numberOutOfRange
  | keyMustBeString
  | trailingCharacters
  | trailingComma
  | recursionLimit
  | loneLeadingSurrogate
  | unexpectedEndOfHexEscape
  | controlCharacter
  deriving DecidableEq, Repr

/-- The text of a reading failure. -/
def ReadError.message : ReadError → String
  | .eofInValue => "EOF while parsing a value"
  | .eofInString => "EOF while parsing a string"
  | .eofInList => "EOF while parsing a list"
  | .eofInObject => "EOF while parsing an object"
  | .expectedColon => "expected `:`"
  | .expectedListCommaOrEnd => "expected `,` or `]`"
  | .expectedObjectCommaOrEnd => "expected `,` or `\x7d`"
  | .expectedIdent => "expected ident"
  | .expectedValue => "expected value"
  | .invalidEscape => "invalid escape"
  | .invalidNumber => "invalid number"
  | .numberOutOfRange => "number out of range"
  | .keyMustBeString => "key must be a string"
  | .trailingCharacters => "trailing characters"
  | .trailingComma => "trailing comma"
  | .recursionLimit => "recursion limit exceeded"
  | .loneLeadingSurrogate => "lone leading surrogate in hex escape"
  | .unexpectedEndOfHexEscape => "unexpected end of hex escape"
  | .controlCharacter => "control character (\\u0000-\\u001F) found while parsing a string"

namespace Reader

/-- Where reading stopped: the reason, the text not yet consumed, and how many bytes past the
start of that text the reported position lies. -/
structure Stop where
  reason : ReadError
  rest : List Char
  ahead : Nat := 0

/-- Stops after the last character read. -/
def stopAt (reason : ReadError) (rest : List Char) : Stop := ⟨reason, rest, 0⟩

/-- Stops at the next character, which could not be read. -/
def stopBefore (reason : ReadError) (rest : List Char) : Stop := ⟨reason, rest, 1⟩

/-- A reading step: what was read and the text after it, or where reading stopped. -/
abbrev Reading (α : Type) := Except Stop (α × List Char)

/-- The number of bytes of a text. -/
def byteLength (cs : List Char) : Nat :=
  cs.foldl (fun n c => n + c.utf8Size) 0

/-- JSON's blanks: space, tab, line feed and carriage return. -/
def isBlank (c : Char) : Bool :=
  c = ' ' || c = '\t' || c = '\n' || c = '\r'

/-- The text after its leading blanks. -/
def skipBlank : List Char → List Char
  | [] => []
  | c :: r => if isBlank c then skipBlank r else c :: r

/-- Reads the letters of a literal that follow its first one. -/
def readLetters : List Char → List Char → Except Stop (List Char)
  | [], cs => .ok cs
  | _ :: _, [] => .error (stopAt .eofInValue [])
  | w :: ws, c :: cs => if c = w then readLetters ws cs else .error (stopAt .expectedIdent cs)

/-! ## Numbers -/

/-- The largest unsigned 64-bit word. -/
def wordMax : Nat := Nat.pow 2 64 - 1

/-- The largest signed 32-bit word, the bound of a written exponent. -/
def exponentMax : Nat := Nat.pow 2 31 - 1

/-- The value of a decimal digit. -/
def digitValue (c : Char) : Nat := c.toNat - '0'.toNat

/-- A number as read so far: the leading digits that fit a word, the power of ten that scales
them, and whether an integer digit was left out. -/
structure Digits where
  significand : Nat
  exponent : Int := 0
  clipped : Bool := false

/-- Reads the digits of the integer part after the first. A digit joins the significand while
the significand fits a word; from the first that does not, each digit scales the number by ten. -/
def integerDigits (d : Digits) : List Char → Digits × List Char
  | [] => (d, [])
  | c :: r =>
    if c.isDigit then
      if d.clipped || wordMax < d.significand * 10 + digitValue c then
        integerDigits { d with exponent := d.exponent + 1, clipped := true } r
      else integerDigits { d with significand := d.significand * 10 + digitValue c } r
    else (d, c :: r)

/-- Reads the digits of a fraction. A digit joins the significand while the significand fits
a word; from the first that does not, the digits are skipped. -/
def fractionDigits (d : Digits) (skipping : Bool) : List Char → Digits × List Char
  | [] => (d, [])
  | c :: r =>
    if c.isDigit then
      if skipping || wordMax < d.significand * 10 + digitValue c then fractionDigits d true r
      else
        fractionDigits
          { d with significand := d.significand * 10 + digitValue c, exponent := d.exponent - 1 }
          false r
    else (d, c :: r)

/-- Reads the digits of an exponent after the first: the exponent and the text after it, or,
once the exponent passes the bound, the text after the digit that passed it. -/
def exponentDigits (e : Nat) : List Char → (Nat × List Char) ⊕ List Char
  | [] => .inl (e, [])
  | c :: r =>
    if c.isDigit then
      if exponentMax < e * 10 + digitValue c then .inr r
      else exponentDigits (e * 10 + digitValue c) r
    else .inl (e, c :: r)

/-- The text after its leading digits. -/
def skipDigits : List Char → List Char
  | [] => []
  | c :: r => if c.isDigit then skipDigits r else c :: r

/-- The double nearest to a natural number, ties to the even one. -/
def nearestDouble (n : Nat) : Nat :=
  if n < Nat.pow 2 53 then n
  else
    let k := Nat.log2 n - 52
    let q := n / Nat.pow 2 k
    let r := n % Nat.pow 2 k
    let half := Nat.pow 2 (k - 1)
    (if half < r || (r == half && q % 2 == 1) then q + 1 else q) * Nat.pow 2 k

/-- Whether a real's double is infinite: its significand and its power of ten, each taken as a
double, multiply to a product that rounds past the largest double. Tables of doubles hold the
powers of ten up to 308; a larger power of a nonzero significand is infinite at once. -/
def overflows (d : Digits) : Bool :=
  d.significand != 0 && 0 ≤ d.exponent &&
    (308 < d.exponent ||
      Nat.pow 2 1024 - Nat.pow 2 970 ≤
        nearestDouble d.significand * nearestDouble (Nat.pow 10 d.exponent.toNat))

/-- The sign of a number applied to a magnitude. -/
def signed (negative : Bool) (n : Nat) : Int := if negative then -(n : Int) else n

/-- A real from its digits, refused when its double is infinite. -/
def realOf (negative : Bool) (d : Digits) (rest : List Char) : Reading Value :=
  if overflows d then .error (stopAt .numberOutOfRange rest)
  else .ok (.real (signed negative d.significand) d.exponent, rest)

/-- Reads an exponent after its letter. -/
def readExponent (negative : Bool) (d : Digits) (cs : List Char) : Reading Value :=
  let (up, r) := match cs with
    | '+' :: t => (true, t)
    | '-' :: t => (false, t)
    | _ => (true, cs)
  match r with
  | [] => .error (stopAt .eofInValue [])
  | c :: r' =>
    if !c.isDigit then .error (stopAt .invalidNumber r')
    else
      match exponentDigits (digitValue c) r' with
      | .inr after =>
        if d.significand != 0 && up then .error (stopAt .numberOutOfRange after)
        else .ok (.real 0 0, skipDigits after)
      | .inl (e, rest) =>
        realOf negative { d with exponent := if up then d.exponent + e else d.exponent - e } rest

/-- Reads what follows the integer part of a number: a fraction, an exponent, or nothing. A
number with neither is an integer when its word holds it. -/
def afterInteger (negative : Bool) (d : Digits) (cs : List Char) : Reading Value :=
  match cs with
  | '.' :: r =>
    match r with
    | [] => .error (stopBefore .eofInValue [])
    | c :: r' =>
      if !c.isDigit then .error (stopBefore .invalidNumber (c :: r'))
      else
        match fractionDigits d false r with
        | (d', 'e' :: t) => readExponent negative d' t
        | (d', 'E' :: t) => readExponent negative d' t
        | (d', rest) => realOf negative d' rest
  | 'e' :: r => readExponent negative d r
  | 'E' :: r => readExponent negative d r
  | _ =>
    if d.clipped then realOf negative d cs
    else if !negative then .ok (.int d.significand, cs)
    else if d.significand == 0 || Nat.pow 2 63 < d.significand then realOf negative d cs
    else .ok (.int (-(d.significand : Int)), cs)

/-- Reads a number after its sign. A leading zero stands alone. -/
def readNumber (negative : Bool) : List Char → Reading Value
  | [] => .error (stopAt .eofInValue [])
  | c :: r =>
    if c = '0' then
      match r with
      | d :: _ =>
        if d.isDigit then .error (stopBefore .invalidNumber r)
        else afterInteger negative { significand := 0 } r
      | [] => afterInteger negative { significand := 0 } []
    else if c.isDigit then
      let (d, rest) := integerDigits { significand := digitValue c } r
      afterInteger negative d rest
    else .error (stopAt .invalidNumber r)

/-! ## Strings -/

/-- The value of a hexadecimal digit. -/
def hexValue? (c : Char) : Option Nat :=
  if c.isDigit then some (digitValue c)
  else if 'a' ≤ c && c ≤ 'f' then some (c.toNat - 'a'.toNat + 10)
  else if 'A' ≤ c && c ≤ 'F' then some (c.toNat - 'A'.toNat + 10)
  else none

/-- Reads the four hexadecimal digits of an escape. They take the next four bytes of the text;
when those are not all digits, the position is after the four bytes. -/
def hexEscape (cs : List Char) : Except Stop (Nat × List Char) :=
  if byteLength (cs.take 4) < 4 then .error (stopAt .eofInString [])
  else
    match cs with
    | a :: b :: c :: d :: r =>
      match hexValue? a, hexValue? b, hexValue? c, hexValue? d with
      | some w, some x, some y, some z => .ok (((w * 16 + x) * 16 + y) * 16 + z, r)
      | _, _, _, _ => .error ⟨.invalidEscape, cs, 4⟩
    | _ => .error ⟨.invalidEscape, cs, 4⟩

/-- Whether a code unit is a trailing surrogate. -/
def isTrailingSurrogate (n : Nat) : Bool := 0xDC00 ≤ n && n ≤ 0xDFFF

/-- Whether a code unit is a leading surrogate. -/
def isLeadingSurrogate (n : Nat) : Bool := 0xD800 ≤ n && n ≤ 0xDBFF

/-- Reads a unicode escape after its `u`. A leading surrogate must be followed by an escaped
trailing one, and the pair names one character; a surrogate on its own is refused. -/
def unicodeEscape (cs : List Char) : Except Stop (Char × List Char) :=
  match hexEscape cs with
  | .error s => .error s
  | .ok (n, r) =>
    if isTrailingSurrogate n then .error (stopAt .loneLeadingSurrogate r)
    else if !isLeadingSurrogate n then .ok (Char.ofNat n, r)
    else
      match r with
      | [] => .error (stopAt .eofInString [])
      | '\\' :: r2 =>
        match r2 with
        | [] => .error (stopAt .eofInString [])
        | 'u' :: r3 =>
          match hexEscape r3 with
          | .error s => .error s
          | .ok (m, r4) =>
            if isTrailingSurrogate m then
              .ok (Char.ofNat ((n - 0xD800) * 0x400 + (m - 0xDC00) + 0x10000), r4)
            else .error (stopAt .loneLeadingSurrogate r4)
        | x :: r3 => .error ⟨.unexpectedEndOfHexEscape, x :: r3, 1⟩
      | x :: r2 => .error ⟨.unexpectedEndOfHexEscape, x :: r2, 1⟩

/-- The character a one-letter escape stands for. -/
def shortEscape? : Char → Option Char
  | '"' => some '"'
  | '\\' => some '\\'
  | '/' => some '/'
  | 'b' => some '\x08'
  | 'f' => some '\x0c'
  | 'n' => some '\n'
  | 'r' => some '\r'
  | 't' => some '\t'
  | _ => none

/-- Reads the characters of a string after its opening quote; `acc` holds those read, last
first. Each round reads at least one character, so `fuel` at least the length of the text
suffices. -/
def readChars : Nat → List Char → List Char → Reading String
  | 0, _, cs => .error (stopAt .eofInString cs)
  | fuel + 1, acc, cs =>
    match cs with
    | [] => .error (stopAt .eofInString [])
    | '"' :: r => .ok (String.ofList acc.reverse, r)
    | '\\' :: r =>
      match r with
      | [] => .error (stopAt .eofInString [])
      | e :: r' =>
        match shortEscape? e with
        | some c => readChars fuel (c :: acc) r'
        | none =>
          if e = 'u' then
            match unicodeEscape r' with
            | .ok (c, r'') => readChars fuel (c :: acc) r''
            | .error s => .error s
          else .error (stopAt .invalidEscape r')
    | c :: r =>
      if c.toNat < 0x20 then .error (stopAt .controlCharacter r)
      else readChars fuel (c :: acc) r

/-- Reads a string after its opening quote, within `fuel` rounds. -/
def readString (fuel : Nat) (cs : List Char) : Reading String :=
  readChars fuel [] cs

/-! ## Documents -/

/-- Puts a field among fields kept in the order of their names; a name already present takes
the new value. -/
def putField (k : String) (v : Value) : List (String × Value) → List (String × Value)
  | [] => [(k, v)]
  | (k', v') :: fs =>
    if k = k' then (k, v) :: fs
    else if k < k' then (k, v) :: (k', v') :: fs
    else (k', v') :: putField k v fs

/-- The text at the next element of an array or the next field of an object: the first one
directly, a later one after its comma. -/
def nextEntry (first : Bool) (expected : ReadError) (c : Char) (r : List Char) :
    Except Stop (List Char) :=
  if c = ',' && !first then .ok (skipBlank r)
  else if first then .ok (c :: r)
  else .error (stopBefore expected (c :: r))

mutual

/-- Reads a document. `depth` is the nesting still allowed plus one; `fuel` bounds the chain of
nested reads, each of which reads a character before the next. Starting from twice the length of
the text, `fuel` stays above the length of what is left, so it also bounds the rounds of reading
a string. -/
def readValue : Nat → Nat → List Char → Reading Value
  | 0, _, cs => .error (stopAt .eofInValue cs)
  | fuel + 1, depth, cs =>
    match skipBlank cs with
    | [] => .error (stopBefore .eofInValue [])
    | 'n' :: r => (readLetters ['u', 'l', 'l'] r).map fun r' => (.null, r')
    | 't' :: r => (readLetters ['r', 'u', 'e'] r).map fun r' => (.bool true, r')
    | 'f' :: r => (readLetters ['a', 'l', 's', 'e'] r).map fun r' => (.bool false, r')
    | '-' :: r => readNumber true r
    | '"' :: r => (readString fuel r).map fun p => (.str p.1, p.2)
    | '[' :: r =>
      if depth ≤ 1 then .error (stopBefore .recursionLimit ('[' :: r))
      else readItems fuel (depth - 1) true [] r
    | '{' :: r =>
      if depth ≤ 1 then .error (stopBefore .recursionLimit ('{' :: r))
      else readFields fuel (depth - 1) true [] r
    | c :: r =>
      if c.isDigit then readNumber false (c :: r)
      else .error (stopBefore .expectedValue (c :: r))

/-- Reads the elements of an array after its opening bracket; `acc` holds those read, last
first. -/
def readItems : Nat → Nat → Bool → List Value → List Char → Reading Value
  | 0, _, _, _, cs => .error (stopAt .eofInList cs)
  | fuel + 1, depth, first, acc, cs =>
    match skipBlank cs with
    | [] => .error (stopBefore .eofInList [])
    | ']' :: r => .ok (.arr acc.reverse, r)
    | c :: r =>
      match nextEntry first .expectedListCommaOrEnd c r with
      | .error s => .error s
      | .ok [] => .error (stopBefore .eofInValue [])
      | .ok (']' :: r') => .error (stopBefore .trailingComma (']' :: r'))
      | .ok t =>
        match readValue fuel depth t with
        | .error s => .error s
        | .ok (v, r') => readItems fuel depth false (v :: acc) r'

/-- Reads the fields of an object after its opening brace. -/
def readFields : Nat → Nat → Bool → List (String × Value) → List Char → Reading Value
  | 0, _, _, _, cs => .error (stopAt .eofInObject cs)
  | fuel + 1, depth, first, acc, cs =>
    match skipBlank cs with
    | [] => .error (stopBefore .eofInObject [])
    | '}' :: r => .ok (.obj acc, r)
    | c :: r =>
      match nextEntry first .expectedObjectCommaOrEnd c r with
      | .error s => .error s
      | .ok [] => .error (stopBefore .eofInValue [])
      | .ok ('}' :: r') => .error (stopBefore .trailingComma ('}' :: r'))
      | .ok ('"' :: r') =>
        match readString fuel r' with
        | .error s => .error s
        | .ok (k, r'') =>
          match skipBlank r'' with
          | [] => .error (stopBefore .eofInObject [])
          | ':' :: t =>
            match readValue fuel depth t with
            | .error s => .error s
            | .ok (v, t') => readFields fuel depth false (putField k v acc) t'
          | x :: t => .error (stopBefore .expectedColon (x :: t))
      | .ok t => .error (stopBefore .keyMustBeString t)

end

/-- Reads a whole text as one document, with nothing after it but blanks. -/
def readDocument (cs : List Char) : Except Stop Value :=
  match readValue (2 * cs.length + 4) 128 cs with
  | .error s => .error s
  | .ok (v, rest) =>
    match skipBlank rest with
    | [] => .ok v
    | r => .error (stopBefore .trailingCharacters r)

/-- The line and the byte column after the first `index` bytes of a text. -/
def lineColumn (bytes : List UInt8) (index : Nat) : Nat × Nat :=
  (bytes.take index).foldl (fun p b => if b = 10 then (p.1 + 1, 0) else (p.1, p.2 + 1)) (1, 0)

/-- The message of a failed read of `text`, with the line and column where it stopped. -/
def Stop.message (text : String) (s : Stop) : String :=
  let bytes := text.toUTF8.toList
  let index := min (bytes.length - byteLength s.rest + s.ahead) bytes.length
  let (line, column) := lineColumn bytes index
  s.reason.message ++ " at line " ++ toString line ++ " column " ++ toString column

end Reader

/-- Reads a JSON text as a document, or gives the reason it is not one. -/
def Value.read (text : String) : Except String Value :=
  match Reader.readDocument text.toList with
  | .ok v => .ok v
  | .error s => .error (s.message text)

end Scenario
end GcRoots
