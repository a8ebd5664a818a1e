import ErrorHints.Hexadecimal
import ErrorHints.Rounding

/-!
# JSON values and their reader

A value keeps what a checked reading of settings needs: the members of an
object in order and with repeated keys, and for a number whether it was written
as a whole number. The reader is strict: one value with nothing but blanks
around it, no trailing commas, no control characters and no lone surrogates in
strings, at most `maxDepth` containers inside each other, and no number that
is too large for binary64.

A number is kept as leading digits that fit into 64 bits and a power of ten.
-/
namespace ErrorHints

/-- The number `± digits · 10^scale`. -/
structure Json.Number where
  negative : Bool
  digits : Nat
  scale : Int
  /-- Written with neither a fraction nor an exponent. -/
  whole : Bool
  deriving DecidableEq, Repr

inductive Json where
  | null
  | bool (b : Bool)
  | number (n : Json.Number)
  | text (s : String)
  | array (items : List Json)
  | object (members : List (String × Json))
  deriving Inhabited

namespace Json

/-- The number as an unsigned 64-bit integer, if it is written as one. -/
def Number.unsigned? (n : Number) : Option Nat :=
  if n.whole && !n.negative && n.scale = 0 then some n.digits else none

def unsigned? : Json → Option Nat
  | number n => n.unsigned?
  | _ => none

def text? : Json → Option String
  | text s => some s
  | _ => none

def array? : Json → Option (List Json)
  | array items => some items
  | _ => none

def object? : Json → Option (List (String × Json))
  | object members => some members
  | _ => none

def isNull : Json → Bool
  | null => true
  | _ => false

/-- The member of an object with a given key; the last one of several. -/
def member? (key : String) : Json → Option Json
  | object members => (members.reverse.find? (·.1 == key)).map (·.2)
  | _ => none

/-- A list of texts. -/
def texts? (j : Json) : Option (List String) := do (← j.array?).mapM text?

/-! ## Reading -/

/-- What a reader makes of the front of a text, and the rest of the text. -/
abbrev Reader (α : Type) := List Char → Option (α × List Char)

/-- Containers inside each other, at most. -/
def maxDepth : Nat := 127

def isBlank (c : Char) : Bool := c = ' ' || c = '\n' || c = '\t' || c = '\r'

def skipBlanks (cs : List Char) : List Char := cs.dropWhile isBlank

/-- The character that a backslash and `c` stand for. -/
def escaped? : Char → Option Char
  | '"' => some '"'
  | '\\' => some '\\'
  | '/' => some '/'
  | 'b' => some '\x08'
  | 'f' => some '\x0c'
  | 'n' => some '\n'
  | 'r' => some '\r'
  | 't' => some '\t'
  | _ => none

/-- The rest of a string after its opening quote; `read` holds what came before, reversed. -/
def stringRest (read : List Char) : Reader String
  | [] => none
  | '"' :: cs => some (String.ofList read.reverse, cs)
  | '\\' :: 'u' :: a :: b :: c :: d :: cs =>
    match Hexadecimal.value? [a, b, c, d] with
    | none => none
    | some u =>
      if u < 0xd800 || 0xe000 ≤ u then stringRest (Char.ofNat u :: read) cs
      else if 0xdc00 ≤ u then none
      else
        match cs with
        | '\\' :: 'u' :: a' :: b' :: c' :: d' :: cs' =>
          match Hexadecimal.value? [a', b', c', d'] with
          | none => none
          | some v =>
            if 0xdc00 ≤ v && v < 0xe000 then
              stringRest (Char.ofNat (0x10000 + (u - 0xd800) * 0x400 + (v - 0xdc00)) :: read) cs'
            else none
        | _ => none
  | '\\' :: c :: cs =>
    match escaped? c with
    | none => none
    | some e => stringRest (e :: read) cs
  | c :: cs => if c < ' ' then none else stringRest (c :: read) cs

/-- The digits at the front, and the rest. -/
def digits (cs : List Char) : List Char × List Char :=
  let ds := cs.takeWhile Char.isDigit
  (ds, cs.drop ds.length)

def digitValue (d : Char) : Nat := d.toNat - '0'.toNat

/-- Append digits to a number as long as it fits into 64 bits; the other digits are counted. -/
def appendDigits (n : Nat) : List Char → Nat × Nat
  | [] => (n, 0)
  | d :: ds =>
    let m := 10 * n + digitValue d
    if m < 2 ^ 64 then appendDigits m ds else (n, ds.length + 1)

/-- The fraction after a point; none is fine. -/
def fraction : Reader (Option (List Char))
  | '.' :: cs =>
    match digits cs with
    | ([], _) => none
    | (ds, rest) => some (some ds, rest)
  | cs => some (none, cs)

/-- The exponent; none is fine. -/
def exponent (cs : List Char) : Option (Option Int × List Char) :=
  match cs with
  | c :: rest =>
    if c = 'e' || c = 'E' then
      let (negative, rest) := match rest with
        | '-' :: r => (true, r)
        | '+' :: r => (false, r)
        | r => (false, r)
      match digits rest with
      | ([], _) => none
      | (ds, rest) =>
        let value : Int := ds.foldl (fun n d => 10 * n + digitValue d) 0
        some (some (if negative then -value else value), rest)
    else some (none, cs)
  | [] => some (none, [])

-- powers of naturals, whatever other powers are known
attribute [local instance (high)] instPowNat

/-- Whether `digits · 10^scale` is too large for binary64, both factors and then the
product being rounded. -/
def tooLarge (digits : Nat) (scale : Int) : Bool :=
  digits ≠ 0 && 0 ≤ scale &&
    (308 < scale || doubleLimit ≤ nearestDouble digits * nearestDouble (10 ^ scale.toNat))

/-- A number; its first character is a digit or the minus sign. -/
def numberFront (cs : List Char) : Option (Number × List Char) := do
  let (negative, cs) := match cs with
    | '-' :: r => (true, r)
    | r => (false, r)
  let (front, cs) := digits cs
  if front.isEmpty || (front.head? = some '0' && 1 < front.length) then none
  else
    let (frac, cs) ← fraction cs
    let (exp, cs) ← exponent cs
    let places := frac.getD []
    let (value, omitted) := appendDigits 0 front
    let (value, omittedPlaces) := appendDigits value places
    let scale : Int := omitted + omittedPlaces - places.length + exp.getD 0
    if tooLarge value scale then none
    else some (⟨negative, value, scale, frac.isNone && exp.isNone⟩, cs)

/-- A given word. -/
def word (w : String) (j : Json) (cs : List Char) : Option (Json × List Char) :=
  if w.toList.isPrefixOf cs then some (j, cs.drop w.length) else none

mutual

/-- One value, after blanks. -/
def value (fuel depth : Nat) (cs : List Char) : Option (Json × List Char) :=
  match fuel with
  | 0 => none
  | fuel + 1 =>
    match skipBlanks cs with
    | [] => none
    | c :: rest =>
      if c = '"' then (stringRest [] rest).map fun (s, r) => (text s, r)
      else if c = '[' then
        match depth, skipBlanks rest with
        | 0, _ => none
        | _, ']' :: r => some (array [], r)
        | depth + 1, r => items fuel depth [] r
      else if c = '\x7b' then
        match depth, skipBlanks rest with
        | 0, _ => none
        | _, '\x7d' :: r => some (object [], r)
        | depth + 1, r => members fuel depth [] r
      else if c = 'n' then word "null" null (c :: rest)
      else if c = 't' then word "true" (bool true) (c :: rest)
      else if c = 'f' then word "false" (bool false) (c :: rest)
      else (numberFront (c :: rest)).map fun (n, r) => (number n, r)

/-- The items of an array up to its end; `read` holds those before, reversed. -/
def items (fuel depth : Nat) (read : List Json) (cs : List Char) : Option (Json × List Char) :=
  match fuel with
  | 0 => none
  | fuel + 1 =>
    match value fuel depth cs with
    | none => none
    | some (j, rest) =>
      match skipBlanks rest with
      | ',' :: r => items fuel depth (j :: read) r
      | ']' :: r => some (array (j :: read).reverse, r)
      | _ => none

/-- The members of an object up to its end; `read` holds those before, reversed. -/
def members (fuel depth : Nat) (read : List (String × Json)) (cs : List Char) :
    Option (Json × List Char) :=
  match fuel with
  | 0 => none
  | fuel + 1 =>
    match skipBlanks cs with
    | '"' :: rest =>
      match stringRest [] rest with
      | none => none
      | some (key, rest) =>
        match skipBlanks rest with
        | ':' :: rest =>
          match value fuel depth rest with
          | none => none
          | some (j, rest) =>
            match skipBlanks rest with
            | ',' :: r => members fuel depth ((key, j) :: read) r
            | '\x7d' :: r => some (object ((key, j) :: read).reverse, r)
            | _ => none
        | _ => none
    | _ => none

end

/-- Read a text that is one value. Every step below a value takes a character,
so twice the length is steps enough. -/
def ofText? (t : String) : Option Json :=
  match value (2 * t.length + 2) maxDepth t.toList with
  | some (j, rest) => if (skipBlanks rest).isEmpty then some j else none
  | none => none

end Json

end ErrorHints
