import SeriesPivot.Json.Basic
import SeriesPivot.Text.Basic

/-!
# JSON text as read

`Source.read` turns text into a tree that keeps what a decoder has to know about the text and a JSON
value has lost: repeated names in the order of their appearance, strings with unpaired surrogates,
numbers beyond the range of doubles, arrays and objects nested deeper than `Source.depthLimit`, and the
place where the text stops being JSON, a leaf `broken`. A decoder walks the tree in the order of the text,
so the first fault that it meets is the first fault in the text.

* `Source.ofJson` is the tree of a value, without any fault.
* `Source.toJson` is the value of a tree; of two fields with one name the later counts.
* `Json.parse?` reads a text that holds one value and nothing after it but blanks.
-/

namespace SeriesPivot.Json

/-- The tree of a JSON text. -/
inductive Source where
  | null
  | bool (b : Bool)
  /-- A number; `none` beyond the range of doubles. -/
  | number (n : Option Number)
  /-- A string; `none` with an unpaired surrogate. -/
  | string (s : Option String)
  | array (items : List Source)
  | object (members : List (Option String × Source))
  /-- An array or object below the depth limit, and whether its text is well formed. -/
  | tooDeep (intact : Bool)
  /-- The place where the text stops being JSON. -/
  | broken
  deriving Repr, Inhabited

/-- What is wrong with a text that does not decode. -/
inductive Fault where
  /-- The text is not JSON. -/
  | malformed
  /-- The value has another shape than asked for. -/
  | shape
  deriving DecidableEq, Repr

namespace Source

/-- The number of levels of arrays and objects that a text may have. -/
def depthLimit : Nat := 127

/-! ## Reading text -/

/-- A blank of JSON. -/
def isSpace (c : Char) : Bool :=
  c == ' ' || c == '\n' || c == '\t' || c == '\r'

/-- Drop leading blanks. -/
def skip (cs : List Char) : List Char :=
  cs.dropWhile isSpace

/-- One UTF-16 unit of an escape or one plain character. -/
inductive Unit16 where
  | char (c : Char)
  | surrogate (n : Nat)
  deriving Repr

/-- Pair up surrogates; `none` if one is left alone. -/
def joinUnits : List Unit16 → Option (List Char)
  | [] => some []
  | .char c :: rest => (joinUnits rest).map (c :: ·)
  | .surrogate hi :: .surrogate lo :: rest =>
    if hi < 0xDC00 ∧ 0xDC00 ≤ lo then
      (joinUnits rest).map (Char.ofNat (0x10000 + (hi - 0xD800) * 0x400 + (lo - 0xDC00)) :: ·)
    else none
  | .surrogate _ :: _ => none

/-- The character of a one-letter escape. -/
def escapeLetter? (c : Char) : Option Char :=
  if c = '"' then some '"'
  else if c = '\\' then some '\\'
  else if c = '/' then some '/'
  else if c = 'b' then some '\x08'
  else if c = 'f' then some '\x0c'
  else if c = 'n' then some '\n'
  else if c = 'r' then some '\r'
  else if c = 't' then some '\t'
  else none

/-- The unit of four hexadecimal digits. -/
def hexUnit? (a b c d : Char) : Option Unit16 := do
  let n := (← Text.hexDigit? a) * 0x1000 + (← Text.hexDigit? b) * 0x100 +
    (← Text.hexDigit? c) * 0x10 + (← Text.hexDigit? d)
  return if 0xD800 ≤ n ∧ n < 0xE000 then .surrogate n else .char (Char.ofNat n)

/-- The rest of a string after its opening quote: its units, and the text behind the closing quote.
`none` where the text is no string. `units` holds what was read so far, last unit first. -/
def readUnits (units : List Unit16) : List Char → Option (List Unit16 × List Char)
  | [] => none
  | '"' :: cs => some (units.reverse, cs)
  | '\\' :: 'u' :: a :: b :: c :: d :: cs =>
    match hexUnit? a b c d with
    | some u => readUnits (u :: units) cs
    | none => none
  | '\\' :: e :: cs =>
    match escapeLetter? e with
    | some c => readUnits (.char c :: units) cs
    | none => none
  | c :: cs => if c = '\\' ∨ c.toNat < 0x20 then none else readUnits (.char c :: units) cs

/-- The rest of a string after its opening quote. -/
def readString (cs : List Char) : Option (Option String × List Char) :=
  match readUnits [] cs with
  | some (units, rest) => some ((joinUnits units).map String.ofList, rest)
  | none => none

/-- Take digits into `acc` as long as it stays below `2 ^ 64`; the digits left over come second. -/
def absorb (acc : Nat) : List Nat → Nat × List Nat
  | [] => (acc, [])
  | d :: ds => if acc * 10 + d < UInt64.size then absorb (acc * 10 + d) ds else (acc, d :: ds)

/-- The value of a number literal. A literal without fraction and exponent is an integer if it fits into
64 bits, and negative zero is a double. For a double, the digits that fit into 64 bits are the significand:
further digits of the whole part scale it by ten each, further digits of the fraction do not count. -/
def numberValue (negative : Bool) (whole : List Nat) (fraction : Option (List Nat))
    (exponent : Option (Bool × List Nat)) : Option Number :=
  let (first, dropped) := absorb 0 whole
  match fraction, exponent with
  | none, none =>
    if dropped.isEmpty then
      if negative then
        if 0 < first ∧ first ≤ 0x8000000000000000 then some (.int (-(first : Int)))
        else (Binary64.ofRatio true first 1).map .float
      else some (.int first)
    else (Binary64.ofDecimal negative first dropped.length).map .float
  | _, _ =>
    let digits := fraction.getD []
    let (significand, unused) := absorb first digits
    let scale : Int := (dropped.length : Int) - ((digits.length : Int) - unused.length)
    match exponent with
    | none => (Binary64.ofDecimal negative significand scale).map .float
    | some (down, ds) =>
      let e := Text.ofDigits ds
      if 0x80000000 ≤ e then
        if significand ≠ 0 ∧ ¬ down then none
        else some (.float { Binary64.zero with negative := negative })
      else
        let total : Int := if down then scale - e else scale + e
        (Binary64.ofDecimal negative significand total).map .float

/-- A number: its value and the text behind it. `none` where the text is no number. -/
def readNumber (cs : List Char) : Option (Option Number × List Char) :=
  let (negative, cs) := match cs with
    | '-' :: rest => (true, rest)
    | _ => (false, cs)
  match Text.digits cs with
  | ([], _) => none
  | (0 :: _ :: _, _) => none
  | (whole, cs) =>
    let fraction : Option (Option (List Nat) × List Char) := match cs with
      | '.' :: rest => match Text.digits rest with
        | ([], _) => none
        | (ds, rest) => some (some ds, rest)
      | _ => some (none, cs)
    match fraction with
    | none => none
    | some (fraction, cs) =>
      let exponent (rest : List Char) : Option (Option (Bool × List Nat) × List Char) :=
        let (down, rest) := match rest with
          | '-' :: r => (true, r)
          | '+' :: r => (false, r)
          | _ => (false, rest)
        match Text.digits rest with
        | ([], _) => none
        | (ds, rest) => some (some (down, ds), rest)
      let exponent := match cs with
        | 'e' :: rest => exponent rest
        | 'E' :: rest => exponent rest
        | _ => some (none, cs)
      match exponent with
      | none => none
      | some (exponent, cs) => some (numberValue negative whole fraction exponent, cs)

/-- An array or object that was read at `level`. -/
def contain (level : Nat) (source : Source) (rest : Option (List Char)) :
    Source × Option (List Char) :=
  (if level ≤ depthLimit then source else .tooDeep rest.isSome, rest)

mutual

/-- A value at a level, after blanks, and the text behind it; `none` instead of that text if the value is
broken. -/
def readValue (level : Nat) : (fuel : Nat) → List Char → Source × Option (List Char)
  | 0, _ => (.broken, none)
  | fuel + 1, cs =>
    match skip cs with
    | '"' :: rest => match readString rest with
      | some (s, rest) => (.string s, some rest)
      | none => (.broken, none)
    | '[' :: rest => match skip rest with
      | ']' :: rest => contain level (.array []) (some rest)
      | rest =>
        let (items, rest) := readItems (level + 1) fuel rest
        contain level (.array items) rest
    | '\x7b' :: rest => match skip rest with
      | '\x7d' :: rest => contain level (.object []) (some rest)
      | rest =>
        let (members, rest) := readMembers (level + 1) fuel rest
        contain level (.object members) rest
    | 'n' :: 'u' :: 'l' :: 'l' :: rest => (.null, some rest)
    | 't' :: 'r' :: 'u' :: 'e' :: rest => (.bool true, some rest)
    | 'f' :: 'a' :: 'l' :: 's' :: 'e' :: rest => (.bool false, some rest)
    | rest => match readNumber rest with
      | some (n, rest) => (.number n, some rest)
      | none => (.broken, none)

/-- The items of an array up to its closing bracket. -/
def readItems (level : Nat) : (fuel : Nat) → List Char → List Source × Option (List Char)
  | 0, _ => ([.broken], none)
  | fuel + 1, cs =>
    match readValue level fuel cs with
    | (item, none) => ([item], none)
    | (item, some rest) => match skip rest with
      | ']' :: rest => ([item], some rest)
      | ',' :: rest =>
        let (items, rest) := readItems level fuel rest
        (item :: items, rest)
      | _ => ([item, .broken], none)

/-- The members of an object up to its closing brace. -/
def readMembers (level : Nat) :
    (fuel : Nat) → List Char → List (Option String × Source) × Option (List Char)
  | 0, _ => ([(none, .broken)], none)
  | fuel + 1, cs =>
    match skip cs with
    | '"' :: rest => match readString rest with
      | none => ([(none, .broken)], none)
      | some (name, rest) => match skip rest with
        | ':' :: rest => match readValue level fuel rest with
          | (value, none) => ([(name, value)], none)
          | (value, some rest) => match skip rest with
            | '\x7d' :: rest => ([(name, value)], some rest)
            | ',' :: rest =>
              let (members, rest) := readMembers level fuel rest
              ((name, value) :: members, rest)
            | _ => ([(name, value), (none, .broken)], none)
        | _ => ([(name, .broken)], none)
    | _ => ([(none, .broken)], none)

end

/-- The tree of the value at the front of a text, and the text behind it. -/
def readFront (text : String) : Source × Option (List Char) :=
  let cs := text.toList
  readValue 1 (2 * cs.length + 2) cs

/-- The tree of a text that holds one value. -/
def read (text : String) : Source × Bool :=
  match readFront text with
  | (source, some rest) => (source, (skip rest).isEmpty)
  | (source, none) => (source, false)

/-! ## Trees and values -/

mutual

/-- The tree of a value. -/
def ofJson : Json → Source
  | .null => .null
  | .bool b => .bool b
  | .number n => .number (some n)
  | .string s => .string (some s)
  | .array items => .array (ofItems items)
  | .object fields => .object (ofFields fields)

/-- The trees of the items of an array. -/
def ofItems : List Json → List Source
  | [] => []
  | j :: rest => ofJson j :: ofItems rest

/-- The trees of the fields of an object. -/
def ofFields : List (String × Json) → List (Option String × Source)
  | [] => []
  | (k, j) :: rest => (some k, ofJson j) :: ofFields rest

end

mutual

/-- The value of a tree, or the first fault in it. -/
def toJson : Source → Except Fault Json
  | .null => .ok .null
  | .bool b => .ok (.bool b)
  | .number (some n) => .ok (.number n)
  | .string (some s) => .ok (.string s)
  | .array items => do return .array (← toItems items)
  | .object members => do return .object (Assoc.ofList (← toFields members))
  | .number none | .string none | .tooDeep _ | .broken => .error .malformed

/-- The values of the items of an array. -/
def toItems : List Source → Except Fault (List Json)
  | [] => .ok []
  | s :: rest => do
    let j ← toJson s
    let js ← toItems rest
    return j :: js

/-- The values of the members of an object, in order of appearance. -/
def toFields : List (Option String × Source) → Except Fault (List (String × Json))
  | [] => .ok []
  | (none, _) :: _ => .error .malformed
  | (some k, s) :: rest => do
    let j ← toJson s
    let fields ← toFields rest
    return (k, j) :: fields

end

mutual

/-- Whether the text of the tree is well formed, whatever its strings, numbers and depth. -/
def intact : Source → Bool
  | .broken => false
  | .tooDeep ok => ok
  | .array items => intactItems items
  | .object members => intactMembers members
  | .null | .bool _ | .number _ | .string _ => true

/-- Whether all items are well formed. -/
def intactItems : List Source → Bool
  | [] => true
  | s :: rest => intact s && intactItems rest

/-- Whether all members are well formed. -/
def intactMembers : List (Option String × Source) → Bool
  | [] => true
  | (_, s) :: rest => intact s && intactMembers rest

end

end Source

/-- The value of a text that holds one value and nothing else but blanks. -/
def parse? (text : String) : Option Json :=
  match Source.read text with
  | (source, true) => source.toJson.toOption
  | (_, false) => none

end SeriesPivot.Json
