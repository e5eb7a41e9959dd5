import SeriesPivot.Text.Percent

/-!
# Addresses of servers

`Url.isHttp` says whether a text is an absolute URL of the schemes `http` and `https`, as the URL Standard
reads it:

* control characters and blanks around it, and tabs and line ends anywhere, do not count;
* any number of slashes of either kind may stand behind the scheme;
* the host is a name without forbidden characters, an IPv4 address if its last label is a number, or an
  IPv6 address in brackets;
* a port has digits only and is below `2 ^ 16`.

Names of hosts outside ASCII are taken as they are.
-/

namespace SeriesPivot.Url

/-- The text that counts. -/
def clean (text : String) : List Char :=
  let outer (c : Char) : Bool := c.toNat ≤ 0x20
  let inner := ((text.toList.dropWhile outer).reverse.dropWhile outer).reverse
  inner.filter fun c => !(c == '\t' || c == '\n' || c == '\r')

/-- A character of a scheme after the first. -/
def isSchemeChar (c : Char) : Bool :=
  c.isAlphanum || c == '+' || c == '-' || c == '.'

/-- The scheme in lower case, and the text behind its colon. -/
def scheme? (cs : List Char) : Option (String × List Char) :=
  match cs with
  | c :: _ =>
    if c.isAlpha then
      match cs.dropWhile isSchemeChar with
      | ':' :: rest => some (Text.lowerAscii (String.ofList (cs.takeWhile isSchemeChar)), rest)
      | _ => none
    else none
  | [] => none

/-- A slash of either kind. -/
def isSlash (c : Char) : Bool :=
  c == '/' || c == '\\'

/-- Where the authority ends. -/
def endsAuthority (c : Char) : Bool :=
  isSlash c || c == '?' || c == '#'

/-- The authority without user and password, which end at its last `@`. -/
def hostAndPort (authority : List Char) : List Char :=
  (authority.reverse.takeWhile (· != '@')).reverse

/-- The host up to the first colon outside brackets, and the rest. -/
def splitHost (inBrackets : Bool) : List Char → List Char × List Char
  | [] => ([], [])
  | c :: cs =>
    if c = ':' ∧ ¬ inBrackets then ([], c :: cs)
    else
      let (host, rest) := splitHost (c = '[' ∨ (inBrackets ∧ c ≠ ']')) cs
      (c :: host, rest)

/-- Whether the text behind a host is a port, or nothing. -/
def isPort : List Char → Bool
  | [] => true
  | ':' :: digits => digits.all Char.isDigit &&
      (Text.ofDigits (digits.filterMap Text.digit?) < UInt16.size)
  | _ => false

/-- A number of an IPv4 address, which may be octal or hexadecimal. -/
def number? (cs : List Char) : Option Nat :=
  let value (base : Nat) (ds : List Char) : Option Nat := do
    let digits ← ds.mapM Text.hexDigit?
    if digits.all (· < base) then some (digits.foldl (fun n d => n * base + d) 0) else none
  match cs with
  | [] => none
  | '0' :: 'x' :: ds => value 16 ds
  | '0' :: 'X' :: ds => value 16 ds
  | '0' :: d :: ds => value 8 (d :: ds)
  | ds => value 10 ds

/-- The labels of a name, without an empty one at the end. -/
def labels (host : List Char) : List (List Char) :=
  let pieces := Text.splitOn (· == '.') host
  if pieces.getLast? = some [] then pieces.dropLast else pieces

/-- Whether the last label is a number, so that the name has to be an IPv4 address. -/
def endsInNumber (host : List Char) : Bool :=
  match (labels host).getLast? with
  | some label => (!label.isEmpty && label.all Char.isDigit) || (number? label).isSome
  | none => false

/-- Whether the name is an IPv4 address: up to four numbers, the last of which fills up the rest. -/
def isIpv4 (host : List Char) : Bool :=
  match (labels host).mapM number? with
  | none => false
  | some numbers =>
    match numbers.reverse with
    | [] => false
    | last :: others =>
      others.length ≤ 3 && others.all (· < 256) && last < 1 <<< (8 * (4 - others.length))

/-- A decimal number below 256 without leading zeros. -/
def isOctet (cs : List Char) : Bool :=
  match Text.digits cs with
  | ([], _) => false
  | (0 :: _ :: _, _) => false
  | (ds, rest) => rest.isEmpty && Text.ofDigits ds < 256

/-- The number of groups of sixteen bits that a list of groups stands for; the last may be an IPv4
address. -/
def groupCount : List (List Char) → Option Nat
  | [] => some 0
  | [group] =>
    let octets := Text.splitOn (· == '.') group
    if octets.length = 4 ∧ octets.all isOctet then some 2
    else if 1 ≤ group.length ∧ group.length ≤ 4 ∧ group.all fun c => (Text.hexDigit? c).isSome then
      some 1
    else none
  | group :: rest =>
    if 1 ≤ group.length ∧ group.length ≤ 4 ∧ group.all fun c => (Text.hexDigit? c).isSome then
      (groupCount rest).map (· + 1)
    else none

/-- The number of groups of a text. -/
def groups (cs : List Char) : Option Nat :=
  if cs.isEmpty then some 0 else groupCount (Text.splitOn (· == ':') cs)

/-- The texts before and behind the first double colon. -/
def splitDoubleColon : List Char → Option (List Char × List Char)
  | [] => none
  | ':' :: ':' :: rest => some ([], rest)
  | c :: rest => (splitDoubleColon rest).map fun (left, right) => (c :: left, right)

/-- Whether the text is an IPv6 address. -/
def isIpv6 (cs : List Char) : Bool :=
  match splitDoubleColon cs with
  | none => groups cs == some 8
  | some (left, right) =>
    match groups left, groups right with
    | some m, some n => m + n ≤ 7 && !left.contains '.'
    | _, _ => false

/-- A character that no name of a host may have. -/
def isForbidden (c : Char) : Bool :=
  c.toNat ≤ 0x20 || c == '#' || c == '%' || c == '/' || c == ':' || c == '<' || c == '>' ||
    c == '?' || c == '@' || c == '[' || c == '\\' || c == ']' || c == '^' || c == '|' ||
    c.toNat == 0x7F

/-- Whether the text is a host. -/
def isHost (cs : List Char) : Bool :=
  match cs with
  | '[' :: rest =>
    match rest.reverse with
    | ']' :: address => isIpv6 address.reverse
    | _ => false
  | _ =>
    match Text.ofUtf8? (Text.percentDecode cs) with
    | none => false
    | some host =>
      let host := host.toList
      !host.isEmpty && !host.any isForbidden && (!endsInNumber host || isIpv4 host)

/-- Whether the text is an absolute URL of the schemes `http` and `https`. -/
def isHttp (text : String) : Bool :=
  match scheme? (clean text) with
  | none => false
  | some (scheme, rest) =>
    (scheme == "http" || scheme == "https") &&
      let authority := (rest.dropWhile isSlash).takeWhile fun c => !endsAuthority c
      let (host, port) := splitHost false (hostAndPort authority)
      isHost host && isPort port

end SeriesPivot.Url
