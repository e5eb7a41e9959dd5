import SeriesPivot.Text.Basic

/-!
# Percent encoding

Text as it stands in the paths and queries of URLs.

* `percentDecode` reads `%xx` as a byte, and a per cent sign without two hexadecimal digits as itself.
* `formEncode` writes a name or value of a form: letters, digits and `*-._` stand for themselves, a blank
  is `+`, and every other byte is `%XX`.
* `formPairs` reads the names and values of a form.
-/

namespace SeriesPivot.Text

/-- The bytes of a text in UTF-8. -/
def utf8 (s : String) : List UInt8 :=
  s.toUTF8.toList

/-- The text of bytes in UTF-8. -/
def ofUtf8? (bytes : List UInt8) : Option String :=
  String.fromUTF8? ⟨bytes.toArray⟩

/-- The bytes of a text with `%xx` read as bytes. -/
def percentDecode : List Char → List UInt8
  | [] => []
  | '%' :: a :: b :: rest =>
    match hexDigit? a, hexDigit? b with
    | some high, some low => (high * 16 + low).toUInt8 :: percentDecode rest
    | _, _ => utf8 "%" ++ percentDecode (a :: b :: rest)
  | c :: rest => utf8 (String.singleton c) ++ percentDecode rest

/-- A hexadecimal digit in upper case. -/
def upperHex (n : Nat) : Char :=
  if n < 10 then Char.ofNat ('0'.toNat + n) else Char.ofNat ('A'.toNat + (n - 10))

/-- A byte of a form. -/
def formByte (b : UInt8) : List Char :=
  let c := Char.ofNat b.toNat
  if c.isAlphanum || c == '*' || c == '-' || c == '.' || c == '_' then [c]
  else if c = ' ' then ['+']
  else ['%', upperHex (b.toNat / 16), upperHex (b.toNat % 16)]

/-- A name or value of a form. -/
def formEncode (s : String) : String :=
  String.ofList ((utf8 s).flatMap formByte)

/-- The text of a form: its names and values. -/
def formText (pairs : List (String × String)) : String :=
  "&".intercalate (pairs.map fun (name, value) => formEncode name ++ "=" ++ formEncode value)

/-- A name or value of a form as text; `none` if it is not UTF-8. -/
def formDecode (cs : List Char) : Option String :=
  ofUtf8? (percentDecode (cs.map fun c => if c = '+' then ' ' else c))

/-- The name and the value of a piece of a form. A piece without `=` has the empty value. -/
def formPair (piece : List Char) : Option String × Option String :=
  (formDecode (piece.takeWhile (· != '=')), formDecode ((piece.dropWhile (· != '=')).drop 1))

/-- The names and values of a form in order. -/
def formPairs (text : String) : List (Option String × Option String) :=
  ((splitOn (· == '&') text.toList).filter fun piece => !piece.isEmpty).map formPair

end SeriesPivot.Text
