/-!
# Base 64

`base64 bytes` writes three bytes as four characters. The last group is filled up with `=`.
-/

namespace SeriesPivot.Text

/-- The character of six bits. -/
def base64Char (n : Nat) : Char :=
  if n < 26 then Char.ofNat ('A'.toNat + n)
  else if n < 52 then Char.ofNat ('a'.toNat + (n - 26))
  else if n < 62 then Char.ofNat ('0'.toNat + (n - 52))
  else if n = 62 then '+'
  else '/'

/-- The characters of a group of bytes. -/
def base64Chars : List UInt8 → List Char
  | a :: b :: c :: rest =>
    let n := a.toNat * 0x10000 + b.toNat * 0x100 + c.toNat
    base64Char (n / 0x40000) :: base64Char (n / 0x1000 % 64) :: base64Char (n / 0x40 % 64) ::
      base64Char (n % 64) :: base64Chars rest
  | [a, b] =>
    let n := a.toNat * 0x100 + b.toNat
    [base64Char (n / 0x400), base64Char (n / 0x10 % 64), base64Char (n % 16 * 4), '=']
  | [a] => [base64Char (a.toNat / 4), base64Char (a.toNat % 4 * 16), '=', '=']
  | [] => []

/-- Bytes as text. -/
def base64 (bytes : List UInt8) : String :=
  String.ofList (base64Chars bytes)

end SeriesPivot.Text
