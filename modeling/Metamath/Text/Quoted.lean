import Metamath.Text.Printable

/-!
# Quoted text

`quote` writes a text between double quotes and `quoteCode` a code point between single quotes.
The quote in use and the backslash take a backslash, printable characters stand for themselves, and
every other character is escaped: by a letter where it has one, else by its code in hexadecimal.
-/

namespace Metamath.Text

/-- The lower-case hexadecimal digit of a number below sixteen. -/
def hexDigit (n : Nat) : Char :=
  if n < 10 then Char.ofNat (48 + n) else Char.ofNat (87 + n)

/-- The last `width` hexadecimal digits of a number. -/
def hexDigits : Nat → Nat → List Char
  | 0, _ => []
  | width + 1, n => hexDigits width (n / 16) ++ [hexDigit (n % 16)]

/-- The number in hexadecimal, in `width` digits. -/
def hex (width n : Nat) : String :=
  String.ofList (hexDigits width n)

/-- The letter that follows the backslash in the short escape of a control character. -/
def escapeLetter? (code : Nat) : Option Char :=
  match code with
  | 7 => some 'a'
  | 8 => some 'b'
  | 9 => some 't'
  | 10 => some 'n'
  | 11 => some 'v'
  | 12 => some 'f'
  | 13 => some 'r'
  | _ => none

/-- One code point as it stands between quotes of the given kind. -/
def escape (mark : Char) (code : Nat) : List Char :=
  if code = mark.toNat ∨ code = 0x5c then ['\\', Char.ofNat code]
  else if isPrintable code then [Char.ofNat code]
  else match escapeLetter? code with
    | some letter => ['\\', letter]
    | none =>
      if code < 0x20 ∨ code = 0x7f then '\\' :: 'x' :: hexDigits 2 code
      else if code < 0x10000 then '\\' :: 'u' :: hexDigits 4 code
      else '\\' :: 'U' :: hexDigits 8 code

/-- The text between double quotes. -/
def quote (s : String) : String :=
  String.ofList ('"' :: s.toList.flatMap (fun c => escape '"' c.toNat) ++ ['"'])

/-- The code point between single quotes. -/
def quoteCode (code : Nat) : String :=
  String.ofList ('\'' :: escape '\'' code ++ ['\''])

end Metamath.Text
