import Metamath.Text.Split

/-!
# White space

`isBlank` is the `White_Space` property of Unicode, on code points. `trimBlank` drops blanks at
both ends of a text and `splitList` reads a list with commas.
-/

namespace Metamath.Text

/-- The code points with the `White_Space` property. -/
def isBlank (code : Nat) : Bool :=
  (9 ≤ code && code ≤ 13) || code == 0x20 || code == 0x85 || code == 0xa0 || code == 0x1680 ||
    (0x2000 ≤ code && code ≤ 0x200a) || code == 0x2028 || code == 0x2029 || code == 0x202f ||
    code == 0x205f || code == 0x3000

/-- The characters without the blanks at either end. -/
def trimChars (cs : List Char) : List Char :=
  let cs := cs.dropWhile fun c => isBlank c.toNat
  (cs.reverse.dropWhile fun c => isBlank c.toNat).reverse

/-- The text without the blanks at either end. -/
def trimBlank (s : String) : String :=
  String.ofList (trimChars s.toList)

/-- The items of a list with commas: blanks around an item are dropped, and so are empty items. -/
def splitList (s : String) : List String :=
  ((splitWhere (· == ',') s.toList).map fun item => String.ofList (trimChars item)).filter (· ≠ "")

end Metamath.Text
