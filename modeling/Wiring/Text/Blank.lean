/-!
# Blank text

White space as Unicode has it. The separators U+001C to U+001F and the zero width space are not
white space.
-/

namespace Wiring.Text

/-- A white space character. -/
def isBlank (c : Char) : Bool :=
  let n := c.toNat
  (0x9 ≤ n && n ≤ 0xd) || n == 0x20 || n == 0x85 || n == 0xa0 || n == 0x1680 ||
    (0x2000 ≤ n && n ≤ 0x200a) || n == 0x2028 || n == 0x2029 || n == 0x202f || n == 0x205f ||
    n == 0x3000

/-- A text that holds white space only, or nothing. -/
def isBlankText (text : String) : Bool :=
  text.toList.all isBlank

/-- A text without the white space at its two ends. -/
def trimmed (text : String) : String :=
  String.ofList ((text.toList.dropWhile isBlank).reverse.dropWhile isBlank).reverse

end Wiring.Text
