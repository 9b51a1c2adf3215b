/-!
# Blanks

The characters that leave nothing but room on paper: the blanks and line ends of ASCII and those that
Unicode adds to them. Arguments are read without the blanks around them, and lines of a table are printed
without those at their end.
-/
namespace FlowDisasm.Text

def isBlank (c : Char) : Bool :=
  let code := c.toNat
  (0x09 ≤ code && code ≤ 0x0D) || code == 0x20 || code == 0x85 || code == 0xA0 || code == 0x1680
    || (0x2000 ≤ code && code ≤ 0x200A) || code == 0x2028 || code == 0x2029 || code == 0x202F
    || code == 0x205F || code == 0x3000

def trimEnd (characters : List Char) : List Char :=
  (characters.reverse.dropWhile isBlank).reverse

def trim (characters : List Char) : List Char :=
  trimEnd (characters.dropWhile isBlank)

end FlowDisasm.Text
