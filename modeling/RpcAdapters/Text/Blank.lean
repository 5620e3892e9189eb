import RpcAdapters.Text.CodeRanges

/-!
# White space

The code points with the property White_Space.

* `isBlank c`   `c` is white space;
* `trimEnd`, `trim`   a text without the white space at its end, at both its ends.
-/

namespace RpcAdapters.Text

def blanks : CodeRanges :=
  [(0x9, 0xD), (0x20, 0x20), (0x85, 0x85), (0xA0, 0xA0), (0x1680, 0x1680), (0x2000, 0x200A),
  (0x2028, 0x2029), (0x202F, 0x202F), (0x205F, 0x205F), (0x3000, 0x3000)]

def isBlank (c : Char) : Bool := inRanges blanks c

def trimEnd (cs : List Char) : List Char := (cs.reverse.dropWhile isBlank).reverse

def trim (cs : List Char) : List Char := trimEnd (cs.dropWhile isBlank)

end RpcAdapters.Text
