/-
  ErrorContract.Text.Blank
  ────────────────────────
  **WHITE SPACE, AND CUTTING IT OFF.**

  The white space of Unicode: the characters with the property White_Space.
  It holds the six ASCII blanks, so a text of ASCII is treated as usual.
-/

namespace ErrorContract

/-- Does the character have the Unicode property White_Space? -/
def Blank.member (c : Char) : Bool :=
  let n := c.toNat
  (9 ≤ n && n ≤ 13) || n == 0x20 || n == 0x85 || n == 0xa0 || n == 0x1680 ||
    (0x2000 ≤ n && n ≤ 0x200a) || n == 0x2028 || n == 0x2029 || n == 0x202f ||
    n == 0x205f || n == 0x3000

/-- The text without leading white space. -/
def Blank.skip (cs : List Char) : List Char := cs.dropWhile Blank.member

end ErrorContract
