/-!
# Character classes by ranges of code points

A class of characters is a list of inclusive ranges. The blank characters are the 25 characters
with the Unicode property `White_Space`.
-/

namespace TinyScript

/-- Inclusive ranges of code points. -/
abbrev CodeRanges := List (Nat × Nat)

/-- Whether a character lies in one of the ranges. -/
def CodeRanges.has (ranges : CodeRanges) (char : Char) : Bool :=
  ranges.any fun (low, high) => low ≤ char.toNat && char.toNat ≤ high

/-- The characters with the property `White_Space`. -/
def blankRanges : CodeRanges :=
  [(0x09, 0x0D), (0x20, 0x20), (0x85, 0x85), (0xA0, 0xA0), (0x1680, 0x1680), (0x2000, 0x200A),
    (0x2028, 0x2029), (0x202F, 0x202F), (0x205F, 0x205F), (0x3000, 0x3000)]

/-- Whether a character is blank: between tokens it carries no meaning. -/
def isBlank (char : Char) : Bool :=
  blankRanges.has char

end TinyScript
