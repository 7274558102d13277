/-!
# Hexadecimal numerals

Element IDs are listed in hexadecimal, as in `0x1A45DFA3`.
-/

namespace Ebml

/-- The upper-case hexadecimal numeral of `n`, with no leading zero. -/
def upperHex (n : Nat) : String :=
  String.ofList ((Nat.toDigits 16 n).map Char.toUpper)

/-- The upper-case hexadecimal numeral of `n` after `0x`. -/
def hex (n : Nat) : String := "0x" ++ upperHex n

end Ebml
