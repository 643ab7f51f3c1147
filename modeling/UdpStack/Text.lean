/-
Spelled numbers and lists: digits of a fixed width, the values of digits and of decimal numbers,
texts cut at separators, and bracketed lists. The value of a written digit is the digit
(`hexValue?_hexDigit`).
-/

namespace UdpStack.Text

/-- The lower case hexadecimal digit of a number below sixteen. -/
def hexDigit (n : Nat) : Char :=
  if n < 10 then Char.ofNat (48 + n) else Char.ofNat (87 + n)

/-- The value of a hexadecimal digit in either case. -/
def hexValue? (c : Char) : Option Nat :=
  if '0' ≤ c ∧ c ≤ '9' then some (c.toNat - 48)
  else if 'a' ≤ c ∧ c ≤ 'f' then some (c.toNat - 87)
  else if 'A' ≤ c ∧ c ≤ 'F' then some (c.toNat - 55)
  else none

theorem hexValue?_hexDigit : ∀ n < 16, hexValue? (hexDigit n) = some n := by decide

/-- The last `width` hexadecimal digits of a number. -/
def hexDigits : Nat → Nat → List Char
  | 0, _ => []
  | width + 1, n => hexDigits width (n / 16) ++ [hexDigit (n % 16)]

theorem length_hexDigits (width n : Nat) : (hexDigits width n).length = width := by
  induction width generalizing n with
  | zero => rfl
  | succ width ih => simp [hexDigits, ih]

/-- The last `width` hexadecimal digits of a number behind `0x`. -/
def hexLiteral (width n : Nat) : String := "0x" ++ String.ofList (hexDigits width n)

/-- The stretches between separators, one more than there are separators. -/
def splitOn (sep : Char) : List Char → List (List Char)
  | [] => [[]]
  | c :: rest =>
    if c = sep then [] :: splitOn sep rest
    else match splitOn sep rest with
      | [] => [[c]]
      | s :: ss => (c :: s) :: ss

/-- The value of a decimal digit. -/
def decimalValue? (c : Char) : Option Nat :=
  if '0' ≤ c ∧ c ≤ '9' then some (c.toNat - 48) else none

/-- Read decimal digits on top of the value `acc`. -/
def decimalFrom? (acc : Nat) : List Char → Option Nat
  | [] => some acc
  | c :: rest => (decimalValue? c).bind fun v => decimalFrom? (acc * 10 + v) rest

/-- The number below `bound` of at least one decimal digit, after a plus sign if there is one. -/
def decimal? (bound : Nat) (s : List Char) : Option Nat :=
  let digits := match s with
    | '+' :: digits => digits
    | digits => digits
  match digits with
  | [] => none
  | _ => (decimalFrom? 0 digits).filter fun n => decide (n < bound)

/-- Characters filled up on the left to `width`. -/
def padLeft (fill : Char) (width : Nat) (s : String) : String :=
  String.ofList (List.replicate (width - s.length) fill) ++ s

/-- Decimal text of at least `width` characters, zeros standing between the sign and the digits. -/
def zeroPadded (width : Nat) (n : Int) : String :=
  if n < 0 then "-" ++ padLeft '0' (width - 1) (toString n.natAbs)
  else padLeft '0' width (toString n.natAbs)

/-- Items in square brackets. -/
def bracketed (items : List String) : String := "[" ++ String.intercalate ", " items ++ "]"

/-- Items in curly brackets. -/
def braced (items : List String) : String := "\x7b" ++ String.intercalate ", " items ++ "\x7d"

/-- A named value with fields, as in `Frame { len: 0 }`. -/
def record (name : String) (fields : List (String × String)) : String :=
  name ++ " \x7b " ++ String.intercalate ", " (fields.map fun f => f.1 ++ ": " ++ f.2) ++ " \x7d"

end UdpStack.Text
