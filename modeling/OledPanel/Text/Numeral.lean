/-! Numerals: digits in a radix, an optional sign in front, and a bound on the value.
A reading either takes the whole text or fails; a text without a digit is no numeral. -/
namespace OledPanel.Text

/-- The value of a digit, letters of either case counting from ten. -/
def digitValue (c : Char) : Option Nat :=
  if '0' ≤ c ∧ c ≤ '9' then some (c.toNat - '0'.toNat)
  else if 'a' ≤ c ∧ c ≤ 'z' then some (c.toNat - 'a'.toNat + 10)
  else if 'A' ≤ c ∧ c ≤ 'Z' then some (c.toNat - 'A'.toNat + 10)
  else none

def digitIn (radix : Nat) (c : Char) : Option Nat :=
  (digitValue c).filter (· < radix)

/-- The value of a run of digits, the most significant first, on top of `high`. -/
def digitsFrom (radix : Nat) : Nat → List Char → Option Nat
  | high, [] => some high
  | high, c :: cs => (digitIn radix c).bind fun d => digitsFrom radix (radix * high + d) cs

/-- One digit or more. -/
def natural (radix : Nat) : List Char → Option Nat
  | [] => none
  | cs => digitsFrom radix 0 cs

/-- A natural number below `limit`, with or without a plus sign. -/
def unsigned (radix limit : Nat) (cs : List Char) : Option Nat :=
  (natural radix (match cs with
    | '+' :: ds => ds
    | ds => ds)).filter (· < limit)

/-- An integer with or without a sign, in the range of `bits`-bit two's complement. -/
def signed (radix bits : Nat) (cs : List Char) : Option Int :=
  let value := match cs with
    | '+' :: ds => (natural radix ds).map Int.ofNat
    | '-' :: ds => (natural radix ds).map fun n => -(Int.ofNat n)
    | ds => (natural radix ds).map Int.ofNat
  let half : Int := Int.ofNat (1 <<< (bits - 1))
  value.filter fun v => -half ≤ v && v < half

/-- Decimal digits without leading zeros. -/
def decimal (n : Nat) : String := String.ofList (Nat.toDigits 10 n)

end OledPanel.Text
