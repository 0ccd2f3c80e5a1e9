/-! Hexadecimal text of bytes and cells, and its reading back into bytes. -/
namespace OledPanel.Text

def upperDigit (n : Nat) : Char :=
  if n < 10 then Char.ofNat ('0'.toNat + n) else Char.ofNat ('A'.toNat + (n - 10))

/-- Two upper-case digits, the high one first. -/
def byteHex (b : UInt8) : List Char := [upperDigit (b.toNat / 16), upperDigit (b.toNat % 16)]

/-- The digits of every byte, without separators. -/
def bytesHex (bs : List UInt8) : String := String.ofList (bs.flatMap byteHex)

/-- A cell in lower-case digits behind `0x`, without leading zeros. -/
def cellHex (c : UInt32) : String := "0x" ++ String.ofList (Nat.toDigits 16 c.toNat)

end OledPanel.Text
