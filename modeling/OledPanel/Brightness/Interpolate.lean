import OledPanel.Error

/-! Arithmetic on brightnesses and levels, which are 32-bit words. Products are formed in
64 bits, which hold the product of two words and half a word more, so nothing wraps. -/
namespace OledPanel.Brightness

/-- The product of `x` and `numerator` over `denominator`, rounded down, and no more than a
word holds. A zero denominator gives zero. -/
def multFrac (x numerator denominator : UInt32) : UInt32 :=
  if denominator = 0 then 0
  else
    let v := x.toUInt64 * numerator.toUInt64 / denominator.toUInt64
    if v < 0x100000000 then v.toUInt32 else 0xFFFFFFFF

/-- The point of `[y1, y2]` that lies as `x` does in `[x1, x2]`, rounded to the nearest, a
half upwards. Outside the source range the near end is taken; a source range of one point
gives `y1`. -/
def interpolate (x1 x2 y1 y2 x : UInt32) : Except Error UInt32 :=
  if x2 < x1 ∨ y2 < y1 then .error (.invertedRange x1 x2 y1 y2)
  else if x2 = x1 ∨ x ≤ x1 then .ok y1
  else if x2 ≤ x then .ok y2
  else
    let width := (x2 - x1).toUInt64
    let scaled := (x - x1).toUInt64 * (y2 - y1).toUInt64
    .ok (y1 + ((scaled + width / 2) / width).toUInt32)

/-- The value of a scale factor that leaves a brightness as it is. -/
def fullScale : UInt32 := 1024

/-- Both scale factors of a brightness, one after the other. -/
def scale (b factor sunlightFactor : UInt32) : UInt32 :=
  multFrac (multFrac b factor fullScale) sunlightFactor fullScale

end OledPanel.Brightness
