import OledPanel.Backlight.Config

/-! Ambient-light categories of brightness. The thresholds divide user brightness into
categories; a change of category is announced. -/
namespace OledPanel.Backlight

structure Als where
  thresholds : List UInt32
  /-- The category announced last. -/
  category : Nat := 0
deriving DecidableEq, Repr

namespace Als

/-- The first threshold that covers a brightness. -/
def find? (a : Als) (b : UInt32) : Option Nat := a.thresholds.findIdx? (b ≤ ·)

/-- The categories after a brightness, and whether they changed. -/
def observe (a : Als) (b : UInt32) : Als × Bool :=
  match a.find? b with
  | some i => if i = a.category then (a, false) else ({ a with category := i }, true)
  | none => (a, false)

/-- A table has to have an entry and not too many. -/
def replace (a : Als) (thresholds : List UInt32) : Except Error Als :=
  if thresholds.isEmpty ∨ maxThresholds < thresholds.length then .error (.invalid .alsTableSize)
  else .ok { a with thresholds }

end Als
end OledPanel.Backlight
