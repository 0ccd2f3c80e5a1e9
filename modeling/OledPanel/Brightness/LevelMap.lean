import OledPanel.Brightness.Interpolate
import OledPanel.Node.Basic

/-! The mapping from user brightness to panel level outside high-brightness mode. It is
linear between the lowest level above zero and the highest, or a table with one level for
each user brightness. -/
namespace OledPanel

structure LevelMap where
  lowest : UInt32 := 0
  highest : UInt32 := 4096
  maxBrightness : UInt32 := 255
  /-- The levels by user brightness, where they are given one by one. -/
  table : Option (List UInt16) := none
deriving DecidableEq, Repr

namespace LevelMap

def keyLowest : String := "qcom,mdss-dsi-bl-min-level"
def keyHighest : String := "qcom,mdss-dsi-bl-max-level"
def keyMaxBrightness : String := "qcom,mdss-brightness-max-level"
def keyTable : String := "qcom,mdss-dsi-bl-lut"

/-- A table of any other length than one level for each brightness is left unused. -/
def tableOf (maxBrightness : UInt32) (cells : List UInt32) : Option (List UInt16) :=
  if cells.length = maxBrightness.toNat + 1 then some (cells.map UInt32.toUInt16) else none

def ofNode (n : Node) : Except Error LevelMap := do
  let lowest := (← n.cell keyLowest).getD 0
  let highest := (← n.cell keyHighest).getD 4096
  let maxBrightness := (← n.cell keyMaxBrightness).getD 255
  let table := (← n.cells keyTable).bind (tableOf maxBrightness)
  return { lowest, highest, maxBrightness, table }

/-- The lowest level of a panel that is lit. -/
def dimmest (m : LevelMap) : UInt32 := max m.lowest 1

/-- The level of a scaled brightness. A table is held at its last brightness. -/
def level (m : LevelMap) (b : UInt32) : Except Error UInt32 :=
  match m.table with
  | some levels =>
    match levels[(min b m.maxBrightness).toNat]? with
    | some l => .ok l.toUInt32
    | none => .error (.noMatchingRange b)
  | none => Brightness.interpolate 1 m.maxBrightness m.dimmest m.highest b

/-- The user brightness of a level read back from the panel. -/
def brightness (m : LevelMap) (level : UInt32) : Except Error UInt32 :=
  Brightness.interpolate m.lowest m.highest 1 m.maxBrightness level

end LevelMap
end OledPanel
