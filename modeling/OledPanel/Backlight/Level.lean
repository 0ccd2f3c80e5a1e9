import OledPanel.Backlight.Config
import OledPanel.Dsi.Transport

/-! Panel levels as the parameters of the brightness command. A panel whose highest level
does not fit in the low byte takes two bytes, the high one first; any other takes one. -/
namespace OledPanel.Backlight

open Dsi (Transport)

variable {σ : Type} [Transport σ]

/-- Levels of the panel go beyond the low byte. -/
def Config.isWide (c : Config) : Bool := c.lowBits < 32 && (1 <<< c.lowBits) ≤ c.map.highest.toNat

/-- The parameter bytes of a level; bits a byte cannot hold are lost. -/
def Config.encode (c : Config) (level : UInt32) : List UInt8 :=
  if c.isWide then
    [UInt8.ofNat (level.toNat >>> c.lowBits), UInt8.ofNat (level.toNat % (1 <<< c.lowBits))]
  else [level.toUInt8]

/-- The level that parameter bytes stand for. -/
def Config.decode (c : Config) : List UInt8 → Option Nat
  | [b] => some b.toNat
  | [high, low] => some ((high.toNat <<< c.lowBits) + low.toNat)
  | _ => none

/-- Writes a level, unless the panel shows it already. -/
def Config.writeLevel (c : Config) (shown : Option UInt32) (level : UInt32) : Action σ Unit :=
  if 0xFFFF < level then throw (.invalid .levelTooWide)
  else if shown = some level then pure ()
  else Dsi.write Dsi.setBrightness (c.encode level)

/-- The number of bits up to the highest one that is set. -/
def bitLength (n : Nat) : Nat := if n = 0 then 0 else Nat.log2 n + 1

/-- The level that the bytes of a brightness register hold, one byte or two. -/
def registerLevel : List UInt8 → Option Nat
  | [b] => some b.toNat
  | [high, low] => some (high.toNat * 256 + low.toNat)
  | _ => none

/-- A level without the bits that no level of the panel has. -/
def Config.masked (c : Config) (level : Nat) : UInt32 :=
  UInt32.ofNat (level % (1 <<< bitLength c.map.highest.toNat))

/-- The user brightness of the level the panel shows by itself. -/
def Config.handoff (c : Config) : Action σ UInt32 := do
  let rx ← Dsi.read Dsi.getBrightness 2
  match registerLevel rx with
  | some level => Action.ofExcept (c.map.brightness (c.masked level))
  | none => throw (.transfer Dsi.getBrightness (.readLength rx.length))

end OledPanel.Backlight
