import OledPanel.Dsi.Transport
import OledPanel.Gamma.Buffer

/-! Reading gamma tables from a panel. Those of the 60 Hz timing are in one-time memory and
are read register by register; those of the 90 Hz timing are in serial flash and are read
byte by byte. A write that fails ends the reading, a read that fails or comes up short does
not. -/
namespace OledPanel.Gamma

open Dsi (writeBuffer)

def unlock : List UInt8 := [0xF0, 0x5A, 0x5A]
def lock : List UInt8 := [0xF0, 0xA5, 0xA5]

def flashModeOn : List UInt8 := [0xF1, 0xF1, 0xA2]
def flashModeOff : List UInt8 := [0xF1, 0xA5, 0xA5]
def programOff : List UInt8 := [0xC0, 0x00]
def programOn : List UInt8 := [0xC0, 0x02]
def execute : List UInt8 := [0xC0, 0x03]
def writeEnable : List UInt8 := [0xC1, 0, 0, 0, 0x06, 0, 0, 0, 0, 0, 0, 0, 0x05]
def quadEnable : List UInt8 := [0xC1, 0, 0, 0, 0x01, 0x40, 0x02, 0, 0, 0, 0, 0x10]

/-- The instruction to read the flash byte at an offset. -/
def flashRead (offset : Nat) : List UInt8 :=
  [0xC1, 0, 0, 0, 0x6B, 0, 0, 0, 0x0A, UInt8.ofNat (offset / 256), UInt8.ofNat (offset % 256), 0,
    0x05, 0x01]

def parameterPointer : UInt8 := 0xB0
def selectFlashData : List UInt8 := [parameterPointer, 0x0B]
def flashData : UInt8 := 0xFB

variable {σ : Type} [Dsi.Transport σ]

/-- What a register gives, and nothing where reading it fails. -/
def readSome (cmd : UInt8) (n : Nat) : Action σ (List UInt8) := do
  match ← Action.outcome (Dsi.read cmd n) with
  | .ok rx => return rx
  | .error _ => return []

def readOtpTable (b : Buffer) (t : Table) (i : Nat) : Action σ Buffer := do
  if t.parameter ≠ 0 then writeBuffer [parameterPointer, t.parameter] true
  return b.setPayload i 0 (← readSome t.cmd t.length)

/-- Reads the tables from `i` on into a buffer, by the way `read` reads one. -/
def readTables (read : Buffer → Table → Nat → Action σ Buffer) :
    List Table → Nat → Buffer → Action σ Buffer
  | [], _, b => return b
  | t :: ts, i, b => do readTables read ts (i + 1) (← read b t i)

def readOtp (ts : List Table) : Action σ Buffer := readTables readOtpTable ts 0 (Buffer.blank ts)

/-- The flash byte at an offset is the second of two that are read. -/
def readFlashByte (offset : Nat) : Action σ UInt8 := do
  writeBuffer (flashRead offset) true
  writeBuffer execute true
  writeBuffer selectFlashData true
  return (← readSome flashData 2).getD 1 0

/-- Reads `n` bytes of flash from an offset on. -/
def readFlashBytes : Nat → Nat → Action σ (List UInt8)
  | _, 0 => return []
  | offset, n + 1 => do
    let b ← readFlashByte offset
    return b :: (← readFlashBytes (offset + 1) n)

/-- A table from flash, without the bytes that come from one-time memory. -/
def readFlashTable (b : Buffer) (t : Table) (i : Nat) : Action σ Buffer := do
  let data ← readFlashBytes (t.flashOffset + t.otpLength) (t.length - t.otpLength)
  return b.setPayload i t.otpLength data

def enterFlashMode : Action σ Unit := do
  writeBuffer flashModeOn true
  writeBuffer programOn true
  writeBuffer writeEnable true
  writeBuffer execute true
  writeBuffer quadEnable true
  writeBuffer execute true

def leaveFlashMode : Action σ Unit := do
  writeBuffer programOff true
  writeBuffer flashModeOff true

def readFlash (ts : List Table) : Action σ Buffer := do
  enterFlashMode
  let b ← readTables readFlashTable ts 0 (Buffer.blank ts)
  leaveFlashMode
  return b

end OledPanel.Gamma
