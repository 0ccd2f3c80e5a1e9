import OledPanel.Error

/-! Messages on the DSI link. A message carries a packet type, the bytes sent, the number
of bytes asked back, and two flags. The packet type of a plain DCS write follows from the
number of bytes, the command byte included. -/
namespace OledPanel.Dsi

/-- Set display brightness. -/
def setBrightness : UInt8 := 0x51

/-- Get display brightness. -/
def getBrightness : UInt8 := 0x52

/-- Write control display. -/
def writeControl : UInt8 := 0x53

inductive PacketType where
  | shortWrite
  | shortWriteParam
  | longWrite
  | read
  /-- A data type taken as it is from a command set. -/
  | raw (code : UInt8)
deriving DecidableEq, Repr

namespace PacketType

/-- The data type identifier on the wire. -/
def code : PacketType → UInt8
  | .shortWrite => 0x05
  | .shortWriteParam => 0x15
  | .longWrite => 0x39
  | .read => 0x06
  | .raw code => code

def ofCode (code : UInt8) : PacketType :=
  if code = 0x05 then .shortWrite
  else if code = 0x15 then .shortWriteParam
  else if code = 0x39 then .longWrite
  else if code = 0x06 then .read
  else .raw code

/-- A code is on the wire what it was read as. -/
theorem code_ofCode (c : UInt8) : (ofCode c).code = c := by
  unfold ofCode
  split
  · simp_all [code]
  · split
    · simp_all [code]
    · split
      · simp_all [code]
      · split <;> simp_all [code]

/-- The type of a write of `n` bytes; there is no write of none. -/
def ofLength? : Nat → Option PacketType
  | 0 => none
  | 1 => some .shortWrite
  | 2 => some .shortWriteParam
  | _ + 3 => some .longWrite

def ofLength (n : Nat) : Except Error PacketType :=
  match ofLength? n with
  | some t => .ok t
  | none => .error (.invalid .emptyWrite)

def isShort : PacketType → Bool
  | .shortWrite | .shortWriteParam | .read => true
  | .longWrite | .raw _ => false

end PacketType

structure Message where
  type : PacketType
  /-- The bytes sent, the command byte first. -/
  tx : List UInt8
  /-- The number of bytes asked back. -/
  rxLength : Nat := 0
  /-- The last of a group, which the host may commit. -/
  last : Bool
  /-- Sent in low-power instead of high-speed transmission. -/
  lowPower : Bool := false
deriving DecidableEq, Repr

namespace Message

/-- The command byte, or zero without one. -/
def cmd (m : Message) : UInt8 := m.tx.headD 0

def isRead (m : Message) : Bool := m.type = .read

end Message
end OledPanel.Dsi
