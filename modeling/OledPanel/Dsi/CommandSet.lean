import OledPanel.Dsi.Message

/-! Command sets and their packed form. In the packed form each command is a record: the
packet type, the last flag, two bytes without use here, the delay in milliseconds, the
payload length with the high byte first, and the payload. -/
namespace OledPanel.Dsi

/-- How the commands of a set are transmitted. -/
inductive LinkState where
  | lowPower
  | highSpeed
deriving DecidableEq, Repr

/-- The state a description names; every other name is high speed. -/
def LinkState.ofName (name : String) : LinkState :=
  if name = "dsi_lp_mode" then .lowPower else .highSpeed

structure Command where
  type : PacketType
  last : Bool
  /-- The delay after the command. -/
  waitMs : Nat
  /-- The command byte and its parameters. -/
  payload : List UInt8
deriving DecidableEq, Repr

structure CommandSet where
  commands : List Command := []
  state : LinkState := .highSpeed
deriving DecidableEq, Repr

namespace CommandSet

def isEmpty (s : CommandSet) : Bool := s.commands.isEmpty

/-- The payloads as plain writes, each the last of its group. -/
def ofPayloads (payloads : List (List UInt8)) : Except Error CommandSet := do
  let commands ← payloads.mapM fun p => do
    let type ← PacketType.ofLength p.length
    return { type, last := true, waitMs := 0, payload := p : Command }
  return { commands }

/-- The number two bytes stand for, the high one first. -/
def word (hi lo : UInt8) : Nat := hi.toNat * 256 + lo.toNat

/-- The records of the packed form, the whole of it or none. -/
def unpack : List UInt8 → Except Malformed (List Command)
  | [] => .ok []
  | type :: last :: _ :: _ :: wait :: hi :: lo :: rest =>
    if rest.length < word hi lo then
      .error (.truncatedPayload (word hi lo) rest.length)
    else if word hi lo = 0 then
      .error .emptyPayload
    else
      match unpack (rest.drop (word hi lo)) with
      | .ok commands =>
        .ok (⟨.ofCode type, last != 0, wait.toNat, rest.take (word hi lo)⟩ :: commands)
      | .error e => .error e
  | header => .error (.truncatedHeader header.length)
termination_by bytes => bytes.length
decreasing_by
  simp only [List.length_drop, List.length_cons]
  omega

def ofPacked (bytes : List UInt8) (state : LinkState) : Except Malformed CommandSet :=
  (unpack bytes).map fun commands => { commands, state }

/-- The record of a payload: its type from its length, last of its group, no delay. A length
that two bytes cannot hold is written as the largest they can. -/
def record (payload : List UInt8) : List UInt32 :=
  let type : UInt32 := match payload.length with
    | 1 => 0x05
    | 2 => 0x15
    | _ => 0x39
  let length := min payload.length 0xFFFF
  [type, 1, 0, 0, 0, UInt32.ofNat (length / 256), UInt32.ofNat (length % 256)]
    ++ payload.map UInt8.toUInt32

/-- The cells of a packed command set with one command for each payload. -/
def pack (payloads : List (List UInt8)) : List UInt32 := payloads.flatMap record

end CommandSet
end OledPanel.Dsi
