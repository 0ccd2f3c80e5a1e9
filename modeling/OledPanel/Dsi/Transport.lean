import OledPanel.Action
import OledPanel.Dsi.CommandSet

/-! The link to the panel. A transport takes one message at a time and answers with the
bytes read, none for a write, or with a reason why the transfer failed. Everything that
reaches a panel goes through `transfer`. -/
namespace OledPanel.Dsi

/-- A host that performs transfers. It fails in one way, which is by reporting a failed transfer with
a reason of its own; the failure is known by the command of the message. This is how failures of hosts
are defined, and there is no other kind: that something is not supported, or that a device is busy, is
for a panel to find and nothing that a transfer answers. -/
class Transport (σ : Type) where
  transfer : Message → σ → Except String (List UInt8) × σ

variable {σ : Type} [Transport σ]

def transfer (m : Message) : Action σ (List UInt8) := fun h =>
  match Transport.transfer m h with
  | (.ok rx, h) => .ok rx h
  | (.error reason, h) => .error (.transfer m.cmd (.host reason)) h

/-- Writes bytes of which the first is the command. -/
def writeBuffer (tx : List UInt8) (last : Bool) : Action σ Unit := do
  let type ← Action.ofExcept (PacketType.ofLength tx.length)
  discard (transfer { type, tx, last })

/-- Writes a command with its parameters as a group of its own. -/
def write (cmd : UInt8) (params : List UInt8) : Action σ Unit := writeBuffer (cmd :: params) true

/-- Reads at most `n` bytes of a register. -/
def read (cmd : UInt8) (n : Nat) : Action σ (List UInt8) := do
  if n = 0 then throw (.invalid .emptyRead)
  let rx ← transfer { type := .read, tx := [cmd], rxLength := n, last := true }
  return rx.take n

namespace CommandSet

def message (set : CommandSet) (c : Command) : Message where
  type := c.type
  tx := c.payload
  last := c.last
  lowPower := set.state = .lowPower

/-- The messages of a set in the order they are sent. -/
def messages (set : CommandSet) : List Message := set.commands.map set.message

/-- Sends messages up to the first that fails. -/
def sendAll : List Message → Action σ Unit
  | [] => pure ()
  | m :: ms => do
    discard (transfer m)
    sendAll ms

def send (set : CommandSet) : Action σ Unit := sendAll set.messages

end CommandSet
end OledPanel.Dsi
