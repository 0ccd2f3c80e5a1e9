import OledPanel.Dsi.Transport
import OledPanel.Node.Basic

/-! Image-retention compensation, one bit of a register. The register is read on first use
and kept; afterwards the kept bytes are changed and written. Both happen between an unlock
and a lock set, and the lock set is sent whatever fails before it. -/
namespace OledPanel.Hbm

structure Irc where
  address : UInt8
  /-- The bit, counted from the lowest of the first byte. -/
  bit : Nat
  unlock : Dsi.CommandSet
  lock : Dsi.CommandSet
deriving DecidableEq, Repr

namespace Irc

def keyAddress : String := "google,dsi-irc-addr"
def keyBit : String := "google,dsi-irc-bit-offset"
def keyUnlock : String := "google,dsi-irc-unlock-command"
def keyUnlockState : String := "google,dsi-irc-unlock-commands-state"
def keyLock : String := "google,dsi-irc-lock-command"
def keyLockState : String := "google,dsi-irc-lock-commands-state"

/-- The sets of a panel that has both or neither; one alone leaves the bit unused. -/
def paired (address : UInt8) (bit : UInt32) : Option Dsi.CommandSet → Option Dsi.CommandSet → Option Irc
  | some unlock, some lock => some ⟨address, bit.toNat, unlock, lock⟩
  | none, none => some ⟨address, bit.toNat, {}, {}⟩
  | _, _ => none

def ofNode (n : Node) : Except Error (Option Irc) := do
  let some address ← n.cell keyAddress | return none
  if 256 ≤ address then throw (.config keyAddress (.notRegister address))
  if address = 0 then return none
  let some bit ← n.cell keyBit | return none
  let unlock ← n.commandSet keyUnlock keyUnlockState
  let lock ← n.commandSet keyLock keyLockState
  return paired address.toUInt8 bit unlock lock

/-- The byte of the register that holds the bit. -/
def index (i : Irc) : Nat := i.bit / 8

def mask (i : Irc) : UInt8 := 1 <<< UInt8.ofNat (i.bit % 8)

/-- The number of bytes of the register up to the bit. -/
def size (i : Irc) : Nat := i.index + 1

def withBit (i : Irc) (on : Bool) (bytes : List UInt8) : List UInt8 :=
  bytes.modify i.index fun b => if on then b ||| i.mask else b &&& ~~~i.mask

variable {σ : Type} [Dsi.Transport σ]

/-- The whole register up to the bit, or an error. -/
def fetch (i : Irc) : Action σ (List UInt8) := do
  let rx ← Dsi.read i.address i.size
  if rx.length = i.size then return rx
  throw (.transfer i.address .shortIrcRead)

end Irc
end OledPanel.Hbm
