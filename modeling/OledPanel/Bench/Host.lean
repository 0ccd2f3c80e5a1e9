import OledPanel.Dsi.Transport

/-! A transport in memory with a register file and a serial flash. A write with parameters
sets the register it addresses, a read gives its contents. Writes of the parameter pointer
change no register. The flash is read one byte at a time through a data register, at the
address of the last read instruction. Two kinds of fault can be set: a command that always
fails, and one failure of a transfer to come, which does not reach the registers or the log. -/
namespace OledPanel.Bench

open Dsi (Message)

def flashData : UInt8 := 0xFB
def flashControl : UInt8 := 0xC1
def flashRead : UInt8 := 0x6B
def parameterPointer : UInt8 := 0xB0

structure Host where
  log : Array Message := #[]
  registers : List (UInt8 × List UInt8) := []
  /-- Blocks of flash contents with their addresses, the newest first. -/
  flash : List (Nat × List UInt8) := []
  flashAddress : Nat := 0
  /-- The commands every transfer of which fails. -/
  failing : List UInt8 := []
  /-- The number of transfers to pass before one fails. -/
  countdown : Option Nat := none

namespace Host

def register? (h : Host) (cmd : UInt8) : Option (List UInt8) := h.registers.lookup cmd

def setRegister (h : Host) (cmd : UInt8) (data : List UInt8) : Host :=
  { h with registers := (cmd, data) :: h.registers.filter (·.1 ≠ cmd) }

/-- Striking out the entries of one register leaves those of every other. -/
theorem lookup_filter_ne {cmd x : UInt8} (hx : x ≠ cmd) (rs : List (UInt8 × List UInt8)) :
    (rs.filter (·.1 ≠ cmd)).lookup x = rs.lookup x := by
  induction rs with
  | nil => rfl
  | cons r rs ih =>
    by_cases hr : r.1 = cmd
    · have h : (x == r.1) = false := beq_false_of_ne fun e => hx (e.trans hr)
      rw [List.filter_cons_of_neg (by simp [hr]), ih, List.lookup_cons, h]
    · rw [List.filter_cons_of_pos (by simp [hr]), List.lookup_cons, List.lookup_cons, ih]

/-- A register holds what it was set to last. -/
theorem register?_setRegister (h : Host) (cmd x : UInt8) (data : List UInt8) :
    (h.setRegister cmd data).register? x = if x = cmd then some data else h.register? x := by
  by_cases hx : x = cmd
  · simp [setRegister, register?, hx]
  · have h' : (x == cmd) = false := beq_false_of_ne hx
    simp only [setRegister, register?, List.lookup_cons, h', hx, if_false]
    exact lookup_filter_ne hx h.registers

def setFlash (h : Host) (address : Nat) (data : List UInt8) : Host :=
  { h with flash := (address, data) :: h.flash }

/-- The byte of the newest block that covers the address, or zero. -/
def flashByte (h : Host) (address : Nat) : UInt8 :=
  (h.flash.findSome? fun b => if b.1 ≤ address then b.2[address - b.1]? else none).getD 0

/-- The payloads of the writes of a command, the command byte included. -/
def writesTo (h : Host) (cmd : UInt8) : List (List UInt8) :=
  (h.log.toList.filter fun m => !m.isRead && m.cmd = cmd).map (·.tx)

/-- The address a flash read instruction carries. -/
def instruction? (m : Message) : Option Nat :=
  if m.cmd = flashControl && 11 ≤ m.tx.length && m.tx[4]? = some flashRead then
    some ((m.tx.getD 9 0).toNat * 256 + (m.tx.getD 10 0).toNat)
  else none

/-- What a message that does not fail does to the panel, and the bytes it reads. -/
def respond (m : Message) (h : Host) : List UInt8 × Host :=
  if m.isRead then
    if m.cmd = flashData then ([0, h.flashByte h.flashAddress], h)
    else ((h.register? m.cmd).getD [], h)
  else
    match instruction? m with
    | some a => ([], { h with flashAddress := a })
    | none =>
      if m.cmd ≠ parameterPointer ∧ 1 < m.tx.length then ([], h.setRegister m.cmd m.tx.tail)
      else ([], h)

/-- A message that reaches the panel is in the log, whether it fails or not. -/
def deliver (m : Message) (h : Host) : Except String (List UInt8) × Host :=
  let h := { h with log := h.log.push m }
  if h.failing.contains m.cmd then (.error "injected failure", h)
  else
    let (rx, h) := respond m h
    (.ok rx, h)

instance : Dsi.Transport Host where
  transfer m h :=
    match h.countdown with
    | none => deliver m h
    | some 0 => (.error "injected fault", { h with countdown := none })
    | some (n + 1) => deliver m { h with countdown := some n }

end Host
end OledPanel.Bench
