import OledPanel.Node.Basic

/-! Gamma tables, the calibration data a panel family keeps for each timing. A table is a
register with its command byte and a payload of fixed length. All tables of a timing lie in
one buffer behind each other, each with its command byte in front, so that a table is written
to the panel as it lies there. -/
namespace OledPanel.Gamma

structure Table where
  cmd : UInt8
  length : Nat
  /-- The number of leading payload bytes that come from one-time memory, never from flash. -/
  otpLength : Nat
  /-- The place of the payload in flash. -/
  flashOffset : Nat := 0
  /-- Sent in one group with the next table. -/
  grouped : Bool := false
  /-- The parameter selected before the register is read, zero for none. -/
  parameter : UInt8 := 0
deriving DecidableEq, Repr

/-- The tables in the order in which they are sent. -/
def tables : List Table :=
  [{ cmd := 0xC8, length := 135, otpLength := 0, flashOffset := 0x0000 },
    { cmd := 0xC9, length := 180, otpLength := 0, flashOffset := 0x0087, grouped := true },
    { cmd := 0xB3, length := 45, otpLength := 2, flashOffset := 0x013B, parameter := 0x02 }]

structure Buffer where
  bytes : List UInt8
  /-- Where each table starts. -/
  starts : List Nat
deriving DecidableEq, Repr

namespace Buffer

/-- Puts one more table of zeros behind those of a buffer. -/
def addTable (b : Buffer) (t : Table) : Buffer where
  bytes := b.bytes ++ t.cmd :: List.replicate t.length 0
  starts := b.starts ++ [b.bytes.length]

/-- The command bytes of tables, and zeros for all else. -/
def blank (ts : List Table) : Buffer := ts.foldl addTable ⟨[], []⟩

def start (b : Buffer) (i : Nat) : Nat := b.starts.getD i b.bytes.length

/-- A table ends where the next starts. -/
def stop (b : Buffer) (i : Nat) : Nat := b.starts.getD (i + 1) b.bytes.length

/-- A table with its command byte. -/
def table (b : Buffer) (i : Nat) : List UInt8 :=
  (b.bytes.take (b.stop i)).drop (b.start i)

def payload (b : Buffer) (i : Nat) : List UInt8 := (b.table i).tail

/-- Bytes laid over a list from a place on, as far as it reaches. -/
def overwrite : Nat → List UInt8 → List UInt8 → List UInt8
  | _, _, [] => []
  | _, [], bs => bs
  | 0, x :: xs, _ :: bs => x :: overwrite 0 xs bs
  | n + 1, xs, b :: bs => b :: overwrite n xs bs

/-- Lays bytes over the payload of a table from payload byte `j` on. -/
def setPayload (b : Buffer) (i j : Nat) (data : List UInt8) : Buffer :=
  { b with bytes := overwrite (b.start i + 1 + j) data b.bytes }

/-- Takes the payload bytes that come from one-time memory from another buffer. -/
def mergeTable (other : Buffer) (b : Buffer) (t : Table) (i : Nat) : Buffer :=
  b.setPayload i 0 ((other.payload i).take (min t.otpLength t.length))

def merge (b other : Buffer) (ts : List Table) : Buffer :=
  ts.zipIdx.foldl (fun b t => mergeTable other b t.1 t.2) b

end Buffer

/-- The panel family that keeps gamma tables. -/
def compatible : String := "google,dsi_s6e3hc2_gamma"

/-- How a panel changes its refresh rate. -/
inductive Family where
  /-- By the commands of the timing alone. -/
  | generic
  /-- By the control register and the gamma tables of the timing besides. -/
  | gamma
deriving DecidableEq, Repr

def Family.ofNode (n : Node) : Family := if n.isCompatible compatible then .gamma else .generic

end OledPanel.Gamma
