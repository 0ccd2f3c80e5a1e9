import OledPanel.Text.Hex

/-! The power state of a panel as a word of bits, and the transitions between the levels of
display power management. Bits without a name are carried along unchanged. -/
namespace OledPanel

structure PowerBits where
  suspended : Bool := false
  blanked : Bool := false
  lp : Bool := false
  lp2 : Bool := false
  /-- The bits without a name. -/
  reserved : UInt32 := 0
deriving DecidableEq, Repr

namespace PowerBits

def suspendedBit : UInt32 := 0x1
def blankedBit : UInt32 := 0x2
def lpBit : UInt32 := 0x20000000
def lp2Bit : UInt32 := 0x40000000
def named : UInt32 := suspendedBit ||| blankedBit ||| lpBit ||| lp2Bit

def ofWord (w : UInt32) : PowerBits where
  suspended := w &&& suspendedBit != 0
  blanked := w &&& blankedBit != 0
  lp := w &&& lpBit != 0
  lp2 := w &&& lp2Bit != 0
  reserved := w &&& ~~~named

def word (b : PowerBits) : UInt32 :=
  (if b.suspended then suspendedBit else 0) ||| (if b.blanked then blankedBit else 0) |||
    (if b.lp then lpBit else 0) ||| (if b.lp2 then lp2Bit else 0) ||| b.reserved

/-- A bit that is set when the word has it is the word's own. -/
theorem ite_and_eq_and (w m : UInt32) (i : Nat) (h : m.toBitVec = BitVec.twoPow 32 i) :
    (if w &&& m != 0 then m else 0) = w &&& m := by
  have key : w &&& m = if w.toBitVec.getLsbD i then m else 0 := by
    apply UInt32.toBitVec_inj.1
    rw [UInt32.toBitVec_and, h, BitVec.and_twoPow]
    split <;> simp [h]
  rw [key]
  by_cases hb : w.toBitVec.getLsbD i
  · by_cases hm : m = 0 <;> simp [hb, hm]
  · simp [hb]

/-- The bits of a word are the word again. -/
theorem word_ofWord (w : UInt32) : (ofWord w).word = w := by
  have join (a b : UInt32) : w &&& a ||| w &&& b = w &&& (a ||| b) := by
    apply UInt32.toBitVec_inj.1
    ext i hi
    simp [Bool.and_or_distrib_left]
  change (if w &&& suspendedBit != 0 then suspendedBit else 0) |||
    (if w &&& blankedBit != 0 then blankedBit else 0) ||| (if w &&& lpBit != 0 then lpBit else 0) |||
    (if w &&& lp2Bit != 0 then lp2Bit else 0) ||| w &&& ~~~named = w
  rw [ite_and_eq_and w suspendedBit 0 rfl, ite_and_eq_and w blankedBit 1 rfl,
    ite_and_eq_and w lpBit 29 rfl, ite_and_eq_and w lp2Bit 30 rfl, join, join, join, join]
  have h : suspendedBit ||| blankedBit ||| lpBit ||| lp2Bit ||| ~~~named = -1 := by decide
  rw [h, UInt32.and_neg_one]

/-- The bits that have a name. -/
def known (b : PowerBits) : PowerBits := { b with reserved := 0 }

/-- Either low-power level is active. -/
def isLowPower (b : PowerBits) : Bool := b.lp || b.lp2

/-- Blanked or suspended. -/
def isStandby (b : PowerBits) : Bool := b.blanked || b.suspended

def isOn (b : PowerBits) : Bool := !b.isLowPower && !b.isStandby

/-- The names of the bits that are set, in ascending order. -/
def names (b : PowerBits) : List String :=
  (if b.suspended then ["SUSPENDED"] else []) ++ (if b.blanked then ["FBBLANK"] else []) ++
    (if b.lp then ["LP"] else []) ++ (if b.lp2 then ["LP2"] else [])

/-- The names of the bits that are set, and what has no name as a number. -/
def text (b : PowerBits) : String :=
  match b.names ++ (if b.reserved = 0 then [] else [Text.cellHex b.reserved]) with
  | [] => Text.cellHex 0
  | parts => " | ".intercalate parts

end PowerBits

inductive Power where
  | up
  | down
deriving DecidableEq, Repr

inductive Dpms where
  | on
  | off
  | lp1
  | lp2
deriving DecidableEq, Repr

/-- The state after a transition. The suspended bit is not touched. -/
def Dpms.apply : Dpms → PowerBits → PowerBits
  | .on, b => { b with blanked := false, lp := false, lp2 := false }
  | .off, b => { b with blanked := true, lp := false, lp2 := false }
  | .lp1, b => { b with lp := true, lp2 := false }
  | .lp2, b => { b with lp := true, lp2 := true }

/-- The level reported for a framebuffer power and a state. -/
def Dpms.of (power : Power) (b : PowerBits) : Dpms :=
  match power with
  | .down => .off
  | .up => if b.lp2 then .lp2 else if b.lp then .lp1 else .on

/-- The operating mode of the supply regulator. -/
inductive RegulatorMode where
  | normal
  | idle
  | standby
deriving DecidableEq, Repr

def PowerBits.regulatorMode (b : PowerBits) : RegulatorMode :=
  if b.isStandby then .standby else if b.isLowPower then .idle else .normal

/-- High-brightness mode. -/
inductive HbmMode where
  | off
  | on
  /-- Sunlight visibility. -/
  | sunlight
deriving DecidableEq, Repr

namespace HbmMode

def ofInt? : Int → Option HbmMode
  | 0 => some .off
  | 1 => some .on
  | 2 => some .sunlight
  | _ => none

def toNat : HbmMode → Nat
  | .off => 0
  | .on => 1
  | .sunlight => 2

def isOn (m : HbmMode) : Bool := m ≠ .off

theorem ofInt?_toNat (m : HbmMode) : ofInt? m.toNat = some m := by cases m <;> rfl

end HbmMode
end OledPanel
