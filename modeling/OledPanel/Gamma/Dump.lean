import OledPanel.Gamma.Buffer
import OledPanel.Text.Hex
import OledPanel.Text.Numeral

/-! The text in which gamma tables are shown: a heading for each timing, then a row for each
table with eight bytes to a line. -/
namespace OledPanel.Gamma

/-- The payload bytes from `j` on, each behind a space, with a new line before every eighth. -/
def rows : Nat → List UInt8 → String
  | _, [] => ""
  | j, b :: bs =>
    (if 0 < j ∧ j % 8 = 0 then "\n     " else "") ++ " " ++ String.ofList (Text.byteHex b) ++
      rows (j + 1) bs

def tableText (b : Buffer) (t : Table) (i : Nat) : String :=
  "0x" ++ String.ofList (Text.byteHex t.cmd) ++ ":" ++ rows 0 (b.payload i) ++ "\n"

def bufferText : Option Buffer → String
  | none => "No data available!\n"
  | some b => String.join (tables.zipIdx.map fun t => tableText b t.1 t.2)

/-- The tables of the timings with these rates. -/
def dump (rates : List UInt32) (buffers : List (Option Buffer)) : String :=
  String.join ((rates.zip buffers).map fun r =>
    "\n=== " ++ Text.decimal r.1.toNat ++ "hz Mode Gamma ===\n" ++ bufferText r.2)

end OledPanel.Gamma
