import OledPanel.Node.Property
import OledPanel.Text.Hex
import OledPanel.Text.Numeral

/-! The ways in which driving a panel can fail, each with its cause. `Error.message` is
the text shown for a failure and `Error.errno` the number an attribute write answers. -/
namespace OledPanel

/-- What is wrong with an argument or a request. -/
inductive Rejection where
  | emptyWrite
  | emptyRead
  | levelTooWide
  | dutyAbovePeriod
  | brightnessAboveMax
  | scaleAboveMax
  | panelBlanked
  | sunlightNotEnabled
  | noMatchingMode
  | notInitialized
  | noAlsTable
  | alsTableSize
  | alsListLength
  | unknownRefreshRate
  | unknownHbmMode
  | readOnlyAttribute
deriving DecidableEq, Repr

def Rejection.message : Rejection → String
  | .emptyWrite => "empty DCS write"
  | .emptyRead => "zero-length DCS read"
  | .levelTooWide => "backlight level above 0xffff"
  | .dutyAbovePeriod => "duty above period"
  | .brightnessAboveMax => "brightness above max"
  | .scaleAboveMax => "scale above max"
  | .panelBlanked => "panel blanked"
  | .sunlightNotEnabled => "hbm sv not enabled"
  | .noMatchingMode => "no matching mode"
  | .notInitialized => "panel not initialized"
  | .noAlsTable => "no backlight notifier"
  | .alsTableSize => "als table size"
  | .alsListLength => "bad als table length"
  | .unknownRefreshRate => "unknown refresh rate"
  | .unknownHbmMode => "unknown hbm mode"
  | .readOnlyAttribute => "read-only attribute"

/-- Text or bytes that are not in the form they should have. -/
inductive Malformed where
  | truncatedHeader (left : Nat)
  | truncatedPayload (needed left : Nat)
  | emptyPayload
  | modeText (text : String)
  | integer (text : String)
  /-- Not a wrong form: the number that the text spells is beyond the arithmetic of its reader. -/
  | overflow
  | decimal (text : String)
  | outOfRange (value : Int)
  | boolean (text : String)
deriving DecidableEq, Repr

def Malformed.message : Malformed → String
  | .truncatedHeader left => "truncated command header (" ++ Text.decimal left ++ " bytes left)"
  | .truncatedPayload needed left =>
    "command payload needs " ++ Text.decimal needed ++ " bytes, " ++ Text.decimal left ++ " left"
  | .emptyPayload => "empty command payload"
  | .modeText text => "invalid mode string '" ++ text ++ "'"
  | .integer text => "invalid integer '" ++ text ++ "'"
  | .overflow => "integer overflow"
  | .decimal text => "invalid decimal '" ++ text ++ "'"
  | .outOfRange value =>
    (if value < 0 then "-" else "") ++ Text.decimal value.natAbs ++ " out of range"
  | .boolean text => "invalid bool '" ++ text ++ "'"

/-- Why a property or a child node of the description is rejected. -/
inductive ConfigFault where
  | wrongType (expected found : Property.Kind)
  | notByte (cell : UInt32)
  | notRegister (cell : UInt32)
  | badCommands (cause : Malformed)
  | missing
  | unspecified
  | rangeCount (n : Nat)
  | unpairedDimming
  | thresholdAboveMax
  | levelsInverted
  | rangesUnsorted
  | noLowPowerCommand
deriving DecidableEq, Repr

def ConfigFault.message : ConfigFault → String
  | .wrongType expected found => "expected " ++ expected.name ++ ", found " ++ found.name
  | .notByte cell => "cell " ++ Text.cellHex cell ++ " is not a byte"
  | .notRegister cell => Text.cellHex cell ++ " is not a DCS register"
  | .badCommands cause => "Parse error: " ++ cause.message
  | .missing => "missing"
  | .unspecified => "unspecified"
  | .rangeCount n => "invalid number of HBM ranges: " ++ Text.decimal n
  | .unpairedDimming => "HBM dimming requires both stop command and number of frames"
  | .thresholdAboveMax => "threshold exceeds max userspace brightness"
  | .levelsInverted => "bl-max-level < bl-min-level"
  | .rangesUnsorted => "HBM ranges must be sorted by brightness threshold"
  | .noLowPowerCommand => "unable to parse dsi-lp-command"

/-- Why a transfer counts as failed: the host says so, or too few bytes came back. -/
inductive TransferFault where
  | host (reason : String)
  | shortIrcRead
  | readLength (n : Nat)
deriving DecidableEq, Repr

def TransferFault.message : TransferFault → String
  | .host reason => reason
  | .shortIrcRead => "short irc read"
  | .readLength n => "read " ++ Text.decimal n ++ " bytes"

/-- What was waited for in vain. -/
inductive Awaited where
  | vblank
  | regulator
deriving DecidableEq, Repr

def Awaited.name : Awaited → String
  | .vblank => "vblank"
  | .regulator => "regulator"

inductive Error where
  | invalid (why : Rejection)
  | notSupported
  | noDevice
  | noMemory
  | timeout (what : Awaited)
  | busy
  | noMatchingRange (brightness : UInt32)
  | malformed (why : Malformed)
  | invertedRange (x1 x2 y1 y2 : UInt32)
  | config (key : String) (why : ConfigFault)
  | transfer (cmd : UInt8) (why : TransferFault)
  | json
  | file
deriving DecidableEq, Repr

namespace Error

private def range (a b : UInt32) : String :=
  "[" ++ Text.decimal a.toNat ++ ", " ++ Text.decimal b.toNat ++ "]"

/-- The text of a failure. What a text or a file got wrong has none of its own. -/
def message : Error → Option String
  | .invalid why => some ("Invalid argument: " ++ why.message)
  | .notSupported => some "Operation not supported"
  | .noDevice => some "No such device"
  | .noMemory => some "Out of memory"
  | .timeout what => some ("Timed out waiting for " ++ what.name)
  | .busy => some "Device or resource busy"
  | .noMatchingRange b => some ("No range matches brightness " ++ Text.decimal b.toNat)
  | .malformed why => some ("Parse error: " ++ why.message)
  | .invertedRange x1 x2 y1 y2 =>
    some ("Invalid interpolation range " ++ range x1 x2 ++ " -> " ++ range y1 y2)
  | .config key why => some ("Invalid config `" ++ key ++ "`: " ++ why.message)
  | .transfer cmd why =>
    some ("DSI transfer failed (cmd 0x" ++ String.ofList (Text.byteHex cmd) ++ "): " ++ why.message)
  | .json => none
  | .file => none

/-- The negative error number of a failure. -/
def errno : Error → Int
  | .invalid _ | .malformed _ | .config _ _ | .invertedRange .. | .noMatchingRange _ => -22
  | .notSupported => -95
  | .noDevice => -19
  | .noMemory => -12
  | .timeout _ => -110
  | .busy => -16
  | .transfer _ _ | .json | .file => -5

end Error
end OledPanel
