import OledPanel.Panel.Scenario
import OledPanel.Bench.Host
import OledPanel.Bench.Plain
import OledPanel.Node.Reader
import OledPanel.Proofs.Within
import OledPanel.Proofs.Interpolation
import OledPanel.Proofs.Validity
import OledPanel.Proofs.Sends
import OledPanel.Proofs.GammaTables
import OledPanel.Proofs.GammaReading
import OledPanel.Proofs.Chores
import OledPanel.Proofs.Switching
import OledPanel.Proofs.Dimming
import OledPanel.Proofs.Numerals
import OledPanel.Proofs.Inputs
import OledPanel.Proofs.Courses
import OledPanel.Proofs.Turns
import OledPanel.Proofs.Updates
import OledPanel.Proofs.Phases
import OledPanel.Proofs.Balance
import OledPanel.Proofs.StopCommand
import OledPanel.Proofs.Recording
import OledPanel.Proofs.Wire
import OledPanel.Proofs.Compensation
import OledPanel.Proofs.Sunlight
import OledPanel.Proofs.Regulation
import OledPanel.Proofs.RangeEntry
import OledPanel.Proofs.Silence
import OledPanel.Proofs.Bins
import OledPanel.Proofs.Demand
import OledPanel.Proofs.BinChoice
import OledPanel.Proofs.LevelBounds
import OledPanel.Proofs.Description
import OledPanel.Proofs.Representation
import OledPanel.Proofs.Idempotence
import OledPanel.Proofs.LevelErrors
import OledPanel.Proofs.ControlRegister
import OledPanel.Proofs.TimingInForce
import OledPanel.Proofs.Packing
import OledPanel.Proofs.Handoff
import OledPanel.Proofs.Calibration
import OledPanel.Proofs.Moments
import OledPanel.Proofs.Links
import OledPanel.Proofs.FrameCount
import OledPanel.Proofs.RoundTrip
import OledPanel.Proofs.PwmOutput
import OledPanel.Proofs.HeldLevels
import OledPanel.Proofs.ModeChange
import OledPanel.Proofs.Refusals
import OledPanel.Proofs.Wakeup
import OledPanel.Proofs.MergedTables
import OledPanel.Proofs.DumpText
import OledPanel.Proofs.TableRegisters
import OledPanel.Proofs.KeptTables
import OledPanel.Proofs.Rereading
import OledPanel.Proofs.Rounding
import OledPanel.Proofs.UserBrightness
import OledPanel.Proofs.Records
import OledPanel.Proofs.Pace
import OledPanel.Proofs.DueSwitches
import OledPanel.Proofs.Pulses
import OledPanel.Proofs.SentSwitches
import OledPanel.Proofs.ScaledLevels
import OledPanel.Proofs.LevelBytes
import OledPanel.Proofs.RangePartition
import OledPanel.Proofs.SignedNumerals
import OledPanel.Proofs.IntegerGrammar
import OledPanel.Proofs.Exchanges
import OledPanel.Proofs.FlashMode
import OledPanel.Proofs.Envelopes
import OledPanel.Proofs.CompensationToggles
import OledPanel.Proofs.Retries
import OledPanel.Proofs.GammaLayout
import OledPanel.Proofs.ModeRequests
import OledPanel.Proofs.Categories
import OledPanel.Proofs.BinOrder
import OledPanel.Proofs.BinEntry
import OledPanel.Proofs.Vblanks
