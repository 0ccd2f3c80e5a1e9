/-! The names of the text attributes of a panel, in the order in which they are listed. -/
namespace OledPanel

inductive Attribute where
  | brightness
  | actualBrightness
  | maxBrightness
  | state
  | alpmMode
  | hbmMode
  | hbmSvEnabled
  | alsTable
  | lpMode
  | idleMode
  | switchMode
  | teListenCount
  | teCounter
  | gamma
deriving DecidableEq, Repr

namespace Attribute

def name : Attribute → String
  | .brightness => "brightness"
  | .actualBrightness => "actual_brightness"
  | .maxBrightness => "max_brightness"
  | .state => "state"
  | .alpmMode => "alpm_mode"
  | .hbmMode => "hbm_mode"
  | .hbmSvEnabled => "hbm_sv_enabled"
  | .alsTable => "als_table"
  | .lpMode => "lp_mode"
  | .idleMode => "idle_mode"
  | .switchMode => "switch/mode"
  | .teListenCount => "switch/te_listen_count"
  | .teCounter => "switch/te_counter"
  | .gamma => "switch/gamma"

def all : List Attribute :=
  [brightness, actualBrightness, maxBrightness, state, alpmMode, hbmMode, hbmSvEnabled, alsTable,
    lpMode, idleMode, switchMode, teListenCount, teCounter, gamma]

def ofName? (s : String) : Option Attribute := all.find? (·.name = s)

theorem mem_all (a : Attribute) : a ∈ all := by cases a <;> decide

theorem ofName?_name (a : Attribute) : ofName? a.name = some a := by cases a <;> decide

end Attribute
end OledPanel
