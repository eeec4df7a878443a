import Polyphony.Settings.Basic

/-!
# Checking and repairing settings

Five settings are numbers, and each has a rule: it must be finite, and all but
the bend range and the master tuning must not be negative.

**Checking** reports the first setting, in a fixed order, that breaks its rule.
**Repairing** puts the value of earlier settings in place of every setting that
breaks its rule.  Both go through the same list of numeric settings.
-/

namespace Polyphony

/-- The settings that are numbers. -/
inductive NumericSetting
  | bendRange
  | glide
  | dataRate
  | masterTune
  | drift
deriving DecidableEq

namespace NumericSetting

/-- All of them, in the order in which they are checked. -/
def all : List NumericSetting :=
  [bendRange, glide, dataRate, masterTune, drift]

/-- The name of a setting in messages. -/
def name : NumericSetting → String
  | bendRange => "bend_range"
  | glide => "glide"
  | dataRate => "data_rate"
  | masterTune => "master_tune"
  | drift => "drift"

/-- Whether a setting may be negative. -/
def isSigned : NumericSetting → Bool
  | bendRange => true
  | masterTune => true
  | glide => false
  | dataRate => false
  | drift => false

/-- The value of a setting. -/
def get (s : Settings) : NumericSetting → Float32
  | bendRange => s.bendRange
  | glide => s.glide
  | dataRate => s.dataRate
  | masterTune => s.masterTune
  | drift => s.drift

/-- The settings with another value for one of them. -/
def set (s : Settings) (value : Float32) : NumericSetting → Settings
  | bendRange => { s with bendRange := value }
  | glide => { s with glide := value }
  | dataRate => { s with dataRate := value }
  | masterTune => { s with masterTune := value }
  | drift => { s with drift := value }

end NumericSetting

/-- Why settings were not accepted. -/
inductive SettingsFault
  /-- The setting is NaN or infinite. -/
  | notFinite (setting : NumericSetting)
  /-- The setting must not be negative. -/
  | negative (setting : NumericSetting)
  /-- Too many settings are waiting for the engine. -/
  | mailboxFull
deriving DecidableEq

namespace SettingsFault

/-- The setting at fault. -/
def setting? : SettingsFault → Option NumericSetting
  | notFinite s => some s
  | negative s => some s
  | mailboxFull => none

/-- What the host is told. -/
def message : SettingsFault → String
  | notFinite s => "Config field `" ++ s.name ++ "` is not finite"
  | negative s => "Config field `" ++ s.name ++ "` is negative"
  | mailboxFull => "Config queue full"

end SettingsFault

namespace NumericSetting

/-- How a value breaks the rule of a setting. -/
def fault? (n : NumericSetting) (value : Float32) : Option SettingsFault :=
  if !value.isFinite then some (.notFinite n)
  else if !n.isSigned && value < 0.0 then some (.negative n)
  else none

end NumericSetting

namespace Settings

/-- The first fault, if there is one. -/
def fault? (s : Settings) : Option SettingsFault :=
  NumericSetting.all.findSome? fun n => n.fault? (n.get s)

/-- The settings with the prior value of one setting, if that one is at fault. -/
def repairOne (prior s : Settings) (n : NumericSetting) : Settings :=
  match n.fault? (n.get s) with
  | some _ => n.set s (n.get prior)
  | none => s

/-- The settings with the prior value of every setting at fault. -/
def repaired (s prior : Settings) : Settings :=
  NumericSetting.all.foldl (repairOne prior) s

/-- The faults that a repair mends, each with the value that is kept instead. -/
def repairs (s prior : Settings) : List (SettingsFault × Float32) :=
  NumericSetting.all.filterMap fun n =>
    (n.fault? (n.get s)).map fun fault => (fault, n.get prior)

end Settings
end Polyphony
