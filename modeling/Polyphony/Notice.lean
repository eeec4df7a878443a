import Polyphony.Binary32.Text
import Polyphony.Settings.Check
import Polyphony.Voice.Basic

/-!
# Notices

What the engine tells an operator about its work.  A notice is a value; its
severity and its wording are functions of it.
-/

namespace Polyphony

/-- How much a notice matters. -/
inductive Severity
  /-- Of use when something is looked into. -/
  | debug
  /-- Of general use. -/
  | info
  /-- Something was not done as asked. -/
  | warn
deriving DecidableEq

namespace Severity

/-- The name of a severity. -/
def name : Severity → String
  | debug => "DEBUG"
  | info => "INFO"
  | warn => "WARN"

end Severity

/-- Something that an operator may want to know. -/
inductive Notice
  /-- A setting at fault keeps its earlier value. -/
  | settingKept (fault : SettingsFault) (kept : Float32)
  /-- More voices were asked for than there are. -/
  | voicesLimited (wanted given : Nat)
  /-- The master tuning keeps its earlier value. -/
  | tuningKept (hz : Float32)
  /-- A sample rate was refused. -/
  | sampleRateRefused (rate : Float32)
  /-- A block was longer than the longest one. -/
  | blockLimited (frames : Nat)
  /-- An event came too late and plays at the beginning of the block. -/
  | lateEvent (kind : Event.Kind) (time start : Nat)
  /-- A note was dropped because the table of held notes is full. -/
  | noteDropped (note : Float32) (source : UInt32)
  /-- A displaced note was forgotten because the stack is full. -/
  | noteForgotten (source : UInt32)
  /-- A reset dropped events from the queue. -/
  | eventsDropped (count : Nat)
  /-- The list of voices follows. -/
  | voiceList
  /-- A voice of the list. -/
  | voiceState (id : Nat) (tenancy : Tenancy)
  /-- A displaced note of the list. -/
  | displacedNote (source : UInt32) (note : Float32)
  /-- An engine was built. -/
  | engineReady (voices : Nat) (rate : Float32)
  /-- Settings were accepted. -/
  | settingsPosted (voices : Nat) (protocol : Protocol) (unison : Bool)
  /-- A performance began to be rendered at the pace of the clock. -/
  | playbackStarted (block : Nat)
  /-- Rendering at the pace of the clock ended. -/
  | playbackStopped
  /-- A whole script was rendered. -/
  | scriptRendered (frames : Nat)
deriving DecidableEq

namespace Notice

/-- How much a notice matters. -/
def severity : Notice → Severity
  | settingKept _ _ => .warn
  | voicesLimited _ _ => .warn
  | tuningKept _ => .warn
  | sampleRateRefused _ => .warn
  | blockLimited _ => .warn
  | engineReady _ _ => .info
  | settingsPosted _ _ _ => .info
  | playbackStarted _ => .info
  | playbackStopped => .info
  | _ => .debug

/-- The phase of a voice, three characters wide. -/
def phaseText : Phase → String
  | .off => "off"
  | .held => " on"
  | .sustained => "sus"

/-- The owner of a voice, or its absence. -/
def ownerText : Option UInt32 → String
  | some source => "Some(" ++ toString source ++ ")"
  | none => "None"

/-- The wording of a notice. -/
def message : Notice → String
  | settingKept fault kept =>
    fault.message ++ "; keeping " ++ Binary32.plainText kept
  | voicesLimited wanted given =>
    toString wanted ++ " voices requested, pool holds " ++ toString given
  | tuningKept hz =>
    "master tune " ++ Binary32.plainText hz ++ " Hz out of range, keeping previous"
  | sampleRateRefused rate => "rejected sample rate " ++ Binary32.plainText rate
  | blockLimited frames =>
    "block of " ++ toString frames ++ " frames clamped to " ++ toString maxBlock
  | lateEvent kind time start =>
    "late " ++ kind.name ++ " at " ++ toString time ++ " played at buffer start "
      ++ toString start
  | noteDropped note source =>
    "playing table full, dropped note " ++ Binary32.plainText note ++ " from "
      ++ toString source
  | noteForgotten source =>
    "pending stack full, forgetting note from " ++ toString source
  | eventsDropped count => "reset dropped " ++ toString count ++ " queued events"
  | voiceList => "voices:"
  | voiceState id tenancy =>
    "    " ++ toString id ++ ": [i: " ++ ownerText tenancy.owner ++ "] "
      ++ phaseText tenancy.phase ++ " note " ++ Binary32.plainText tenancy.note
      ++ " age " ++ toString tenancy.age
  | displacedNote source note =>
    "    pending: [i: " ++ toString source ++ "] note " ++ Binary32.plainText note
  | engineReady voices rate =>
    "engine ready: " ++ toString voices ++ " voices at " ++ Binary32.plainText rate
      ++ " Hz"
  | settingsPosted voices protocol unison =>
    "staged config: " ++ toString voices ++ " voices, " ++ protocol.name ++ ", unison "
      ++ toString unison
  | playbackStarted block =>
    "render thread started, " ++ toString block ++ " frame blocks"
  | playbackStopped => "render thread stopped"
  | scriptRendered frames => "rendered " ++ toString frames ++ " frames offline"

end Notice
end Polyphony
