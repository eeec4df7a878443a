import Polyphony.CommandLine.Options
import Polyphony.Demo
import Polyphony.Recording.Csv

/-!
# A run of the command line

A run reads its options, renders the demonstration and reports on it.  It is a
value: the lines for the user, the notices for the operator, the exit status,
and perhaps a file to be written, whose success decides the end of the run.
-/

namespace Polyphony
namespace CommandLine

section Constants

/-- The sample rate of the demonstration. -/
def sampleRate : Float32 := 48000.0

/-- The length of its blocks. -/
def blockFrames : Nat := 64

/-- The number of voices of its engine. -/
def engineVoices : Nat := 8

/-- The glide time of its pitch, in seconds. -/
def pitchGlide : Float32 := 0.005

end Constants

/-- A file to be written. -/
structure Export where
  path : String
  text : String

/-- What a run has to show. -/
structure Report where
  /-- The exit status. -/
  status : Nat := 0
  /-- The lines for the user. -/
  output : List String := []
  /-- The notices and complaints. -/
  errors : List String := []
  /-- The file to be written at the end. -/
  exported : Option Export := none

namespace Report

/-- A run that ends with a complaint. -/
def failed (errors : List String) (complaint : String) : Report :=
  { status := 1, errors := errors ++ [complaint] }

/-- One report after the other; the later one decides how the run ends. -/
def andThen (r later : Report) : Report :=
  { later with
    output := r.output ++ later.output
    errors := r.errors ++ later.errors }

end Report

/-- What is said about a file that has been written, or could not be. -/
def Export.ending (file : Export) : Except String Unit → Report
  | .ok _ =>
    { output := ["Wrote " ++ toString file.text.utf8ByteSize ++ " bytes to " ++ file.path] }
  | .error reason =>
    .failed [] ("Failed to write " ++ file.path ++ ": " ++ reason)

/-- The whole report of a run whose file has been written, or could not be. -/
def Report.written (r : Report) (outcome : Except String Unit) : Report :=
  match r.exported with
  | none => r
  | some file => r.andThen (file.ending outcome)

/-- The line of a notice, its severity five characters wide. -/
def noticeLine (n : Notice) : String :=
  let name := n.severity.name
  "[" ++ name ++ String.ofList (List.replicate (5 - name.length) ' ') ++ "] " ++ n.message

/-- The lines of the notices that are shown. -/
def noticeLines (verbose : Bool) (notices : List Notice) : List String :=
  (notices.filter fun n => verbose || n.severity != .debug).map noticeLine

/-- The settings of the demonstration. -/
def Options.settings (o : Options) : Settings :=
  { voices := o.voices, protocol := o.protocol, unison := o.unison, glide := pitchGlide }

/-- The number of frames of the demonstration. -/
def Options.frames (o : Options) : Nat :=
  (o.seconds * sampleRate).toUInt64.toNat

/-- The lines about a rendering. -/
def describe (o : Options) (r : Rendering) : List String :=
  let e := r.session.engine
  ["Voices:   " ++ toString e.bank.count ++ " of " ++ toString e.capacity,
   "Protocol: " ++ o.protocol.name,
   "Frames:   " ++ toString r.recording.frames ++ " at "
     ++ Binary32.plainText r.recording.sampleRate ++ " Hz",
   ""] ++ Demo.summary r.recording e.bank.count

/-- The file that the user asked for. -/
def exportOf (o : Options) (r : Rendering) : Option Export :=
  o.csvPath.map fun path =>
    let voices := List.range r.session.engine.bank.count
    { path, text := (r.recording.csv? voices).getD "" }

/-- Renders the demonstration in a session whose settings have been accepted. -/
def renderDemo (o : Options) (s : Session) (said : List Notice) : Report :=
  match s.renderScript (Demo.script o.settings o.frames) o.frames blockFrames with
  | .error i =>
    .failed (noticeLines o.verbose (said ++ i.notices))
      ("Render failed: " ++ i.refusal.message)
  | .ok r =>
    { output := describe o r
      errors := noticeLines o.verbose (said ++ r.notices ++ r.session.engine.survey)
      exported := exportOf o r }

/-- Opens a session, asks for the settings and renders the demonstration. -/
def runDemo (library : Library) (o : Options) : Report :=
  match Session.start engineVoices sampleRate (.empty defaultQueueCapacity) library with
  | .error fault =>
    .failed (noticeLines o.verbose (Engine.sampleRateNotices sampleRate))
      ("Failed to create engine: " ++ fault.message)
  | .ok s =>
    let said := Session.startNotices engineVoices sampleRate
    match s.configure o.settings with
    | .error fault _ =>
      .failed (noticeLines o.verbose said) ("Rejected config: " ++ fault.message)
    | .ok () s => renderDemo o s (said ++ Session.configureNotices o.settings)

/-- A run with the given arguments, up to the file that it writes. -/
def run (library : Library) (args : List String) : Report :=
  match Options.read args with
  | .error fault => .failed [] fault.message
  | .ok o => runDemo library o

end CommandLine
end Polyphony
