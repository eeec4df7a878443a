import Polyphony.Binary32.Text
import Polyphony.Recording.Basic

/-!
# Comma-separated text of a recording

The first line names the columns: the frame, then the eight streams of each
listed voice.  Every frame has a line of its own, which begins with the number
of the frame.  Lines end with a line feed.

The text is written column by column and then joined line by line.  Neighbouring
samples of a control signal are mostly equal, so a column keeps the text of the
last number and writes a number out only when it differs.
-/

namespace Polyphony
namespace Recording

/-- The name of the column of a stream of a voice. -/
def columnName (voice : Nat) (s : Stream) : String :=
  "v" ++ toString voice ++ "." ++ s.name

/-- The streams of the listed voices, in column order. -/
def columns (voices : List Nat) : List (Nat × Stream) :=
  voices.flatMap fun v => Stream.all.map fun s => (v, s)

/-- A line of text out of its fields. -/
def csvLine (first : String) (fields : List String) : String :=
  fields.foldl (fun line field => line ++ "," ++ field) first ++ "\n"

/-- The line that names the columns. -/
def csvHeader (voices : List Nat) : String :=
  csvLine "frame" ((columns voices).map fun (v, s) => columnName v s)

/-- The last number of a column, and its text, as an aid for the next one. -/
structure LastText where
  /-- The bit pattern of the number. -/
  bits : UInt32
  /-- The text of the number. -/
  text : String

/-- The text of a number, found in the last one if the bits are the same. -/
def textAfter (last : Option LastText) (x : Float32) : String :=
  match last with
  | some l => if l.bits = x.toBits then l.text else Binary32.plainText x
  | none => Binary32.plainText x

/-- The texts of a column, put behind those already there. -/
def columnTextsAfter : List Float32 → Option LastText → Array String → Array String
  | [], _, done => done
  | x :: xs, last, done =>
    let text := textAfter last x
    columnTextsAfter xs (some { bits := x.toBits, text }) (done.push text)

/-- The texts of all samples of a signal. -/
def columnTexts (s : Signal) : Array String :=
  columnTextsAfter s.toList none (Array.emptyWithCapacity s.size)

/-- Puts the lines of the next `count` frames, from a frame on, behind a text. -/
def csvRows (texts : List (Array String)) : Nat → Nat → String → String
  | 0, _, done => done
  | count + 1, frame, done =>
    let done := texts.foldl (fun line column => line ++ "," ++ column.getD frame "")
      (done ++ toString frame)
    csvRows texts count (frame + 1) (done ++ "\n")

/-- The columns of the listed voices, unless one of them is missing. -/
def csvColumns? (r : Recording) (voices : List Nat) : Option (List (Array String)) :=
  (columns voices).mapM fun (v, s) => (r.stream? v s).map columnTexts

/--
The text of the listed voices.  Without frames the header is all of it; a frame
needs every listed voice.
-/
def csv? (r : Recording) (voices : List Nat) : Option String :=
  if r.frames = 0 then some (csvHeader voices)
  else (r.csvColumns? voices).map fun texts => csvRows texts r.frames 0 (csvHeader voices)

end Recording
end Polyphony
