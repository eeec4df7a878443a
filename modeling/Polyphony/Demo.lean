import Polyphony.Binary32.Text
import Polyphony.Session.Offline

/-!
# The demonstration

A C major chord, a whole tone of bend up and back again with pressure in
between, and a staggered release.  The three notes begin ten frames apart; all
that follows happens at eighths of the whole length.

The summary has a line for each voice: the range of its pitch, the frames with
an open gate, and the greatest aftertouch.
-/

namespace Polyphony
namespace Demo

section Script

/-- The notes of the chord. -/
def chord : List Float32 :=
  [60.0, 64.0, 67.0]

/-- The channel of the note with a number, counted from zero. -/
def channelOf (protocol : Protocol) (i : Nat) : UInt8 :=
  match protocol with
  | .expressive => UInt8.ofNat (i + 2)
  | .conventional => 1
  | .continuousTouch => 1

/-- The source of the note with a number, counted from zero. -/
def sourceOf (i : Nat) : UInt32 :=
  UInt32.ofNat (i + 1)

/-- The beginning of a note. -/
def noteStart (protocol : Protocol) (note : Float32) (i : Nat) : Event :=
  match protocol with
  | .continuousTouch => Event.touchOn (sourceOf i) note 0.8 0.5 0.5 (10 * i)
  | .conventional => Event.noteOn (sourceOf i) (channelOf protocol i) note 0.8 (10 * i)
  | .expressive => Event.noteOn (sourceOf i) (channelOf protocol i) note 0.8 (10 * i)

/-- The end of a note. -/
def noteEnd (protocol : Protocol) (eighth i : Nat) : Event :=
  Event.noteOff (sourceOf i) (channelOf protocol i) (eighth * (5 + i))

/-- The script of the demonstration over `total` frames. -/
def script (s : Settings) (total : Nat) : List Event :=
  let eighth := total / 8
  chord.mapIdx (fun i note => noteStart s.protocol note i)
    ++ [Event.pitchBend 0 1 (Tuning.wheelPosition 2.0 s.bendRange) (eighth * 2),
        Event.channelPressure 0 1 0.6 (eighth * 3),
        Event.pitchBend 0 1 (Tuning.wheelPosition 0.0 s.bendRange) (eighth * 4)]
    ++ chord.mapIdx fun i _ => noteEnd s.protocol eighth i

end Script

section Summary

/-- A text with blanks before it, up to a width. -/
def padLeft (width : Nat) (text : String) : String :=
  String.ofList (List.replicate (width - text.length) ' ') ++ text

/-- The smallest sample of a signal. -/
def lowest (s : Signal) : Float32 :=
  s.foldl Binary32.smaller (1.0 / 0.0)

/-- The greatest sample of a signal. -/
def highest (s : Signal) : Float32 :=
  s.foldl Binary32.larger (-1.0 / 0.0)

/-- The greatest sample of a signal, or zero if it is below zero. -/
def peak (s : Signal) : Float32 :=
  s.foldl Binary32.larger 0.0

/-- The number of frames with an open gate. -/
def openFrames (gate : Signal) : Nat :=
  gate.countP fun g => 0.5 < g

/-- The heading of the summary. -/
def summaryHeading : String :=
  "voice   pitch(min..max)     gate(on frames)  after(max)"

/-- The line of a voice. -/
def summaryLine (r : Recording) (voice : Nat) : String :=
  let stream (s : Stream) : Signal := (r.stream? voice s).getD #[]
  padLeft 5 (toString voice) ++ "   "
    ++ Binary32.fixedText 3 true (lowest (stream .pitch)) ++ ".."
    ++ Binary32.fixedText 3 true (highest (stream .pitch)) ++ "      "
    ++ padLeft 8 (toString (openFrames (stream .gate))) ++ "         "
    ++ Binary32.fixedText 3 false (peak (stream .aftertouch))

/-- The summary of the first `voices` voices. -/
def summary (r : Recording) (voices : Nat) : List String :=
  summaryHeading :: (List.range voices).map (summaryLine r)

end Summary

end Demo
end Polyphony
