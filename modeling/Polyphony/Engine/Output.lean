import Polyphony.Engine.Perform
import Polyphony.Signal.Buffer

/-!
# From ramps to streams

At the end of a block every voice that plays notes renders its ramps, and the
protocol decides how they add up to the eight streams.

* Conventional: the voice's own bend is added to its pitch, and its channel
  pressure to its note pressure.
* Expressive: the bend, pressure and modulations of the shared bus are added to
  those of the voice, and the bend of its channel to its pitch.  The second
  modulation, with its first binding, and the third are stretched over the
  range from minus one to one.
* Continuous touch: the ramps as they are; the aftertouch is the amplitude.

Then the drift, scaled by its setting, and the master tuning are added to the
pitch.  The order of the additions is part of the result, since sums of floating
point depend on it.
-/

namespace Polyphony

/-- The streams of a voice over one block. -/
structure VoiceSignals where
  pitch : Signal
  gate : Signal
  velocity : Signal
  voice : Signal
  aftertouch : Signal
  modA : Signal
  modB : Signal
  modC : Signal
deriving DecidableEq

namespace VoiceSignals

/-- The signal of a stream. -/
def get (s : VoiceSignals) : Stream → Signal
  | .pitch => s.pitch
  | .gate => s.gate
  | .velocity => s.velocity
  | .voice => s.voice
  | .aftertouch => s.aftertouch
  | .modA => s.modA
  | .modB => s.modB
  | .modC => s.modC

/-- Writes the streams of a voice over the beginnings of its planes. -/
def writeTo (s : VoiceSignals) (voice : Nat) (b : Buffer) : Buffer :=
  Stream.all.foldl (fun b stream => b.putStream voice stream (s.get stream)) b

end VoiceSignals

/-- The signals that are shared by voices over one block. -/
structure SharedSignals where
  bend : Signal := #[]
  pressure : Signal := #[]
  mod1 : Signal := #[]
  mod2 : Signal := #[]
  mod3 : Signal := #[]
  channelBends : List Signal := []
deriving DecidableEq

/-- The length of a block and what is the same for all of its voices. -/
structure BlockContext where
  frames : Nat
  settings : Settings
  tuningShift : Float32
  shared : SharedSignals
deriving DecidableEq

namespace BlockContext

/-- The signal of the bend that follows a channel, if the channel has a bend of its own. -/
def channelBend? (c : BlockContext) (channel : UInt8) : Option Signal :=
  if channel = Engine.mainChannel then none
  else (Engine.channelIndex? channel).bind fun i => c.shared.channelBends[i]?

/-- The pitch with the bends that the protocol adds. -/
def bentPitch (c : BlockContext) (v : Voice) : Signal × Voice :=
  let (pitch, ramp) := v.pitch.render c.frames
  let v := { v with pitch := ramp }
  match c.settings.protocol with
  | .conventional =>
    let (pitch, ramp) := v.pitchBend.addOnto pitch
    (pitch, { v with pitchBend := ramp })
  | .expressive =>
    let pitch := pitch.add c.shared.bend
    match c.channelBend? v.channel with
    | some bend => (pitch.add bend, v)
    | none => (pitch, v)
  | .continuousTouch => (pitch, v)

/-- The pitch with the drift added, if there is any. -/
def driftedPitch (c : BlockContext) (pitch : Signal) (v : Voice) : Signal × Voice :=
  if 0.0 < c.settings.drift then
    let (drift, ramp) := v.drift.render c.frames
    (pitch.add (drift.scale c.settings.drift), { v with drift := ramp })
  else (pitch, v)

/-- The pitch with the master tuning added, if it shifts anything. -/
def tunedPitch (c : BlockContext) (pitch : Signal) : Signal :=
  if c.tuningShift == 0.0 then pitch else pitch.shift c.tuningShift

/-- The pitch stream of a voice. -/
def pitch (c : BlockContext) (v : Voice) : Signal × Voice :=
  let (pitch, v) := c.bentPitch v
  let (pitch, v) := c.driftedPitch pitch v
  (c.tunedPitch pitch, v)

/-- The aftertouch stream of a voice. -/
def aftertouch (c : BlockContext) (v : Voice) : Signal × Voice :=
  match c.settings.protocol with
  | .conventional =>
    let (pressure, note) := v.notePressure.render c.frames
    let (pressure, channel) := v.channelPressure.addOnto pressure
    (pressure, { v with notePressure := note, channelPressure := channel })
  | .expressive =>
    let (pressure, ramp) := v.channelPressure.render c.frames
    (pressure.add c.shared.pressure, { v with channelPressure := ramp })
  | .continuousTouch =>
    let (amp, ramp) := v.amp.render c.frames
    (amp, { v with amp := ramp })

/-- A modulation with the one of the shared bus, if the protocol adds it. -/
def busMod
    (c : BlockContext)
    (own shared : Signal)
    (stretched : Bool) :
    Signal :=
  match c.settings.protocol with
  | .expressive =>
    let sum := own.add shared
    if stretched then sum.bipolar else sum
  | .conventional => own
  | .continuousTouch => own

/-- Whether the second modulation is stretched. -/
def stretchesMod2 (c : BlockContext) : Bool :=
  c.settings.xController == defaultXController

/-- The streams of a voice, and the voice after the block. -/
def renderVoice (c : BlockContext) (id : Nat) (v : Voice) : VoiceSignals × Voice :=
  let (pitch, v) := c.pitch v
  let (gate, gateRamp) := v.gate.render c.frames
  let (velocity, velocityRamp) := v.velocity.render c.frames
  let (aftertouch, v) := c.aftertouch v
  let (modA, ramp1) := v.mod1.render c.frames
  let (modB, ramp2) := v.mod2.render c.frames
  let (modC, ramp3) := v.mod3.render c.frames
  ({ pitch
     gate
     velocity
     voice := Signal.constant c.frames (Float32.ofNat id)
     aftertouch
     modA := c.busMod modA c.shared.mod1 false
     modB := c.busMod modB c.shared.mod2 c.stretchesMod2
     modC := c.busMod modC c.shared.mod3 true },
   { v with
     gate := gateRamp
     velocity := velocityRamp
     mod1 := ramp1
     mod2 := ramp2
     mod3 := ramp3 })

/-- The streams of the first `count` voices, from voice `id` on, and all voices after. -/
def renderVoices (c : BlockContext) : Nat → Nat → List Voice → List VoiceSignals × List Voice
  | 0, _, voices => ([], voices)
  | _ + 1, _, [] => ([], [])
  | count + 1, id, v :: voices =>
    let (signals, v) := c.renderVoice id v
    let (rest, voices) := c.renderVoices count (id + 1) voices
    (signals :: rest, v :: voices)

end BlockContext

namespace Engine

/-- The signals of the shared buses over `n` frames, and the engine after them. -/
def renderShared (e : Engine) (n : Nat) : SharedSignals × Engine :=
  let (bend, bendRamp) := e.main.pitchBend.render n
  let (pressure, pressureRamp) := e.main.channelPressure.render n
  let (mod1, ramp1) := e.main.mod1.render n
  let (mod2, ramp2) := e.main.mod2.render n
  let (mod3, ramp3) := e.main.mod3.render n
  let bends := e.channelBends.map fun r => r.render n
  ({ bend, pressure, mod1, mod2, mod3, channelBends := bends.map Prod.fst },
   { e with
     main :=
       { e.main with
         pitchBend := bendRamp
         channelPressure := pressureRamp
         mod1 := ramp1
         mod2 := ramp2
         mod3 := ramp3 }
     channelBends := bends.map Prod.snd })

/-- The shared buses matter only when every note has a channel of its own. -/
def sharedSignals (e : Engine) (n : Nat) : SharedSignals × Engine :=
  match e.settings.protocol with
  | .expressive => e.renderShared n
  | .conventional => ({}, e)
  | .continuousTouch => ({}, e)

/-- The streams of the voices that play notes and have a place in the output. -/
def renderVoices (e : Engine) (n places : Nat) : List VoiceSignals × Engine :=
  let (shared, e) := e.sharedSignals n
  let context : BlockContext :=
    { frames := n, settings := e.settings, tuningShift := e.tuningShift, shared }
  let (signals, voices) :=
    context.renderVoices (min e.bank.count places) 0 e.bank.voices
  (signals, { e with bank := { e.bank with voices } })

end Engine

namespace Buffer

/-- Writes the streams of a voice, or silence if there are none. -/
def putVoice (signals : List VoiceSignals) (b : Buffer) (voice : Nat) : Buffer :=
  match signals[voice]? with
  | some s => s.writeTo voice b
  | none => b.silence voice

/-- Writes the streams of the first voices; every other voice of the buffer is silent. -/
def putVoices (b : Buffer) (signals : List VoiceSignals) : Buffer :=
  (List.range b.voices).foldl (putVoice signals) b

end Buffer
end Polyphony
