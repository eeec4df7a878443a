/-!
# Performance events

What a player does reaches the engine as a stream of events: keys and touches
that start and end, wheels, pedals, controllers and pressures.  Every event
names the gesture it comes from, the input channel and the sample time at which
it happens.  Its four values mean what its kind says:

* a note-on carries note, velocity and, for a touch, the x and y positions;
* a note update carries note, z, x and y;
* a pedal change carries one for down and zero for up;
* a controller change carries its number and its value;
* a wheel change carries the wheel position;
* a note pressure carries note and pressure, a channel pressure the pressure.
-/

namespace Polyphony

/-- The kinds of performance events. -/
inductive Event.Kind
  /-- A note starts. -/
  | noteOn
  /-- A note is released. -/
  | noteOff
  /-- A held touch moves. -/
  | noteUpdate
  /-- The sustain pedal moves. -/
  | sustain
  /-- A continuous controller moves. -/
  | controller
  /-- The pitch wheel moves. -/
  | pitchBend
  /-- The pressure on one note changes. -/
  | notePressure
  /-- The pressure on a whole channel changes. -/
  | channelPressure
  /-- Nothing happens. -/
  | null
deriving DecidableEq, Inhabited

namespace Event.Kind

/-- The name of a kind in messages. -/
def name : Event.Kind → String
  | noteOn => "NoteOn"
  | noteOff => "NoteOff"
  | noteUpdate => "NoteUpdate"
  | sustain => "Sustain"
  | controller => "Controller"
  | pitchBend => "PitchBend"
  | notePressure => "NotePressure"
  | channelPressure => "ChannelPressure"
  | null => "Null"

end Event.Kind

/-- A performance event. -/
structure Event where
  /-- What happens. -/
  kind : Event.Kind := .null
  /-- The gesture, the same from a note's start to its end. -/
  source : UInt32 := 0
  /-- The input channel, counted from one. -/
  channel : UInt8 := 0
  /-- The sample time at which it happens. -/
  time : Nat := 0
  /-- The first value of the payload. -/
  first : Float32 := 0.0
  /-- The second value of the payload. -/
  second : Float32 := 0.0
  /-- The third value of the payload. -/
  third : Float32 := 0.0
  /-- The fourth value of the payload. -/
  fourth : Float32 := 0.0
deriving DecidableEq, Inhabited

namespace Event

/-- A key goes down. -/
def noteOn
    (source : UInt32)
    (channel : UInt8)
    (note velocity : Float32)
    (time : Nat) :
    Event :=
  { kind := .noteOn, source, channel, time, first := note, second := velocity }

/-- A touch begins at a position; touches arrive on channel one. -/
def touchOn
    (source : UInt32)
    (note velocity x y : Float32)
    (time : Nat) :
    Event :=
  { noteOn source 1 note velocity time with third := x, fourth := y }

/-- A key or touch ends. -/
def noteOff
    (source : UInt32)
    (channel : UInt8)
    (time : Nat) :
    Event :=
  { kind := .noteOff, source, channel, time }

/-- A held touch moves. -/
def noteUpdate
    (source : UInt32)
    (note z x y : Float32)
    (time : Nat) :
    Event :=
  { kind := .noteUpdate, source, channel := 1, time,
    first := note, second := z, third := x, fourth := y }

/-- The sustain pedal goes down or up. -/
def sustain
    (channel : UInt8)
    (down : Bool)
    (time : Nat) :
    Event :=
  { kind := .sustain, channel, time, first := if down then 1.0 else 0.0 }

/-- A controller takes a value. -/
def controller
    (source : UInt32)
    (channel number : UInt8)
    (value : Float32)
    (time : Nat) :
    Event :=
  { kind := .controller, source, channel, time,
    first := number.toFloat32, second := value }

/-- The pitch wheel takes a position. -/
def pitchBend
    (source : UInt32)
    (channel : UInt8)
    (position : UInt16)
    (time : Nat) :
    Event :=
  { kind := .pitchBend, source, channel, time, first := position.toFloat32 }

/-- The pressure on a note takes a value. -/
def notePressure
    (source : UInt32)
    (channel : UInt8)
    (note pressure : Float32)
    (time : Nat) :
    Event :=
  { kind := .notePressure, source, channel, time, first := note, second := pressure }

/-- The pressure on a channel takes a value. -/
def channelPressure
    (source : UInt32)
    (channel : UInt8)
    (pressure : Float32)
    (time : Nat) :
    Event :=
  { kind := .channelPressure, source, channel, time, first := pressure }

/-- The same event at another time. -/
def moveTo (e : Event) (time : Nat) : Event :=
  { e with time }

/-- The controller an event moves; a value out of range names the nearest number. -/
def number (e : Event) : UInt8 :=
  e.first.toUInt8

/-- Whether a pedal event presses the pedal. -/
def pressesPedal (e : Event) : Bool :=
  0.5 < e.first

@[simp] theorem time_moveTo (e : Event) (time : Nat) :
    (e.moveTo time).time = time := by
  rfl

@[simp] theorem source_moveTo (e : Event) (time : Nat) :
    (e.moveTo time).source = e.source := by
  rfl

@[simp] theorem kind_moveTo (e : Event) (time : Nat) :
    (e.moveTo time).kind = e.kind := by
  rfl

end Event
end Polyphony
