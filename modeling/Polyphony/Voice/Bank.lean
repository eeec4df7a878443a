import Polyphony.Voice.Basic

/-!
# The bank of voices and the choice of a voice

A bank holds a fixed number of voices, of which the first `count` play notes.

**Choosing.** A new note takes a free voice if there is one.  The search starts
at voice zero, or, with rotation, one voice further after every free voice
found, and goes once around.  If no voice is free, the oldest sustained voice is
stolen, and if none is sustained, the voice whose note is nearest.  Of equals the
lowest number is taken.
-/

namespace Polyphony

/-- The distance from which on no note counts as near. -/
def farthestNote : Float32 := 128.0

/-- The number of bytes of a voice. -/
def voiceBytes : Nat := 11680

/-- The voice that a new note gets. -/
inductive Choice
  /-- A voice that is off. -/
  | free (id : Nat)
  /-- A voice that plays another note. -/
  | stolen (id : Nat)
deriving DecidableEq

namespace Choice

/-- The number of the chosen voice. -/
def id : Choice → Nat
  | free id => id
  | stolen id => id

end Choice

/-- The voices of an engine. -/
structure Bank where
  /-- All voices. -/
  voices : List Voice
  /-- How many of them play notes. -/
  count : Nat := 0
  /-- Where the next search with rotation begins; behind the greatest number comes zero. -/
  rotation : UInt64 := 0
deriving DecidableEq

namespace Bank

section Content

/-- A bank of voices that are off; none of them plays notes yet. -/
def idle (capacity : Nat) (sampleRate : Float32) : Bank :=
  { voices := List.replicate capacity (Voice.idle sampleRate) }

/-- A bank of voices that are off, if it fits into memory. -/
def idle? (capacity : Nat) (sampleRate : Float32) : Option Bank :=
  if FitsMemory capacity voiceBytes then some (idle capacity sampleRate) else none

/-- The number of voices. -/
def capacity (b : Bank) : Nat :=
  b.voices.length

/-- The voices that play notes. -/
def active (b : Bank) : List Voice :=
  b.voices.take b.count

/-- A voice by its number. -/
def voice? (b : Bank) (id : Nat) : Option Voice :=
  b.voices[id]?

/-- Lets as many voices play notes as were asked for, if there are so many. -/
def withCount (b : Bank) (count : Nat) : Bank :=
  { b with count := min count b.capacity }

/-- Does something to one voice. -/
def modify (b : Bank) (id : Nat) (f : Voice → Voice) : Bank :=
  { b with voices := b.voices.modify id f }

/-- Does the same to every voice. -/
def mapAll (b : Bank) (f : Voice → Voice) : Bank :=
  { b with voices := b.voices.map f }

/-- Does something to every voice that plays notes, knowing its number. -/
def mapActiveIdx (b : Bank) (f : Nat → Voice → Voice) : Bank :=
  { b with voices := b.voices.mapIdx fun id v => if id < b.count then f id v else v }

/-- Does the same to every voice that plays notes. -/
def mapActive (b : Bank) (f : Voice → Voice) : Bank :=
  b.mapActiveIdx fun _ v => f v

/-- Does the same to every voice that plays notes and fits. -/
def mapActiveWhere (b : Bank) (fits : Voice → Bool) (f : Voice → Voice) : Bank :=
  b.mapActive fun v => if fits v then f v else v

/-- Changes the sample rate of every ramp of every voice. -/
def withSampleRate (b : Bank) (sampleRate : Float32) : Bank :=
  b.mapAll fun v => v.mapControls (·.withSampleRate sampleRate)

end Content

section Choosing

/-- Lets the next search begin at voice zero. -/
def rewind (b : Bank) : Bank :=
  { b with rotation := 0 }

/-- The numbers of the voices that play notes, in the order of the search. -/
def searchOrder (b : Bank) (rotate : Bool) : List Nat :=
  (List.range b.count).map fun k => if rotate then (k + b.rotation.toNat) % b.count else k

/-- Whether the voice with a number is off. -/
def isFree (b : Bank) (id : Nat) : Bool :=
  (b.voice? id).any Voice.isOff

/-- The first free voice of the search. -/
def free? (b : Bank) (rotate : Bool) : Option Nat :=
  (b.searchOrder rotate).find? b.isFree

/-- The bank after a search that found a free voice. -/
def turn (b : Bank) : Bank :=
  { b with rotation := b.rotation + 1 }

/-- The better candidate so far, where `better` says when a voice beats another. -/
def challenge
    (better : Voice → Voice → Bool)
    (best : Option (Nat × Voice))
    (next : Nat × Voice) :
    Option (Nat × Voice) :=
  match best with
  | none => some next
  | some held => if better next.2 held.2 then some next else some held

/-- The sustained voice of the greatest age. -/
def oldestSustained? (b : Bank) : Option Nat :=
  let sustained := (b.active.zipIdx.map Prod.swap).filter fun p => p.2.phase == .sustained
  (sustained.foldl (challenge fun v w => w.age < v.age) none).map Prod.fst

/-- The distance of a voice's note from a note. -/
def distance (note : Float32) (v : Voice) : Float32 :=
  (note - v.note).abs

/-- The nearer voice so far, as its number and its distance. -/
def approach
    (note : Float32)
    (best : Nat × Float32)
    (next : Voice × Nat) :
    Nat × Float32 :=
  if distance note next.1 < best.2 then (next.2, distance note next.1) else best

/-- The voice with the nearest note; voice zero if every note is far. -/
def nearest (b : Bank) (note : Float32) : Nat :=
  (b.active.zipIdx.foldl (approach note) (0, farthestNote)).1

/-- The voice for a new note, unless no voice plays notes. -/
def choose? (b : Bank) (note : Float32) (rotate : Bool) : Option Choice :=
  if b.count = 0 then none
  else
    match b.free? rotate with
    | some id => some (.free id)
    | none => some (.stolen (b.oldestSustained?.getD (b.nearest note)))

/-- The bank after a choice: finding a free voice moves the rotation. -/
def afterChoice (b : Bank) : Option Choice → Bank
  | some (.free _) => b.turn
  | _ => b

end Choosing

@[simp] theorem count_modify (b : Bank) (id : Nat) (f : Voice → Voice) :
    (b.modify id f).count = b.count := by
  rfl

@[simp] theorem capacity_modify (b : Bank) (id : Nat) (f : Voice → Voice) :
    (b.modify id f).capacity = b.capacity := by
  simp [modify, capacity]

@[simp] theorem capacity_mapActiveIdx (b : Bank) (f : Nat → Voice → Voice) :
    (b.mapActiveIdx f).capacity = b.capacity := by
  simp [mapActiveIdx, capacity]

end Bank
end Polyphony
