import Polyphony.Proofs.Engine.Regulation

/-!
# Places that have to exist

Events, settings and the length of a block decide which voices, slots and entries
of a table the engine looks at.  Here an operation may fail: it has no result as
soon as it looks at a place that does not exist.  The voices that play notes are
the first ones of the bank, and taking more of them than there are fails as well.

**Results.**
* `perform?_eq`: performing an event only looks at places that exist.
* `foldlM_perform?`: neither do events that are performed one after the other.
-/

namespace Polyphony

namespace Bank

/-- There are as many voices as are to play notes. -/
def Fits (b : Bank) : Prop :=
  b.count ≤ b.voices.length

section Places

/-- The voices that play notes, if there are so many. -/
def active? (b : Bank) : Option (List Voice) :=
  if b.count ≤ b.voices.length then some (b.voices.take b.count) else none

/-- Does the same to every voice that plays notes. -/
def mapActive? (b : Bank) (f : Voice → Voice) : Option Bank :=
  b.active?.map fun active => { b with voices := active.map f ++ b.voices.drop b.count }

/-- Does something to one voice, if it exists. -/
def modify? (b : Bank) (id : Nat) (f : Voice → Voice) : Option Bank :=
  b.voices[id]?.map fun v => { b with voices := b.voices.set id (f v) }

/-- The first of some numbers whose voice is free; each voice that is looked at has to exist. -/
def search? (b : Bank) : List Nat → Option (Option Nat)
  | [] => some none
  | id :: ids => do
    let v ← b.voices[id]?
    if v.isOff then some (some id) else b.search? ids

/-- The sustained voice of the greatest age. -/
def oldest? (b : Bank) : Option (Option Nat) := do
  let active ← b.active?
  let sustained := (active.zipIdx.map Prod.swap).filter fun p => p.2.phase == .sustained
  some ((sustained.foldl (challenge fun v w => w.age < v.age) none).map Prod.fst)

/-- The voice with the nearest note. -/
def near? (b : Bank) (note : Float32) : Option Nat := do
  let active ← b.active?
  some (active.zipIdx.foldl (approach note) (0, farthestNote)).1

/-- The voice that is taken from its note when none is free. -/
def victim? (b : Bank) (note : Float32) : Option Nat := do
  match ← b.oldest? with
  | some id => some id
  | none => b.near? note

/-- The voice for a new note, unless no voice plays notes. -/
def allot? (b : Bank) (note : Float32) (rotate : Bool) : Option (Option Choice) :=
  if b.count = 0 then some none
  else do
    match ← b.search? (b.searchOrder rotate) with
    | some id => some (some (.free id))
    | none => (b.victim? note).map fun id => some (.stolen id)

variable {b : Bank}

theorem active?_eq
    (h : b.Fits) :
    b.active? = some b.active :=
  if_pos h

theorem mapActive?_eq
    (h : b.Fits)
    (f : Voice → Voice) :
    b.mapActive? f = some (b.mapActive f) := by
  unfold mapActive?
  rw [active?_eq h, Option.map_some]
  unfold mapActive mapActiveIdx active
  congr 2
  apply List.ext_getElem?
  intro id
  have hlength : (b.voices.take b.count).length = b.count := List.length_take_of_le h
  rw [List.getElem?_append, List.length_map, hlength, List.getElem?_mapIdx]
  by_cases hid : id < b.count
  · simp [hid]
  · have hsum : b.count + (id - b.count) = id := by
      omega
    simp [hid, hsum]

/-- With fewer voices than are to play notes, nothing can be done to them. -/
example : ({ voices := [], count := 1 } : Bank).mapActive? Voice.dropPending = none := by
  rfl

theorem modify?_eq
    {id : Nat}
    (h : id < b.voices.length)
    (f : Voice → Voice) :
    b.modify? id f = some (b.modify id f) := by
  unfold modify? modify
  rw [List.getElem?_eq_getElem h, Option.map_some, List.modify_eq_set_getElem? ]
  simp [h]

theorem search?_eq
    (ids : List Nat)
    (h : ∀ id ∈ ids, id < b.voices.length) :
    b.search? ids = some (ids.find? b.isFree) := by
  induction ids with
  | nil => rfl
  | cons id ids ih =>
      obtain ⟨v, hv⟩ : ∃ v, b.voices[id]? = some v :=
        ⟨_, List.getElem?_eq_getElem (h id List.mem_cons_self)⟩
      have hfree : b.isFree id = v.isOff := by
        simp [isFree, voice?, hv]
      have hrest := ih fun id hid => h id (List.mem_cons_of_mem _ hid)
      show (b.voices[id]?.bind fun v => if v.isOff then some (some id) else b.search? ids) = _
      rw [hv, Option.bind_some, hrest, List.find?_cons, hfree]
      cases v.isOff <;> rfl

theorem victim?_eq
    (h : b.Fits)
    (note : Float32) :
    b.victim? note = some (b.oldestSustained?.getD (b.nearest note)) := by
  have hold : b.oldest? = some b.oldestSustained? := by
    unfold oldest?
    rw [active?_eq h]
    rfl
  have hnear : b.near? note = some (b.nearest note) := by
    unfold near?
    rw [active?_eq h]
    rfl
  unfold victim?
  rw [hold, hnear]
  cases b.oldestSustained? <;> rfl

theorem allot?_eq
    (h : b.Fits)
    (note : Float32) (rotate : Bool) :
    b.allot? note rotate = some (b.choose? note rotate) := by
  have hsearch : b.search? (b.searchOrder rotate) = some (b.free? rotate) :=
    search?_eq _ fun id hid => Nat.lt_of_lt_of_le (lt_of_mem_searchOrder hid) h
  unfold allot? choose?
  split
  · rfl
  · rw [hsearch, victim?_eq h]
    cases b.free? rotate <;> rfl

end Places

end Bank

namespace HeldNotes

/-- Puts a note into a slot, if there is such a slot. -/
def put? (h : HeldNotes) (slot : Nat) (e : Event) : Option HeldNotes :=
  if slot < h.slots.length then some (h.put slot e) else none

/-- The slots that are found free are there. -/
theorem put?_eq
    {h : HeldNotes} {slot : Nat}
    (hslot : h.freeSlot? = some slot)
    (e : Event) :
    h.put? slot e = some (h.put slot e) := by
  obtain ⟨hlt, _⟩ := List.findIdx?_eq_some_iff_getElem.1 hslot
  exact if_pos hlt

end HeldNotes

namespace Drift

/-- The goal that is drawn for a voice, if the table has an entry for it. -/
def goal? (d : Drift) (voice : Nat) : Option Float32 :=
  table[tableIndex voice]?.map fun own =>
    own * constantAmount + d.random.symmetric * randomAmount

/-- The goals of `count` voices, from a voice on, and the clock after the draws. -/
def goals? : Nat → Nat → Drift → Option (List Float32 × Drift)
  | 0, _, d => some ([], d)
  | count + 1, voice, d => do
    let goal ← d.goal? voice
    let (rest, after) ← goals? count (voice + 1) d.afterGoal
    some (goal :: rest, after)

theorem goal?_eq (d : Drift) (voice : Nat) :
    d.goal? voice = some (d.goal voice) := by
  unfold goal? goal
  rw [Array.getElem?_eq_getElem (tableIndex_lt voice), Option.map_some]

theorem goals?_eq (count : Nat) :
    ∀ (voice : Nat) (d : Drift), goals? count voice d = some (goals count voice d) := by
  induction count with
  | zero =>
      intro voice d
      rfl
  | succ count ih =>
      intro voice d
      show ((d.goal? voice).bind fun goal => _) = _
      rw [goal?_eq, Option.bind_some, ih]
      rfl

end Drift

namespace Engine

/-- The voices that are to play notes exist, and so do the bends of the channels. -/
structure Fitted (e : Engine) : Prop where
  voices : e.bank.Fits
  bends : e.channelBends.length = channelCount

section Notes

/-- Does something to every voice that plays notes. -/
def mapActive? (e : Engine) (f : Voice → Voice) : Option Engine :=
  (e.bank.mapActive? f).map fun bank => { e with bank }

/-- Does something to every voice that plays notes and fits. -/
def mapActiveWhere? (e : Engine) (fits : Voice → Bool) (f : Voice → Voice) : Option Engine :=
  e.mapActive? fun v => if fits v then f v else v

/-- Lets a voice play a note: one that is free starts, another one is stolen. -/
def playOn? (e : Engine) (event : Event) : Choice → Option Engine
  | .free id =>
    (e.bank.modify? id fun v => v.start event e.temperament).map fun bank => { e with bank }
  | .stolen id =>
    (e.bank.modify? id fun v => v.steal event e.temperament true).map fun bank =>
      { e with bank }

/-- Starts a note on a voice of its own. -/
def startNote? (e : Engine) (event : Event) : Option Engine :=
  match e.held.freeSlot? with
  | none => some e
  | some slot => do
    let held ← e.held.put? slot event
    match ← e.bank.allot? event.first e.settings.rotate with
    | none => some { e with held := held.forget event.source }
    | some choice =>
      let e := { e with held, bank := e.bank.afterChoice (some choice) }
      e.playOn? event choice

/-- Releases the voices that a source holds. -/
def endNote? (e : Engine) (event : Event) : Option Engine :=
  { e with held := e.held.forget event.source }.mapActiveWhere?
    (fun v => v.heldBy event.source) (e.endVoice event)

/-- Starts a note on all voices. -/
def startUnison? (e : Engine) (event : Event) : Option Engine :=
  if e.bank.count = 0 then some e
  else
    match e.held.freeSlot? with
    | none => some e
    | some slot => do
      let held ← e.held.put? slot event
      { e with held }.displace.mapActive? fun v => v.start event e.temperament

/-- Brings a displaced note back on all voices, at the time of an event. -/
def revive? (e : Engine) (note : Event) (time : Nat) : Option Engine :=
  { e with displaced := e.displaced.pop }.mapActive? fun v =>
    v.steal (note.moveTo time) e.temperament e.settings.glissando

/-- Ends a note in unison, whether it sounds or waits. -/
def endUnison? (e : Engine) (event : Event) : Option Engine :=
  let e := { e with held := e.held.forget event.source }
  if e.isSounding event.source then
    match e.displaced.top? with
    | some note => e.revive? note event.time
    | none => e.mapActiveWhere? (fun v => v.phase == .held) (e.endVoice event)
  else some { e with displaced := e.displaced.forget event.source }

/-- Moves a held touch. -/
def moveTouch? (e : Engine) (event : Event) : Option Engine :=
  e.mapActiveWhere? (fun v => v.heldBy event.source) fun v =>
    v.move event e.temperament

/-- Moves the pedal; when it goes up, the notes that it kept end. -/
def movePedal? (e : Engine) (event : Event) : Option Engine :=
  let e := { e with pedal := event.pressesPedal }
  if event.pressesPedal then some e
  else e.mapActiveWhere? (fun v => v.phase == .sustained) (pedalRelease event.time)

/-- Ends every note and forgets held and displaced ones. -/
def endAllNotes? (e : Engine) (event : Event) : Option Engine :=
  { e with held := .empty, displaced := .empty }.mapActiveWhere? Voice.isBusy fun v =>
    v.release event

variable {e : Engine} {event : Event}

theorem mapActive?_eq
    {f : Voice → Voice}
    (h : e.bank.Fits) :
    e.mapActive? f = some (e.mapActive f) := by
  unfold mapActive?
  rw [Bank.mapActive?_eq h]
  rfl

theorem mapActiveWhere?_eq
    {fits : Voice → Bool} {f : Voice → Voice}
    (h : e.bank.Fits) :
    e.mapActiveWhere? fits f = some (e.mapActiveWhere fits f) :=
  mapActive?_eq h

theorem playOn?_eq
    {choice : Choice}
    (h : choice.id < e.bank.voices.length) :
    e.playOn? event choice = some (e.playOn event choice) := by
  cases choice with
  | free id =>
      have hid : id < e.bank.voices.length := h
      simp only [playOn?, Bank.modify?_eq hid, Option.map_some, playOn]
  | stolen id =>
      have hid : id < e.bank.voices.length := h
      simp only [playOn?, Bank.modify?_eq hid, Option.map_some, playOn]

theorem startNote?_eq
    (h : e.bank.Fits) :
    e.startNote? event = some (e.startNote event) := by
  unfold startNote? startNote
  cases hslot : e.held.freeSlot? with
  | none => rfl
  | some slot =>
      dsimp only
      rw [HeldNotes.put?_eq hslot, Bank.allot?_eq h]
      unfold choose?
      cases hchoice : e.bank.choose? event.first e.settings.rotate with
      | none => rfl
      | some choice =>
          have hid : choice.id < e.bank.voices.length :=
            Nat.lt_of_lt_of_le (Bank.id_lt_of_choose? hchoice) h
          refine playOn?_eq ?_
          -- Turning the rotation leaves the voices where they are.
          cases choice <;> exact hid

theorem startUnison?_eq
    (h : e.bank.Fits) :
    e.startUnison? event = some (e.startUnison event) := by
  unfold startUnison? startUnison
  split
  · rfl
  · cases hslot : e.held.freeSlot? with
    | none => rfl
    | some slot =>
        dsimp only
        rw [HeldNotes.put?_eq hslot]
        refine mapActive?_eq ?_
        rw [bank_displace]
        exact h

theorem endUnison?_eq
    (h : e.bank.Fits) :
    e.endUnison? event = some (e.endUnison event) := by
  unfold endUnison? endUnison
  dsimp only
  split
  · cases e.displaced.top? with
    | some note => exact mapActive?_eq h
    | none => exact mapActiveWhere?_eq h
  · rfl

theorem movePedal?_eq
    (h : e.bank.Fits) :
    e.movePedal? event = some (e.movePedal event) := by
  unfold movePedal? movePedal
  dsimp only
  split
  · rfl
  · exact mapActiveWhere?_eq h

end Notes

section Gestures

/-- Obeys a mode message; a reserved controller with another value does nothing. -/
def obeyMode? (e : Engine) (event : Event) : Option Engine :=
  if isMode allSoundOff event then some e.silence
  else if isMode allNotesOff event then e.endAllNotes? event
  else some e

/-- Moves a controller. -/
def moveController? (e : Engine) (event : Event) : Option Engine :=
  match e.settings.protocol with
  | .conventional =>
    if isReserved event.number then e.obeyMode? event
    else
      match e.settings.controllers.slot? event.number with
      | none => some e
      | some slot =>
        e.mapActive? fun v => v.mapControls (·.scheduleMod slot event.second event.time)
  | .expressive =>
    if event.channel = mainChannel then
      if isReserved event.number then e.obeyMode? event
      else some { e with main := bindAxis e.settings event e.main }
    else
      e.mapActiveWhere? (fun v => v.heldBy event.source) fun v =>
        v.mapControls (bindAxis e.settings event)
  | .continuousTouch => some e

/-- Schedules a bend for a channel; the bend of every channel that there is has to exist. -/
def bendChannel?
    (e : Engine)
    (channel : UInt8)
    (bend : Float32)
    (time : Nat) :
    Option Engine :=
  match channelIndex? channel with
  | none => some e
  | some i => e.channelBends[i]?.map fun r =>
      { e with channelBends := e.channelBends.set i (r.schedule bend time) }

/-- Moves the pitch wheel. -/
def bendPitch? (e : Engine) (event : Event) : Option Engine :=
  let bend := Tuning.wheelOffset event.first e.settings.bendRange
  match e.settings.protocol with
  | .conventional =>
    e.mapActive? fun v => { v with pitchBend := v.pitchBend.schedule bend event.time }
  | .expressive =>
    if event.channel = mainChannel then
      some
        { e with
          main := { e.main with pitchBend := e.main.pitchBend.schedule bend event.time } }
    else e.bendChannel? event.channel bend event.time
  | .continuousTouch => some e

/-- Changes the pressure on a note. -/
def pressNote? (e : Engine) (event : Event) : Option Engine :=
  if e.settings.protocol = .conventional then
    e.mapActiveWhere? (fun v => v.owner == some event.source) fun v =>
      { v with notePressure := v.notePressure.schedule event.second event.time }
  else some e

/-- Changes the pressure on a channel. -/
def pressChannel? (e : Engine) (event : Event) : Option Engine :=
  match e.settings.protocol with
  | .conventional => e.mapActive? fun v => v.mapControls (pressBus event)
  | .expressive =>
    if event.channel = mainChannel then some { e with main := pressBus event e.main }
    else
      e.mapActiveWhere? (fun v => v.heldBy event.source) fun v =>
        v.mapControls (pressBus event)
  | .continuousTouch => some e

variable {e : Engine} {event : Event}

theorem obeyMode?_eq
    (h : e.bank.Fits) :
    e.obeyMode? event = some (e.obeyMode event) := by
  unfold obeyMode? obeyMode
  split
  · rfl
  · split
    · exact mapActiveWhere?_eq h
    · rfl

theorem moveController?_eq
    (h : e.bank.Fits) :
    e.moveController? event = some (e.moveController event) := by
  unfold moveController? moveController
  cases e.settings.protocol with
  | conventional =>
      dsimp only
      split
      · exact obeyMode?_eq h
      · cases e.settings.controllers.slot? event.number with
        | none => rfl
        | some slot => exact mapActive?_eq h
  | expressive =>
      dsimp only
      split
      · split
        · exact obeyMode?_eq h
        · rfl
      · exact mapActiveWhere?_eq h
  | continuousTouch => rfl

/-- The channels that have a place are as many as the bends. -/
theorem lt_of_channelIndex?
    {channel : UInt8} {i : Nat}
    (h : channelIndex? channel = some i) :
    i < channelCount := by
  unfold channelIndex? at h
  split at h
  · cases h
    omega
  · cases h

theorem bendChannel?_eq
    (h : e.channelBends.length = channelCount)
    (channel : UInt8) (bend : Float32) (time : Nat) :
    e.bendChannel? channel bend time = some (e.bendChannel channel bend time) := by
  unfold bendChannel? bendChannel
  cases hplace : channelIndex? channel with
  | none => rfl
  | some i =>
      have hi : i < e.channelBends.length := by
        rw [h]
        exact lt_of_channelIndex? hplace
      dsimp only
      rw [List.getElem?_eq_getElem hi, Option.map_some, List.modify_eq_set_getElem?]
      simp [hi]

theorem bendPitch?_eq
    (h : e.Fitted) :
    e.bendPitch? event = some (e.bendPitch event) := by
  unfold bendPitch? bendPitch
  cases e.settings.protocol with
  | conventional => exact mapActive?_eq h.voices
  | expressive =>
      dsimp only
      split
      · rfl
      · exact bendChannel?_eq h.bends _ _ _
  | continuousTouch => rfl

theorem pressNote?_eq
    (h : e.bank.Fits) :
    e.pressNote? event = some (e.pressNote event) := by
  unfold pressNote? pressNote
  split
  · exact mapActiveWhere?_eq h
  · rfl

theorem pressChannel?_eq
    (h : e.bank.Fits) :
    e.pressChannel? event = some (e.pressChannel event) := by
  unfold pressChannel? pressChannel
  cases e.settings.protocol with
  | conventional => exact mapActive?_eq h
  | expressive =>
      dsimp only
      split
      · rfl
      · exact mapActiveWhere?_eq h
  | continuousTouch => rfl

end Gestures

section Events

/-- Performs an event. -/
def perform? (e : Engine) (event : Event) : Option Engine :=
  match event.kind with
  | .noteOn => if e.settings.unison then e.startUnison? event else e.startNote? event
  | .noteOff => if e.settings.unison then e.endUnison? event else e.endNote? event
  | .noteUpdate => e.moveTouch? event
  | .sustain => e.movePedal? event
  | .controller => e.moveController? event
  | .pitchBend => e.bendPitch? event
  | .notePressure => e.pressNote? event
  | .channelPressure => e.pressChannel? event
  | .null => some e

variable {e : Engine}

/-- Performing an event only looks at places that exist. -/
theorem perform?_eq
    (h : e.Fitted)
    (event : Event) :
    e.perform? event = some (e.perform event) := by
  unfold perform? perform
  cases event.kind with
  | noteOn =>
      dsimp only
      split
      · exact startUnison?_eq h.voices
      · exact startNote?_eq h.voices
  | noteOff =>
      dsimp only
      split
      · exact endUnison?_eq h.voices
      · exact mapActiveWhere?_eq h.voices
  | noteUpdate => exact mapActiveWhere?_eq h.voices
  | sustain => exact movePedal?_eq h.voices
  | controller => exact moveController?_eq h.voices
  | pitchBend => exact bendPitch?_eq h
  | notePressure => exact pressNote?_eq h.voices
  | channelPressure => exact pressChannel?_eq h.voices
  | null => rfl

/-- Where as many voices and bends are, everything fits as well. -/
theorem Fitted.congr
    {f : Engine}
    (h : e.Fitted)
    (hcount : f.bank.count = e.bank.count)
    (hvoices : f.bank.voices.length = e.bank.voices.length)
    (hbends : f.channelBends.length = e.channelBends.length) :
    f.Fitted where
  voices := by
    rw [Bank.Fits, hcount, hvoices]
    exact h.voices
  bends := hbends.trans h.bends

/-- Events neither make nor remove places. -/
theorem Fitted.perform
    (h : e.Fitted)
    (event : Event) :
    (e.perform event).Fitted := by
  have hback := background_perform e event
  have hbends := congrArg (fun r => r.bends.length) (regimes_perform e event)
  simp only [regimes, List.length_map] at hbends
  exact h.congr (congrArg Background.count hback) (congrArg Background.capacity hback) hbends

/-- Performing events one after the other only looks at places that exist. -/
theorem foldlM_perform?
    (h : e.Fitted)
    (events : List Event) :
    events.foldlM perform? e = some (events.foldl perform e)
      ∧ (events.foldl perform e).Fitted := by
  induction events generalizing e with
  | nil => exact ⟨rfl, h⟩
  | cons event events ih =>
      obtain ⟨hrest, hfitted⟩ := ih (h.perform event)
      refine ⟨?_, hfitted⟩
      rw [List.foldlM_cons, perform?_eq h event]
      exact hrest

end Events

end Engine
end Polyphony
