import Polyphony.Proofs.Engine.Performing

/-!
# The shared buses after an event

When every note has a channel of its own, the controls of the main channel are
added to those of all voices, and the bend of a channel to the pitches of the
voices on it.  Only gestures on the main channel reach the former, and only the
wheel of a channel its bend.

**Results.**
* `buses_perform`: the buses after an event that does not silence.
* `bend?_perform`: the bend of one channel after such an event.
-/

namespace Polyphony
namespace Engine

section Buses

/-- The bend that a wheel event asks for. -/
def wheelBend (e : Engine) (event : Event) : Float32 :=
  Tuning.wheelOffset event.first e.settings.bendRange

/-- The controls of the main channel after an event. -/
def mainAfter (e : Engine) (event : Event) : Controls :=
  if e.settings.protocol = .expressive ∧ event.channel = mainChannel then
    match event.kind with
    | .controller =>
        if isReserved event.number then e.main else bindAxis e.settings event e.main
    | .pitchBend =>
        { e.main with
          pitchBend := e.main.pitchBend.schedule (e.wheelBend event) event.time }
    | .channelPressure => pressBus event e.main
    | _ => e.main
  else e.main

/-- Whether an event bends a channel other than the main one. -/
def bendsChannel (e : Engine) (event : Event) : Bool :=
  e.settings.protocol == .expressive && event.kind == .pitchBend
    && event.channel != mainChannel

/-- The bends of the channels after an event. -/
def bendsAfter (e : Engine) (event : Event) : List Ramp :=
  if e.bendsChannel event then
    match channelIndex? event.channel with
    | none => e.channelBends
    | some i => e.channelBends.modify i (·.schedule (e.wheelBend event) event.time)
  else e.channelBends

/-- The shared buses. -/
structure Buses where
  main : Controls
  channelBends : List Ramp

/-- The shared buses of an engine. -/
def buses (e : Engine) : Buses where
  main := e.main
  channelBends := e.channelBends

/-- The bend of a channel, if there is such a channel. -/
def bend? (e : Engine) (channel : UInt8) : Option Ramp :=
  (channelIndex? channel).bind fun i => e.channelBends[i]?

variable {e : Engine} {event : Event}

theorem buses_startNote (e : Engine) (event : Event) :
    (e.startNote event).buses = e.buses := by
  unfold startNote
  split
  · rfl
  · dsimp only
    split
    · rfl
    · rename_i choice _
      cases choice <;> rfl

theorem buses_startUnison (e : Engine) (event : Event) :
    (e.startUnison event).buses = e.buses := by
  unfold startUnison displace
  split
  · rfl
  · split
    · rfl
    · dsimp only
      split <;> rfl

theorem buses_endUnison (e : Engine) (event : Event) :
    (e.endUnison event).buses = e.buses := by
  unfold endUnison
  dsimp only
  split
  · split <;> rfl
  · rfl

/-- Mode messages that do not silence leave the buses alone. -/
theorem buses_obeyMode
    (hsilent : isMode allSoundOff event = false) :
    (e.obeyMode event).buses = e.buses := by
  unfold obeyMode
  rw [hsilent, if_neg Bool.false_ne_true]
  split <;> rfl

theorem buses_moveController
    (hkind : event.kind = .controller)
    (hsilent : e.silences event = false) :
    (e.moveController event).buses = ⟨e.mainAfter event, e.channelBends⟩ := by
  unfold moveController mainAfter
  cases hprotocol : e.settings.protocol with
  | conventional =>
      have hmode : isMode allSoundOff event = false := by
        simpa [silences, obeys, hkind, hprotocol] using hsilent
      dsimp only
      split
      · exact buses_obeyMode hmode
      · split <;> rfl
  | expressive =>
      by_cases hmain : event.channel = mainChannel
      · have hmode : isMode allSoundOff event = false := by
          simpa [silences, obeys, hkind, hprotocol, hmain] using hsilent
        simp only [hmain, hkind, and_self, if_true]
        split
        · exact buses_obeyMode hmode
        · rfl
      · simp only [hmain, and_false, if_false]
        rfl
  | continuousTouch => rfl

theorem buses_bendPitch
    (hkind : event.kind = .pitchBend) :
    (e.bendPitch event).buses = ⟨e.mainAfter event, e.bendsAfter event⟩ := by
  unfold bendPitch mainAfter bendsAfter bendsChannel
  cases hprotocol : e.settings.protocol with
  | conventional => rfl
  | expressive =>
      by_cases hmain : event.channel = mainChannel
      · simp [hmain, hkind, buses, wheelBend]
      · unfold bendChannel
        cases channelIndex? event.channel <;> simp [hmain, hkind, buses, wheelBend]
  | continuousTouch => rfl

theorem buses_pressChannel
    (hkind : event.kind = .channelPressure) :
    (e.pressChannel event).buses = ⟨e.mainAfter event, e.channelBends⟩ := by
  unfold pressChannel mainAfter
  cases hprotocol : e.settings.protocol with
  | conventional => rfl
  | expressive =>
      by_cases hmain : event.channel = mainChannel
      · simp [hmain, hkind, buses]
      · simp only [hmain, and_false, if_false]
        rfl
  | continuousTouch => rfl

/-- Unless it silences, an event changes the shared buses as follows. -/
theorem buses_perform
    (hsilent : e.silences event = false) :
    (e.perform event).buses = ⟨e.mainAfter event, e.bendsAfter event⟩ := by
  by_cases hbend : event.kind = .pitchBend
  · unfold perform
    rw [hbend]
    exact buses_bendPitch hbend
  have hbends : e.bendsAfter event = e.channelBends := by
    simp [bendsAfter, bendsChannel, hbend]
  rw [hbends]
  have hmain
      (hcontroller : event.kind ≠ .controller)
      (hpressure : event.kind ≠ .channelPressure) :
      e.mainAfter event = e.main := by
    unfold mainAfter
    split
    · split <;> simp_all
    · rfl
  unfold perform
  cases hkind : event.kind with
  | controller => exact buses_moveController hkind hsilent
  | channelPressure => exact buses_pressChannel hkind
  | pitchBend => exact absurd hkind hbend
  | noteOn =>
      rw [hmain (by simp [hkind]) (by simp [hkind])]
      dsimp only
      split
      · exact buses_startUnison e event
      · exact buses_startNote e event
  | noteOff =>
      rw [hmain (by simp [hkind]) (by simp [hkind])]
      dsimp only
      split
      · exact buses_endUnison e event
      · rfl
  | sustain =>
      rw [hmain (by simp [hkind]) (by simp [hkind])]
      dsimp only [movePedal]
      split <;> rfl
  | notePressure =>
      rw [hmain (by simp [hkind]) (by simp [hkind])]
      dsimp only [pressNote]
      split <;> rfl
  | noteUpdate =>
      rw [hmain (by simp [hkind]) (by simp [hkind])]
      rfl
  | null =>
      rw [hmain (by simp [hkind]) (by simp [hkind])]
      rfl

/-- Channels have bends of their own. -/
theorem channelIndex?_inj
    {a b : UInt8} {i : Nat}
    (ha : channelIndex? a = some i)
    (hb : channelIndex? b = some i) :
    a = b := by
  unfold channelIndex? at ha hb
  split at ha
  · split at hb
    · rw [Option.some.injEq] at ha hb
      apply UInt8.toNat_inj.1
      omega
    · cases hb
  · cases ha

/-- Unless it silences, an event changes the bend of a channel only if it bends the channel. -/
theorem bend?_perform
    (hsilent : e.silences event = false)
    (channel : UInt8) :
    (e.perform event).bend? channel
      = (e.bend? channel).map fun r =>
          if e.bendsChannel event ∧ event.channel = channel then
            r.schedule (e.wheelBend event) event.time
          else r := by
  have hbends : (e.perform event).channelBends = e.bendsAfter event :=
    congrArg Buses.channelBends (buses_perform hsilent)
  unfold bend?
  rw [hbends]
  cases hindex : channelIndex? channel with
  | none => rfl
  | some i =>
      show (e.bendsAfter event)[i]? = Option.map _ e.channelBends[i]?
      unfold bendsAfter
      cases hbend : e.bendsChannel event with
      | false => simp
      | true =>
          rw [if_pos rfl]
          cases hevent : channelIndex? event.channel with
          | none =>
              have hne : event.channel ≠ channel := by
                rintro rfl
                rw [hindex] at hevent
                cases hevent
              simp [hne]
          | some k =>
              dsimp only
              rw [List.getElem?_modify]
              by_cases hchannel : event.channel = channel
              · have hk : k = i := by
                  rw [hchannel, hindex, Option.some.injEq] at hevent
                  exact hevent.symm
                simp [hchannel, hk]
              · have hk : k ≠ i := by
                  rintro rfl
                  exact hchannel (channelIndex?_inj hevent hindex)
                simp [hchannel, hk]

end Buses

end Engine
end Polyphony
