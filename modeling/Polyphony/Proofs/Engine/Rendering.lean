import Polyphony.Proofs.Engine.Performing
import Polyphony.Proofs.Notes.Timeless

/-!
# What rendering does to an engine

Rendering moves the ramps of the voices that play notes and have a place in the
output.  Which of their ramps it moves depends on the protocol and on the drift;
who plays what stays as it is.

**Roster.**  The roster of an engine is what it knows about notes: the settings,
the pedal, the two tables, and the tenancies up to their ages.  Only performing
events and silence change it.

**Results.**
* `get_renderVoice`: every rendered ramp takes the frames of the block.
* `roster_prepare`, `roster_renderBlock`: nothing in a block but its events
  changes the roster.
-/

namespace Polyphony

namespace Settings

/-- Whether a block renders the ramp in a role. -/
def renders (s : Settings) : Role → Bool
  | .pitch => true
  | .pitchBend => s.protocol == .conventional
  | .gate => true
  | .amp => s.protocol == .continuousTouch
  | .velocity => true
  | .notePressure => s.protocol == .conventional
  | .channelPressure => s.protocol != .continuousTouch
  | .mod1 => true
  | .mod2 => true
  | .mod3 => true
  | .drift => 0.0 < s.drift

end Settings

namespace BlockContext

section Voices

/-- Rendering leaves the note of a voice alone. -/
theorem tenancy_renderVoice (c : BlockContext) (id : Nat) (v : Voice) :
    (c.renderVoice id v).2.toTenancy = v.toTenancy := by
  unfold renderVoice pitch bentPitch driftedPitch aftertouch
  cases c.settings.protocol with
  | conventional =>
      dsimp only
      split <;> rfl
  | expressive =>
      dsimp only
      split <;> split <;> rfl
  | continuousTouch =>
      dsimp only
      split <;> rfl

/-- Rendering a block takes its frames with every rendered ramp, and no other. -/
theorem get_renderVoice
    (c : BlockContext) (id : Nat) (v : Voice) (role : Role)
    (h : 0 < c.frames) :
    (c.renderVoice id v).2.toControls.get role
      = if c.settings.renders role then
          Ramp.next^[c.frames] ((v.toControls.get role).within c.frames)
        else v.toControls.get role := by
  have hrender (r : Ramp) :
      (r.render c.frames).2 = Ramp.next^[c.frames] (r.within c.frames) := by
    rw [Ramp.render_eq r h]
  have hadd (r s : Ramp) :
      (r.addOnto (s.render c.frames).1).2 = Ramp.next^[c.frames] (r.within c.frames) := by
    have hsize : 0 < (s.render c.frames).1.size := by
      rw [Ramp.size_render]
      exact h
    rw [Ramp.addOnto_snd r hsize, Ramp.size_render]
  unfold renderVoice pitch bentPitch driftedPitch aftertouch
  cases hprotocol : c.settings.protocol with
  | conventional =>
      dsimp only
      split
      · cases role <;> simp_all [Controls.get, Settings.renders]
      · cases role <;> simp_all [Controls.get, Settings.renders]
  | expressive =>
      dsimp only
      split
      · split
        · cases role <;> simp_all [Controls.get, Settings.renders]
        · cases role <;> simp_all [Controls.get, Settings.renders]
      · split
        · cases role <;> simp_all [Controls.get, Settings.renders]
        · cases role <;> simp_all [Controls.get, Settings.renders]
  | continuousTouch =>
      dsimp only
      split
      · cases role <;> simp_all [Controls.get, Settings.renders]
      · cases role <;> simp_all [Controls.get, Settings.renders]

/-- The streams of a voice come from its own ramps. -/
theorem renderVoice_fst (c : BlockContext) (id : Nat) (v : Voice) :
    (c.renderVoice id v).1 =
      { pitch := (c.pitch v).1
        gate := (v.gate.render c.frames).1
        velocity := (v.velocity.render c.frames).1
        voice := Signal.constant c.frames (Float32.ofNat id)
        aftertouch := (c.aftertouch v).1
        modA := c.busMod (v.mod1.render c.frames).1 c.shared.mod1 false
        modB := c.busMod (v.mod2.render c.frames).1 c.shared.mod2 c.stretchesMod2
        modC := c.busMod (v.mod3.render c.frames).1 c.shared.mod3 true } := by
  unfold renderVoice pitch bentPitch driftedPitch aftertouch
  cases c.settings.protocol with
  | conventional =>
      dsimp only
      split <;> rfl
  | expressive =>
      dsimp only
      split <;> split <;> rfl
  | continuousTouch =>
      dsimp only
      split <;> rfl

theorem size_render_le (c : BlockContext) (r : Ramp) :
    (r.render c.frames).1.size ≤ c.frames := by
  rw [Ramp.size_render]

theorem size_add_le
    {own : Signal} {n : Nat}
    (h : own.size ≤ n)
    (other : Signal) :
    (own.add other).size ≤ n := by
  unfold Signal.add
  rw [Array.size_zipWith]
  exact Nat.le_trans (Nat.min_le_left _ _) h

theorem size_pitch_le (c : BlockContext) (v : Voice) :
    (c.pitch v).1.size ≤ c.frames := by
  have hbent : (c.bentPitch v).1.size ≤ c.frames := by
    unfold bentPitch
    dsimp only
    split
    · rw [Ramp.size_addOnto]
      exact c.size_render_le _
    · split
      · exact size_add_le (size_add_le (c.size_render_le _) _) _
      · exact size_add_le (c.size_render_le _) _
    · exact c.size_render_le _
  have hdrifted (pitch : Signal) (w : Voice) (h : pitch.size ≤ c.frames) :
      (c.driftedPitch pitch w).1.size ≤ c.frames := by
    unfold driftedPitch
    split
    · exact size_add_le h _
    · exact h
  have htuned (pitch : Signal) (h : pitch.size ≤ c.frames) :
      (c.tunedPitch pitch).size ≤ c.frames := by
    unfold tunedPitch
    split
    · exact h
    · unfold Signal.shift
      rw [Array.size_map]
      exact h
  exact htuned _ (hdrifted _ _ hbent)

theorem size_aftertouch_le (c : BlockContext) (v : Voice) :
    (c.aftertouch v).1.size ≤ c.frames := by
  unfold aftertouch
  split
  · dsimp only
    rw [Ramp.size_addOnto]
    exact c.size_render_le _
  · exact size_add_le (c.size_render_le _) _
  · exact c.size_render_le _

theorem size_busMod_le
    (c : BlockContext) {own : Signal} (shared : Signal) (stretched : Bool)
    (h : own.size ≤ c.frames) :
    (c.busMod own shared stretched).size ≤ c.frames := by
  unfold busMod
  split
  · dsimp only
    split
    · unfold Signal.bipolar
      rw [Array.size_map]
      exact size_add_le h _
    · exact size_add_le h _
  · exact h
  · exact h

/-- No stream of a voice is longer than the block. -/
theorem size_get_renderVoice_le (c : BlockContext) (id : Nat) (v : Voice) (s : Stream) :
    ((c.renderVoice id v).1.get s).size ≤ c.frames := by
  cases s with
  | pitch => exact c.size_pitch_le v
  | gate => exact c.size_render_le _
  | velocity => exact c.size_render_le _
  | voice =>
      show (Signal.constant c.frames _).size ≤ c.frames
      unfold Signal.constant
      rw [Array.size_replicate]
  | aftertouch => exact c.size_aftertouch_le _
  | modA => exact c.size_busMod_le _ _ (c.size_render_le _)
  | modB => exact c.size_busMod_le _ _ (c.size_render_le _)
  | modC => exact c.size_busMod_le _ _ (c.size_render_le _)

/-- The streams of the voices below the count. -/
theorem getElem?_renderVoices_fst
    (c : BlockContext) (voices : List Voice) :
    ∀ (count id i : Nat),
      (c.renderVoices count id voices).1[i]?
        = if i < count then voices[i]?.map fun v => (c.renderVoice (id + i) v).1 else none := by
  induction voices with
  | nil =>
      intro count id i
      cases count <;> simp [renderVoices]
  | cons v voices ih =>
      intro count id i
      cases count with
      | zero => simp [renderVoices]
      | succ count =>
          cases i with
          | zero => simp [renderVoices]
          | succ i =>
              simp only [renderVoices, List.getElem?_cons_succ, ih, Nat.succ_lt_succ_iff]
              rw [Nat.add_assoc, Nat.add_comm 1 i]

/-- The voices after rendering. -/
theorem getElem?_renderVoices_snd
    (c : BlockContext) (voices : List Voice) :
    ∀ (count id i : Nat),
      (c.renderVoices count id voices).2[i]?
        = voices[i]?.map fun v => if i < count then (c.renderVoice (id + i) v).2 else v := by
  induction voices with
  | nil =>
      intro count id i
      cases count <;> simp [renderVoices]
  | cons v voices ih =>
      intro count id i
      cases count with
      | zero => simp [renderVoices]
      | succ count =>
          cases i with
          | zero => simp [renderVoices]
          | succ i =>
              simp only [renderVoices, List.getElem?_cons_succ, ih, Nat.succ_lt_succ_iff]
              rw [Nat.add_assoc, Nat.add_comm 1 i]

/-- The voices after rendering, by their numbers. -/
theorem renderVoices_snd (c : BlockContext) (count : Nat) (voices : List Voice) :
    (c.renderVoices count 0 voices).2
      = voices.mapIdx fun i v => if i < count then (c.renderVoice i v).2 else v := by
  apply List.ext_getElem?
  intro i
  rw [getElem?_renderVoices_snd, List.getElem?_mapIdx, Nat.zero_add]

end Voices

end BlockContext

/-- What an engine knows about notes. -/
structure Roster where
  settings : Settings
  pedal : Bool
  count : Nat
  held : HeldNotes
  displaced : DisplacedNotes
  tenancies : List Tenancy

namespace Roster

/-- The tenancies of the voices that play notes. -/
def active (r : Roster) : List Tenancy :=
  r.tenancies.take r.count

end Roster

namespace Engine

section Rosters

/-- What an engine knows about notes. -/
def roster (e : Engine) : Roster where
  settings := e.settings
  pedal := e.pedal
  count := e.bank.count
  held := e.held
  displaced := e.displaced
  tenancies := e.bank.voices.map fun v => v.toTenancy.ageless

theorem active_roster (e : Engine) :
    e.roster.active = e.bank.active.map fun v => v.toTenancy.ageless := by
  exact List.map_take.symm

/-- The tenancies of the voices that play, after an event that does not silence. -/
theorem mem_active_roster_perform
    {e : Engine} {event : Event}
    (hsilent : e.silences event = false)
    {a : Tenancy}
    (ha : a ∈ (e.perform event).roster.active) :
    ∃ id, ∃ v ∈ e.bank.active,
      a = ((e.answer event id v.toTenancy).tenancy v.toTenancy).ageless := by
  rw [active_roster, active_perform hsilent] at ha
  obtain ⟨w, hw, rfl⟩ := List.mem_map.1 ha
  obtain ⟨id, hid, rfl⟩ := List.mem_mapIdx.1 hw
  refine ⟨id, e.bank.active[id], List.getElem_mem hid, ?_⟩
  rw [Answer.take_eq]

/-- The context in which the voices of a block are rendered. -/
def blockContext (e : Engine) (n : Nat) : BlockContext where
  frames := n
  settings := e.settings
  tuningShift := e.tuningShift
  shared := (e.sharedSignals n).1

/-- Doing something to the numbered voices that keeps what is seen of them. -/
theorem map_mapIdx_of_eq
    {α : Type} {see : Voice → α} {f : Nat → Voice → Voice}
    (h : ∀ id v, see (f id v) = see v)
    (voices : List Voice) :
    (voices.mapIdx f).map see = voices.map see := by
  apply List.ext_getElem?
  intro id
  simp only [List.getElem?_map, List.getElem?_mapIdx, Option.map_map]
  congr 1
  funext v
  exact h id v

theorem ageless_grow (v : Voice) (n : Nat) :
    (v.grow n).toTenancy.ageless = v.toTenancy.ageless := by
  unfold Voice.grow
  split
  · rfl
  · rfl

theorem roster_growVoices (e : Engine) (n : Nat) :
    (e.growVoices n).roster = e.roster := by
  unfold roster growVoices mapActive Bank.mapActive Bank.mapActiveIdx
  dsimp only
  rw [map_mapIdx_of_eq]
  intro id v
  split
  · exact ageless_grow v n
  · rfl

theorem roster_scheduleDrift (e : Engine) (goals : List Float32) :
    (e.scheduleDrift goals).roster = e.roster := by
  unfold roster scheduleDrift Bank.mapActiveIdx
  dsimp only
  rw [map_mapIdx_of_eq]
  intro id v
  split
  · split <;> rfl
  · rfl

theorem roster_runDrift (e : Engine) (n : Nat) :
    (e.runDrift n).roster = e.roster := by
  unfold runDrift
  split
  · dsimp only
    split
    · exact roster_scheduleDrift _ _
    · rfl
  · rfl

/-- What comes before the events of a block does not change the roster. -/
theorem roster_prepare (e : Engine) (n : Nat) :
    (e.prepare n).roster = e.roster := by
  unfold prepare
  rw [roster_runDrift, roster_growVoices]

theorem queue_prepare (e : Engine) (n : Nat) :
    (e.prepare n).queue = e.queue := by
  unfold prepare runDrift
  split
  · dsimp only
    split <;> rfl
  · rfl

theorem clock_prepare (e : Engine) (n : Nat) :
    (e.prepare n).clock = e.clock := by
  unfold prepare runDrift
  split
  · dsimp only
    split <;> rfl
  · rfl

/-- The shared signals move nothing but the shared buses. -/
theorem sharedSignals_snd (e : Engine) (n : Nat) :
    (e.sharedSignals n).2 =
      { e with
        main := (e.sharedSignals n).2.main
        channelBends := (e.sharedSignals n).2.channelBends } := by
  unfold sharedSignals
  cases e.settings.protocol with
  | conventional => rfl
  | expressive => rfl
  | continuousTouch => rfl

/-- The engine after rendering. -/
theorem renderVoices_snd (e : Engine) (n places : Nat) :
    (e.renderVoices n places).2 =
      { e with
        main := (e.sharedSignals n).2.main
        channelBends := (e.sharedSignals n).2.channelBends
        bank :=
          { e.bank with
            voices := e.bank.voices.mapIdx fun id v =>
              if id < min e.bank.count places then ((e.blockContext n).renderVoice id v).2
              else v } } := by
  unfold renderVoices
  dsimp only
  rw [BlockContext.renderVoices_snd, sharedSignals_snd]
  rfl

/-- The signals of the rendered voices. -/
theorem getElem?_renderVoices_fst (e : Engine) (n places id : Nat) :
    (e.renderVoices n places).1[id]?
      = if id < min e.bank.count places then
          e.bank.voices[id]?.map fun v => ((e.blockContext n).renderVoice id v).1
        else none := by
  unfold renderVoices
  dsimp only
  rw [BlockContext.getElem?_renderVoices_fst, sharedSignals_snd, Nat.zero_add]
  rfl

/-- No stream of a block is longer than the block. -/
theorem size_signals_le
    {e : Engine} {n places : Nat} {own : VoiceSignals}
    (h : own ∈ (e.renderVoices n places).1)
    (s : Stream) :
    (own.get s).size ≤ n := by
  obtain ⟨id, hid⟩ := List.mem_iff_getElem?.1 h
  rw [getElem?_renderVoices_fst] at hid
  split at hid
  · obtain ⟨v, _, rfl⟩ := Option.map_eq_some_iff.1 hid
    exact (e.blockContext n).size_get_renderVoice_le id v s
  · cases hid

theorem roster_renderVoices (e : Engine) (n places : Nat) :
    (e.renderVoices n places).2.roster = e.roster := by
  rw [renderVoices_snd]
  unfold roster
  dsimp only
  rw [map_mapIdx_of_eq]
  intro id v
  split
  · rw [BlockContext.tenancy_renderVoice]
  · rfl

theorem background_renderVoices (e : Engine) (n places : Nat) :
    (e.renderVoices n places).2.background = e.background := by
  rw [renderVoices_snd]
  simp [background, capacity, Bank.capacity]

/-- What comes after the events of a block does not change the roster either. -/
theorem roster_finish (e : Engine) (n : Nat) :
    (e.finish n).roster = e.roster := by
  unfold roster finish finishAt dropPending Bank.mapAll
  dsimp only
  rw [List.map_map]
  rfl

/-- A block leaves the engine as rendering its performed events does, its ramps tidied. -/
theorem renderBlock_fst (e : Engine) (n : Nat) (out : Buffer) :
    (e.renderBlock n out).1 = ((e.performed n).renderVoices n out.voices).2.finish n := by
  rfl

theorem renderBlock_snd (e : Engine) (n : Nat) (out : Buffer) :
    (e.renderBlock n out).2
      = out.putVoices ((e.performed n).renderVoices n out.voices).1 := by
  rfl

/-- Only the events of a block change the roster. -/
theorem roster_renderBlock (e : Engine) (n : Nat) (out : Buffer) :
    (e.renderBlock n out).1.roster = (e.performed n).roster := by
  rw [renderBlock_fst, roster_finish, roster_renderVoices]

end Rosters

end Engine
end Polyphony
