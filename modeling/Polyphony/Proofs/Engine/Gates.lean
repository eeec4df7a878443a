import Polyphony.Proofs.Engine.Concord
import Polyphony.Proofs.Ramp.Jumping
import Polyphony.Proofs.Signal.Planes

/-!
# No gate hangs

A voice has two records of whether it plays: its phase, and the gate that it
sends out.  They are moved by different hands, yet after every block the gate
rests at one if the voice is busy and at zero if it is off, and the velocity at
that of the event that the voice plays, or at zero.

**Aims.**  Within a block gate and velocity are on their way: the goal that was
scheduled last is the one that the phase asks for.

**Results.**
* `aims_take`: every answer of a voice keeps its aims.
* `settled_of_reachable`: between blocks, gates and velocities have arrived.
* `gates_follow_phases`: so they have for a host, which also finds the gates at the
  ends of the blocks that are written out.
-/

namespace Polyphony

namespace Voice

/-- The gate that the phase of a voice asks for. -/
def gateLevel (v : Voice) : Float32 :=
  if v.isBusy then 1.0 else 0.0

/-- The velocity that the phase of a voice asks for. -/
def velocityLevel (v : Voice) : Float32 :=
  if v.isBusy then v.event.second else 0.0

/-- Gate and velocity are on their way to what the phase asks for. -/
structure Aims (v : Voice) : Prop where
  gate : v.gate.Jumps
  gate_goal : v.gate.goal = v.gateLevel
  velocity : v.velocity.Jumps
  velocity_goal : v.velocity.goal = v.velocityLevel

/-- Gate and velocity have arrived. -/
structure Settles (v : Voice) : Prop extends Aims v where
  gate_pending : v.gate.pending = []
  velocity_pending : v.velocity.pending = []

/-- What gates and velocities depend on. -/
def sound (v : Voice) : Ramp × Ramp × Phase × Event :=
  (v.gate, v.velocity, v.phase, v.event)

section Levels

variable {v w : Voice}

theorem Settles.gate_rests
    (h : v.Settles) :
    v.gate.RestsAt v.gateLevel := by
  have hrests := h.gate.restsAt_goal h.gate_pending
  rwa [h.gate_goal] at hrests

theorem Settles.velocity_rests
    (h : v.Settles) :
    v.velocity.RestsAt v.velocityLevel := by
  have hrests := h.velocity.restsAt_goal h.velocity_pending
  rwa [h.velocity_goal] at hrests

/-- Voices that sound alike have the same aims. -/
theorem Aims.congr
    (h : v.Aims)
    (heq : w.sound = v.sound) :
    w.Aims := by
  have hgate : w.gate = v.gate := congrArg Prod.fst heq
  have hvelocity : w.velocity = v.velocity := congrArg (fun s => s.2.1) heq
  have hphase : w.phase = v.phase := congrArg (fun s => s.2.2.1) heq
  have hevent : w.event = v.event := congrArg (fun s => s.2.2.2) heq
  have hbusy : w.isBusy = v.isBusy := by
    unfold isBusy
    rw [hphase]
  constructor
  · rw [hgate]
    exact h.gate
  · rw [hgate, gateLevel, hbusy]
    exact h.gate_goal
  · rw [hvelocity]
    exact h.velocity
  · rw [hvelocity, velocityLevel, hbusy, hevent]
    exact h.velocity_goal

theorem Settles.congr
    (h : v.Settles)
    (heq : w.sound = v.sound) :
    w.Settles := by
  have hgate : w.gate = v.gate := congrArg Prod.fst heq
  have hvelocity : w.velocity = v.velocity := congrArg (fun s => s.2.1) heq
  refine ⟨h.toAims.congr heq, ?_, ?_⟩
  · rw [hgate]
    exact h.gate_pending
  · rw [hvelocity]
    exact h.velocity_pending

theorem settles_idle (sampleRate : Float32) :
    (idle sampleRate).Settles := by
  constructor
  · exact ⟨⟨rfl, rfl, rfl, rfl⟩, rfl, ⟨rfl, rfl, rfl, rfl⟩, rfl⟩
  · rfl
  · rfl

/-- Silence settles a voice, whatever it was about to do. -/
theorem Aims.settles_muted
    (h : v.Aims) :
    v.vacate.dropPending.mute.Settles := by
  have hgate : v.gate.dropPending.Jumps :=
    ⟨h.gate.seconds, h.gate.samples, h.gate.remaining, h.gate.landed⟩
  have hvelocity : v.velocity.dropPending.Jumps :=
    ⟨h.velocity.seconds, h.velocity.samples, h.velocity.remaining, h.velocity.landed⟩
  constructor
  · exact ⟨hgate.toZero.1, hgate.toZero.2.goal_eq, hvelocity.toZero.1,
      hvelocity.toZero.2.goal_eq⟩
  · rfl
  · rfl

theorem Settles.withGlides
    (h : v.Settles)
    (pitch gesture drift : Float32) :
    (v.mapControls (·.withGlides pitch gesture drift)).Settles := by
  constructor
  · exact ⟨h.gate.withGlide, h.gate_goal, h.velocity.withGlide, h.velocity_goal⟩
  · exact h.gate_pending
  · exact h.velocity_pending

theorem Settles.withSampleRate
    (h : v.Settles)
    (sampleRate : Float32) :
    (v.mapControls (·.withSampleRate sampleRate)).Settles := by
  constructor
  · exact ⟨h.gate.withSampleRate sampleRate, h.gate_goal,
      h.velocity.withSampleRate sampleRate, h.velocity_goal⟩
  · exact h.gate_pending
  · exact h.velocity_pending

theorem Settles.dropPending
    (h : v.Settles) :
    v.dropPending.Settles := by
  refine h.congr ?_
  show (v.gate.dropPending, v.velocity.dropPending, v.phase, v.event) = _
  rw [Ramp.dropPending_of_nil h.gate_pending, Ramp.dropPending_of_nil h.velocity_pending]
  rfl

end Levels

end Voice

namespace Answer

/--
Whether an answer suits a voice: only a held note is left to the pedal, and gate
and velocity are not adjusted.
-/
def Suits (tn : Tenancy) : Answer → Prop
  | .keep => tn.phase = .held
  | .adjust role _ => role ≠ .gate ∧ role ≠ .velocity
  | _ => True

/-- A proper answer suits the voice that gives it. -/
theorem Proper.suits
    {event : Event} {tn : Tenancy} {a : Answer}
    (h : a.Proper event tn) :
    a.Suits tn := by
  cases h with
  | rest => trivial
  | start => trivial
  | steal => trivial
  | release => trivial
  | keep hheld => exact hheld
  | move => trivial
  | adjust role value hgate hvelocity => exact ⟨hgate, hvelocity⟩

end Answer

namespace Voice

/-- An answer that suits the voice keeps its aims. -/
theorem aims_take
    {v : Voice} {a : Answer}
    (h : v.Aims)
    (hsuits : a.Suits v.toTenancy)
    (t : Temperament) :
    (v.take t a).Aims := by
  have hgate (changes : List Change) := h.gate.scheduleAll changes
  have hvelocity (changes : List Change) := h.velocity.scheduleAll changes
  cases a with
  | rest => exact h
  | start event =>
      exact ⟨hgate [_], Ramp.goal_schedule _ _ _, hvelocity [_], Ramp.goal_schedule _ _ _⟩
  | steal event retrigger =>
      have hattack :
          (v.take t (.steal event retrigger)).gate.Jumps := by
        cases retrigger with
        | true => exact hgate [_, _]
        | false => exact hgate [_]
      have hsame :
          (v.take t (.steal event retrigger)).velocity
            = v.velocity.schedule event.second (attackTime event) := by
        cases retrigger <;> rfl
      refine ⟨hattack, Ramp.goal_schedule _ _ _, ?_, ?_⟩
      · rw [hsame]
        exact hvelocity [_]
      · rw [hsame]
        exact Ramp.goal_schedule _ _ _
  | release event =>
      exact ⟨hgate [_], Ramp.goal_schedule _ _ _, hvelocity [_], Ramp.goal_schedule _ _ _⟩
  | keep =>
      have hheld : v.phase = .held := hsuits
      have hbusy : v.isBusy = true := by
        unfold isBusy
        rw [hheld]
        rfl
      have hgate_goal : v.gate.goal = 1.0 := by
        rw [h.gate_goal, gateLevel, if_pos hbusy]
      have hvelocity_goal : v.velocity.goal = v.event.second := by
        rw [h.velocity_goal, velocityLevel, if_pos hbusy]
      exact ⟨h.gate, hgate_goal, h.velocity, hvelocity_goal⟩
  | move event => exact ⟨h.gate, h.gate_goal, h.velocity, h.velocity_goal⟩
  | adjust role change =>
      obtain ⟨hg, hv⟩ := hsuits
      have hsound : (v.take t (.adjust role change)).sound = v.sound := by
        cases role with
        | gate => exact absurd rfl hg
        | velocity => exact absurd rfl hv
        | _ => rfl
      exact h.congr hsound

end Voice

namespace Engine

/-- Within a block the voices that play have their aims, and the others have arrived. -/
def Aimed (e : Engine) : Prop :=
  ∀ id v, e.bank.voices[id]? = some v → v.Aims ∧ (e.bank.count ≤ id → v.Settles)

/-- Between two blocks all voices have arrived. -/
def Settled (e : Engine) : Prop :=
  ∀ v ∈ e.bank.voices, v.Settles

/-- What a host may do if its buffers have room for all voices. -/
def HasPlaces (e : Engine) : Operation → Prop
  | .process _ out => e.capacity ≤ out.voices
  | _ => True

section Performing

variable {e : Engine} {event : Event}

theorem Settled.aimed
    (h : e.Settled) :
    e.Aimed := by
  intro id v hv
  have hsettles := h v (List.mem_of_getElem? hv)
  exact ⟨hsettles.toAims, fun _ => hsettles⟩

/-- Silence settles everything. -/
theorem Aimed.settled_silence
    (h : e.Aimed) :
    e.silence.Settled := by
  intro v hv
  obtain ⟨w, hw, rfl⟩ := List.mem_map.1 hv
  obtain ⟨id, hid⟩ := List.mem_iff_getElem?.1 hw
  exact (h id w hid).1.settles_muted

theorem Aimed.perform
    (h : e.Aimed)
    (event : Event) :
    (Engine.perform e event).Aimed := by
  cases hsilent : e.silences event with
  | true =>
      rw [perform_of_silences hsilent]
      exact h.settled_silence.aimed
  | false =>
      have hcount : (Engine.perform e event).bank.count = e.bank.count :=
        congrArg Background.count (background_perform e event)
      intro id v hv
      rw [voices_perform hsilent, answered, Bank.getElem?_mapActiveIdx] at hv
      obtain ⟨w, hw, rfl⟩ := Option.map_eq_some_iff.1 hv
      obtain ⟨haims, hsettles⟩ := h id w hw
      rw [hcount]
      by_cases hid : id < e.bank.count
      · rw [if_pos hid]
        refine ⟨Voice.aims_take haims (e.proper_answer event id _).suits _, ?_⟩
        intro hle
        omega
      · rw [if_neg hid]
        exact ⟨haims, hsettles⟩

theorem Aimed.performAll
    (h : e.Aimed)
    (events : List Event) :
    (events.foldl Engine.perform e).Aimed := by
  induction events generalizing e with
  | nil => exact h
  | cons event events ih => exact ih (h.perform event)

end Performing

section Blocks

variable {e : Engine}

/-- What comes before the events of a block does not touch gates and velocities. -/
theorem sounds_prepare (e : Engine) (n : Nat) :
    (e.prepare n).bank.voices.map Voice.sound = e.bank.voices.map Voice.sound := by
  have hgrow (e : Engine) :
      (e.growVoices n).bank.voices.map Voice.sound = e.bank.voices.map Voice.sound := by
    refine map_mapIdx_of_eq (fun id v => ?_) e.bank.voices
    split
    · dsimp only
      unfold Voice.grow
      split <;> rfl
    · rfl
  have hdrift (e : Engine) (goals : List Float32) :
      (e.scheduleDrift goals).bank.voices.map Voice.sound = e.bank.voices.map Voice.sound := by
    refine map_mapIdx_of_eq (fun id v => ?_) e.bank.voices
    split
    · dsimp only
      split <;> rfl
    · rfl
  unfold prepare runDrift
  split
  · dsimp only
    split
    · unfold drawDrift
      exact (hdrift _ _).trans (hgrow e)
    · exact hgrow e
  · exact hgrow e

theorem Settled.congr
    {f : Engine}
    (h : e.Settled)
    (heq : f.bank.voices.map Voice.sound = e.bank.voices.map Voice.sound) :
    f.Settled := by
  intro v hv
  have hmem : v.sound ∈ e.bank.voices.map Voice.sound := by
    rw [← heq]
    exact List.mem_map_of_mem hv
  obtain ⟨w, hw, hsound⟩ := List.mem_map.1 hmem
  exact (h w hw).congr hsound.symm

theorem Settled.performed
    (h : e.Settled)
    (n : Nat) :
    (Engine.performed e n).Aimed := by
  have hopened : (e.opened n).Settled := h.congr (sounds_prepare e n)
  rw [performed_eq]
  exact hopened.aimed.performAll _

/-- Rendering brings every voice to its aims, if all have places. -/
theorem Aimed.renderVoices
    {n places : Nat}
    (h : e.Aimed)
    (hn : 0 < n)
    (hplaces : e.bank.count ≤ places) :
    (Engine.renderVoices e n places).2.Settled := by
  have hmin : min e.bank.count places = e.bank.count := Nat.min_eq_left hplaces
  intro v hv
  rw [renderVoices_snd, hmin] at hv
  obtain ⟨id, hid, rfl⟩ := List.mem_mapIdx.1 hv
  have hw : e.bank.voices[id]? = some e.bank.voices[id] := List.getElem?_eq_getElem hid
  obtain ⟨haims, hsettles⟩ := h id _ hw
  generalize e.bank.voices[id] = w at haims hsettles
  by_cases hlt : id < e.bank.count
  · rw [if_pos hlt]
    have hgate := BlockContext.get_renderVoice (e.blockContext n) id w .gate hn
    have hvelocity := BlockContext.get_renderVoice (e.blockContext n) id w .velocity hn
    have htenancy := BlockContext.tenancy_renderVoice (e.blockContext n) id w
    generalize ((e.blockContext n).renderVoice id w).2 = rendered at hgate hvelocity htenancy
    have hgate' : rendered.gate = Ramp.next^[n] (w.gate.within n) := hgate
    have hvelocity' : rendered.velocity = Ramp.next^[n] (w.velocity.within n) := hvelocity
    have hlevel : rendered.gateLevel = w.gateLevel := by
      unfold Voice.gateLevel Voice.isBusy
      rw [htenancy]
    have hlevel' : rendered.velocityLevel = w.velocityLevel := by
      unfold Voice.velocityLevel Voice.isBusy
      rw [htenancy]
    obtain ⟨hjumps, hrests⟩ := haims.gate.restsAt hn
    obtain ⟨hjumps', hrests'⟩ := haims.velocity.restsAt hn
    rw [← hgate'] at hjumps hrests
    rw [← hvelocity'] at hjumps' hrests'
    refine ⟨⟨hjumps, ?_, hjumps', ?_⟩, hrests.pending, hrests'.pending⟩
    · rw [hrests.goal_eq, haims.gate_goal, hlevel]
    · rw [hrests'.goal_eq, haims.velocity_goal, hlevel']
  · rw [if_neg hlt]
    exact hsettles (by omega)

theorem Settled.finish
    (h : e.Settled)
    (n : Nat) :
    (Engine.finish e n).Settled := by
  intro v hv
  obtain ⟨w, hw, rfl⟩ := List.mem_map.1 hv
  exact (h w hw).dropPending

theorem Settled.distributeGlides
    (h : e.Settled) :
    (Engine.distributeGlides e).Settled := by
  intro v hv
  obtain ⟨w, hw, rfl⟩ := List.mem_map.1 hv
  exact (h w hw).withGlides _ _ _

theorem Settled.adopt
    (h : e.Settled)
    (next : Settings) :
    (Engine.adopt e next).Settled := by
  unfold Engine.adopt
  dsimp only
  split
  · refine Aimed.settled_silence (Settled.aimed (Settled.distributeGlides ?_))
    exact h
  · refine Settled.distributeGlides ?_
    exact h

theorem Settled.adoptAwaited
    (h : e.Settled) :
    (Engine.adoptAwaited e).Settled := by
  unfold Engine.adoptAwaited
  split
  · have htaken : e.taken.Settled := h
    exact htaken.adopt _
  · exact h

theorem capacity_adoptAwaited (e : Engine) :
    e.adoptAwaited.capacity = e.capacity := by
  unfold Engine.adoptAwaited
  split
  · unfold Engine.adopt
    dsimp only
    split
    · simp [Engine.silence, Engine.distributeGlides, Engine.taken, Engine.capacity,
        Bank.capacity, Bank.mapAll, Bank.withCount, Bank.rewind]
    · simp [Engine.distributeGlides, Engine.taken, Engine.capacity, Bank.capacity,
        Bank.mapAll, Bank.withCount]
  · rfl

theorem capacity_performed (e : Engine) (n : Nat) :
    (e.performed n).capacity = e.capacity := by
  have hopened : (e.opened n).capacity = e.capacity := by
    have hlength := congrArg List.length (sounds_prepare e n)
    rwa [List.length_map, List.length_map] at hlength
  rw [performed_eq, ← hopened]
  exact congrArg Background.capacity (background_performAll _ (e.opened n))

end Blocks

section Hosting

variable {e : Engine}

/-- No more voices play notes in a block than there are. -/
theorem count_performed_le
    (h : Reachable e)
    (n : Nat) :
    (e.adoptAwaited.performed n).bank.count ≤ e.capacity := by
  have hconcord := concordant_invariant.of_reachable h
  have hperformed : (e.adoptAwaited.performed n).roster.Concordant := by
    rw [performed_eq]
    exact concordant_invariant.performAll _ (concordant_invariant.opened n hconcord)
  rw [← capacity_adoptAwaited e, ← capacity_performed e.adoptAwaited n]
  exact hperformed.fits_voices

theorem Settled.process
    {frames : Nat} {out : Buffer}
    (h : e.Settled)
    (hreach : Reachable e)
    (hplaces : e.capacity ≤ out.voices) :
    (Engine.process e frames out).1.Settled := by
  unfold Engine.process
  dsimp only
  split
  case isTrue => exact h.adoptAwaited
  case isFalse hn =>
    rw [renderBlock_fst]
    have hcount := count_performed_le hreach (blockLength frames out)
    have haimed := h.adoptAwaited.performed (blockLength frames out)
    exact (haimed.renderVoices (by omega) (by omega)).finish _

theorem Settled.withSampleRate
    {after : Engine} {rate : Float32}
    (h : e.Settled)
    (hrate : e.withSampleRate rate = .ok () after) :
    after.Settled := by
  unfold Engine.withSampleRate at hrate
  split at hrate
  · cases hrate
    refine Settled.distributeGlides ?_
    intro v hv
    obtain ⟨w, hw, rfl⟩ := List.mem_map.1 hv
    exact (h w hw).withSampleRate rate
  · cases hrate

/-- Gates and velocities have arrived whenever a host looks at the engine. -/
theorem settled_of_reachable
    (h : ReachableBy HasPlaces e) :
    e.Settled := by
  induction h with
  | build h =>
      rw [eq_idle_of_build h]
      refine Settled.distributeGlides ?_
      intro v hv
      rw [List.eq_of_mem_replicate hv]
      exact Voice.settles_idle _
  | @operate e op hreach hop ih =>
      cases op with
      | attachMailbox => exact ih
      | post s =>
          rw [operate_post]
          exact ih
      | stage s => exact ih
      | push event =>
          obtain ⟨_, -, hpush⟩ := exists_operate_push e event
          rw [hpush]
          exact ih
      | setSampleRate rate =>
          rcases operate_setSampleRate_cases e rate with hrate | hsame
          · exact ih.withSampleRate hrate
          · rw [hsame]
            exact ih
      | setTemperament t => exact ih
      | setClock time => exact ih
      | silence => exact ih.aimed.settled_silence
      | reset => exact ih.aimed.settled_silence
      | process frames out =>
          exact ih.process (hreach.mono fun _ _ _ => trivial) hop

/-- Whether the voice with a number plays notes and is busy. -/
def sounds (e : Engine) (id : Nat) : Bool :=
  id < e.bank.count && (e.bank.voice? id).any Voice.isBusy

theorem sounds_eq_of_roster
    {f : Engine}
    (h : f.roster = e.roster)
    (id : Nat) :
    f.sounds id = e.sounds id := by
  have hcount : f.bank.count = e.bank.count := congrArg Roster.count h
  have hbusy (g : Engine) :
      (g.bank.voice? id).any Voice.isBusy
        = (g.roster.tenancies[id]?).any fun tn => tn.phase != .off := by
    show _ = ((g.bank.voices.map fun v => v.toTenancy.ageless)[id]?).any _
    rw [List.getElem?_map, Option.any_map]
    rfl
  unfold sounds
  rw [hcount, hbusy, hbusy, h]

/-- The last sample of a gate in a block is one if the voice sounds after it, else zero. -/
theorem last_gate
    {n : Nat} {out : Buffer}
    (h : e.Aimed)
    (hfits : e.bank.count ≤ e.bank.voices.length)
    (hplaces : e.bank.count ≤ out.voices)
    (hn : 0 < n)
    (hframes : n ≤ out.frames)
    {id : Nat}
    (hid : id < out.voices) :
    ∃ plane,
      (out.putVoices (e.renderVoices n out.voices).1).stream? id .gate = some plane
        ∧ plane[n - 1]? = some (if e.sounds id then 1.0 else 0.0) := by
  have hsize : ∀ own ∈ (e.renderVoices n out.voices).1, ∀ s, (own.get s).size ≤ out.frames :=
    fun own hown s => Nat.le_trans (size_signals_le hown s) hframes
  obtain ⟨plane, hplane, hread⟩ :=
    Buffer.stream?_putVoices .gate hid (by omega) hsize
  refine ⟨plane, hplane, ?_⟩
  rw [hread (n - 1) (by omega), Buffer.written, getElem?_renderVoices_fst,
    Nat.min_eq_left hplaces]
  by_cases hlt : id < e.bank.count
  · have hvoice : e.bank.voices[id]? = some e.bank.voices[id] :=
      List.getElem?_eq_getElem (by omega)
    obtain ⟨haims, _⟩ := h id _ hvoice
    have hlast := haims.gate.last_sample hn
    have hsounds : e.sounds id = e.bank.voices[id].isBusy := by
      simp [sounds, Bank.voice?, hvoice, hlt]
    rw [if_pos hlt, hvoice, hsounds]
    generalize e.bank.voices[id] = v at haims hlast
    have hsize : n - 1 < (v.gate.render n).1.size := by
      rw [Ramp.size_render]
      omega
    have hgate : ((e.blockContext n).renderVoice id v).1.get .gate = (v.gate.render n).1 := by
      rw [BlockContext.renderVoice_fst]
      rfl
    simp only [Option.map_some, hgate]
    rw [if_pos hsize, hlast, haims.gate_goal]
    rfl
  · have hsilent : e.sounds id = false := by
      simp [sounds, hlt]
    rw [if_neg hlt, hsilent]
    rfl

/--
No gate hangs.  If all buffers have places for all voices, then between any two
blocks every gate rests at one or zero as its voice is busy or off, and every
velocity at that of the event played, or at zero; and a block that is written out
ends with a gate of one for exactly the voices that sound.
-/
theorem gates_follow_phases
    (h : ReachableBy HasPlaces e) :
    (∀ v ∈ e.bank.voices,
      v.gate.RestsAt (if v.isBusy then 1.0 else 0.0)
        ∧ v.velocity.RestsAt (if v.isBusy then v.event.second else 0.0))
    ∧ ∀ frames out,
        e.capacity ≤ out.voices →
        0 < blockLength frames out →
        ∀ id < out.voices,
          ∃ plane,
            (e.process frames out).2.stream? id .gate = some plane
              ∧ plane[blockLength frames out - 1]?
                = some (if (e.process frames out).1.sounds id then 1.0 else 0.0) := by
  have hsettled := settled_of_reachable h
  constructor
  · intro v hv
    exact ⟨(hsettled v hv).gate_rests, (hsettled v hv).velocity_rests⟩
  · intro frames out hplaces hn id hid
    have hreach : Reachable e := h.mono fun _ _ _ => trivial
    have hle := count_performed_le hreach (blockLength frames out)
    have hcapacity : (e.adoptAwaited.performed (blockLength frames out)).bank.voices.length
        = e.capacity :=
      (capacity_performed _ _).trans (capacity_adoptAwaited e)
    have hprocess : e.process frames out
        = e.adoptAwaited.renderBlock (blockLength frames out) out := by
      unfold Engine.process
      dsimp only
      rw [if_neg (by omega)]
    have hframes : blockLength frames out ≤ out.frames := Nat.min_le_right _ _
    rw [hprocess, sounds_eq_of_roster (roster_renderBlock _ _ _)]
    exact last_gate (hsettled.adoptAwaited.performed _) (by omega) (by omega) hn hframes hid

/-- Two voices after a block in which a key went down. -/
def onePressed : Engine :=
  (((Engine.idle 2 48000.0 (EventQueue.empty 8) {} .plain).operate (.stage { voices := 2 })).operate
    (.push (Event.noteOn 7 1 60.0 0.5 3))).operate (.process 8 (Buffer.silent 2 8))

theorem reachableBy_onePressed : ReachableBy HasPlaces onePressed := by
  have hplaces :
      HasPlaces
        (((Engine.idle 2 48000.0 (EventQueue.empty 8) {} .plain).operate
          (.stage { voices := 2 })).operate (.push (Event.noteOn 7 1 60.0 0.5 3)))
        (.process 8 (Buffer.silent 2 8)) := by
    show _ ≤ _
    decide +kernel
  exact .operate (.operate (.operate (reachableBy_idlePair _) trivial) trivial) hplaces

/-- The key stays down: its gate is at one at the end of the next block, too. -/
theorem gate_of_onePressed :
    ReachableBy HasPlaces onePressed
      ∧ ∃ plane,
        (onePressed.process 8 (Buffer.silent 2 8)).2.stream? 0 .gate = some plane
          ∧ plane[7]? = some (1.0 : Float32) := by
  have hplaces : onePressed.capacity ≤ (Buffer.silent 2 8).voices := by
    decide +kernel
  have hsounds : (onePressed.process 8 (Buffer.silent 2 8)).1.sounds 0 = true := by
    decide +kernel
  obtain ⟨plane, hplane, hlast⟩ :=
    (gates_follow_phases reachableBy_onePressed).2 8 (Buffer.silent 2 8) hplaces (by decide) 0
      (by decide)
  rw [hsounds] at hlast
  exact ⟨reachableBy_onePressed, plane, hplane, hlast⟩

end Hosting

end Engine
end Polyphony
