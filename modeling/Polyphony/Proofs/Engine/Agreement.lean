import Polyphony.Proofs.Engine.Bare
import Polyphony.Proofs.Engine.Boundary
import Polyphony.Proofs.Engine.Frames
import Polyphony.Proofs.Signal.Planes

/-!
# Engines that agree for a voice

When every note has a channel of its own, the gestures of one finger are meant
for its own note.  Controllers, pressures, wheels and touches that move reach
only the voices of their source and the bend of their channel.

**Agreement.**  Two engines agree for a voice if they differ in the ramps of other
voices, in the bends of channels with extra wheels, and in extra events that
wait, at most.  An extra gesture keeps a voice that it is not for in agreement
with what was before, and everything else keeps two agreeing engines in
agreement.

**Results.**
* `agree_gesture`, `Agree.perform`: extra gestures and common events keep agreement.
* `Agree.process`: so does a block, which sends out the same for the voice.
* `Agree.operate`: so does everything else that a host does.
-/

namespace Polyphony

/-- Gestures of one finger: not notes, and nothing on the main channel that all voices share. -/
def Event.isGesture (x : Event) : Bool :=
  match x.kind with
  | .noteUpdate => true
  | .notePressure => true
  | .controller => x.channel != Engine.mainChannel
  | .channelPressure => x.channel != Engine.mainChannel
  | .pitchBend => x.channel != Engine.mainChannel
  | _ => false

namespace Engine

section Agreement

/-- Whether one of the events is a wheel on a channel. -/
def Bent (extras : List Event) (channel : UInt8) : Prop :=
  ∃ x ∈ extras, x.kind = .pitchBend ∧ x.channel = channel

/-- Whether notes have channels of their own and a voice is none that extra events are for. -/
def Shields (extras : List Event) (id : Nat) (e : Engine) : Prop :=
  e.settings.protocol = .expressive
    ∧ ∀ v ∈ e.bank.voice? id, ¬ Bent extras v.channel ∧ ∀ x ∈ extras, v.owner ≠ some x.source

instance (extras : List Event) (channel : UInt8) : Decidable (Bent extras channel) :=
  inferInstanceAs (Decidable (∃ _ ∈ _, _))

instance (extras : List Event) (id : Nat) : DecidablePred (Shields extras id) :=
  fun _ => inferInstanceAs (Decidable (_ ∧ _))

/-- Two engines that differ by what extra events touch at most, as one voice sees it. -/
structure Agree (extras : List Event) (id : Nat) (e f : Engine) : Prop where
  bare : f.bare = e.bare
  voice : f.bank.voice? id = e.bank.voice? id
  waiting : f.queue.waiting.filter (· ∉ extras) = e.queue.waiting.filter (· ∉ extras)
  bends : ∀ channel, ¬ Bent extras channel → f.bend? channel = e.bend? channel

variable {extras : List Event} {id : Nat} {e f g : Engine}

theorem Agree.refl (extras : List Event) (id : Nat) (e : Engine) :
    Agree extras id e e :=
  ⟨rfl, rfl, rfl, fun _ _ => rfl⟩

theorem Agree.symm
    (h : Agree extras id e f) :
    Agree extras id f e :=
  ⟨h.bare.symm, h.voice.symm, h.waiting.symm, fun c hc => (h.bends c hc).symm⟩

theorem Agree.trans
    (h : Agree extras id e f)
    (h' : Agree extras id f g) :
    Agree extras id e g :=
  ⟨h'.bare.trans h.bare, h'.voice.trans h.voice, h'.waiting.trans h.waiting,
    fun c hc => (h'.bends c hc).trans (h.bends c hc)⟩

/-- What a bare engine has in the same way is the same. -/
theorem Agree.same
    {α : Type}
    (h : Agree extras id e f)
    (read : Engine → α)
    (hread : ∀ k, read k.bare = read k) :
    read f = read e := by
  rw [← hread f, h.bare, hread]

theorem Agree.settings
    (h : Agree extras id e f) :
    f.settings = e.settings :=
  h.same Engine.settings fun _ => rfl

theorem Agree.count
    (h : Agree extras id e f) :
    f.bank.count = e.bank.count :=
  h.same (fun k => k.bank.count) fun _ => rfl

theorem Agree.clock
    (h : Agree extras id e f) :
    f.clock = e.clock :=
  h.same Engine.clock fun _ => rfl

theorem Agree.answer
    (h : Agree extras id e f)
    (event : Event) :
    f.answer event = e.answer event := by
  funext k tn
  exact h.same (fun engine => engine.answer event k tn) fun engine => answer_bare engine event k tn

/-- Agreement shields a voice in both engines. -/
theorem Agree.shields
    (h : Agree extras id e f)
    (hshields : Shields extras id e) :
    Shields extras id f := by
  unfold Shields
  rw [h.settings, h.voice]
  exact hshields

/-- Doing the same to all voices and all bends, and nothing to the queue. -/
theorem Agree.uniform
    {e' f' : Engine}
    (h : Agree extras id e f)
    (hbare : f'.bare = e'.bare)
    {act : Voice → Voice} {bend : Ramp → Ramp}
    (hvoices : e'.bank.voices = e.bank.voices.map act
      ∧ f'.bank.voices = f.bank.voices.map act)
    (hbends : e'.channelBends = e.channelBends.map bend
      ∧ f'.channelBends = f.channelBends.map bend)
    (hqueue : e'.queue.waiting = e.queue.waiting ∧ f'.queue.waiting = f.queue.waiting) :
    Agree extras id e' f' where
  bare := hbare
  voice := by
    unfold Bank.voice?
    rw [hvoices.1, hvoices.2, List.getElem?_map, List.getElem?_map]
    exact congrArg (Option.map act) h.voice
  waiting := by
    rw [hqueue.1, hqueue.2]
    exact h.waiting
  bends := by
    intro channel hbent
    have hmap {k k' : Engine} (hk : k'.channelBends = k.channelBends.map bend) :
        k'.bend? channel = (k.bend? channel).map bend := by
      unfold bend?
      rw [hk]
      cases channelIndex? channel with
      | none => rfl
      | some i => exact List.getElem?_map
    rw [hmap hbends.1, hmap hbends.2, h.bends channel hbent]

/-- Doing nothing to voices, bends and queue. -/
theorem Agree.still
    {e' f' : Engine}
    (h : Agree extras id e f)
    (hbare : f'.bare = e'.bare)
    (hvoices : e'.bank.voices = e.bank.voices ∧ f'.bank.voices = f.bank.voices)
    (hbends : e'.channelBends = e.channelBends ∧ f'.channelBends = f.channelBends)
    (hqueue : e'.queue.waiting = e.queue.waiting ∧ f'.queue.waiting = f.queue.waiting) :
    Agree extras id e' f' := by
  rw [← List.map_id' e.bank.voices, ← List.map_id' f.bank.voices] at hvoices
  rw [← List.map_id' e.channelBends, ← List.map_id' f.channelBends] at hbends
  exact h.uniform hbare hvoices hbends hqueue

end Agreement

section Events

variable {extras : List Event} {id : Nat} {e f : Engine} {x event : Event}

theorem queue_perform (e : Engine) (event : Event) :
    (e.perform event).queue = e.queue :=
  congrArg Background.queue (background_perform e event)

/-- Off the main channel there are no mode messages. -/
theorem obeys_gesture
    (hgesture : x.isGesture = true)
    (hprotocol : e.settings.protocol = .expressive)
    (number : UInt8) :
    e.obeys number x = false := by
  unfold Event.isGesture at hgesture
  unfold obeys
  rw [hprotocol]
  cases hkind : x.kind with
  | controller =>
      rw [hkind] at hgesture
      have hchannel : (x.channel == mainChannel) = false := by
        simpa using hgesture
      simp [hchannel]
  | _ => simp

/-- A gesture asks nothing of a voice that its source does not own. -/
theorem answer_gesture
    (hgesture : x.isGesture = true)
    (hprotocol : e.settings.protocol = .expressive)
    {tn : Tenancy}
    (howner : tn.owner ≠ some x.source)
    (k : Nat) :
    e.answer x k tn = .rest := by
  have hheld : tn.heldBy x.source = false := by
    simp [Tenancy.heldBy, howner]
  have hnotes := obeys_gesture hgesture hprotocol allNotesOff
  unfold Event.isGesture at hgesture
  cases hkind : x.kind with
  | noteUpdate => simp [Engine.answer, hkind, hheld]
  | notePressure => simp [Engine.answer, hkind, pressNoteAnswer, hprotocol]
  | controller => simp [Engine.answer, hkind, controllerAnswer, hnotes, hprotocol, hheld]
  | channelPressure => simp [Engine.answer, hkind, pressChannelAnswer, hprotocol, hheld]
  | pitchBend => simp [Engine.answer, hkind, bendAnswer, hprotocol]
  | noteOn => simp [hkind] at hgesture
  | noteOff => simp [hkind] at hgesture
  | sustain => simp [hkind] at hgesture
  | null => simp [hkind] at hgesture

/-- A gesture leaves the bare engine as it is. -/
theorem bare_gesture
    (hgesture : x.isGesture = true)
    (hprotocol : e.settings.protocol = .expressive) :
    (e.perform x).bare = e.bare := by
  have hsilent : e.silences x = false := obeys_gesture hgesture hprotocol allSoundOff
  have hnotes := obeys_gesture hgesture hprotocol allNotesOff
  have hkinds : x.kind ≠ .noteOn ∧ x.kind ≠ .noteOff ∧ x.kind ≠ .sustain := by
    unfold Event.isGesture at hgesture
    refine ⟨?_, ?_, ?_⟩ <;>
      · intro hkind
        rw [hkind] at hgesture
        cases hgesture
  obtain ⟨hon, hoff, hsustain⟩ := hkinds
  have hcensus := census_perform_other hsilent hnotes hon hoff hsustain
  have hmain : e.mainAfter x = e.main := by
    unfold Event.isGesture at hgesture
    unfold mainAfter
    split
    case isTrue h => split <;> simp_all
    case isFalse => rfl
  refine bare_congr ?_ ?_ ?_ (congrArg Roster.tenancies hcensus) ?_
  · unfold backdrop
    rw [background_perform]
  · have hheld := congrArg Roster.held hcensus
    have hdisplaced := congrArg Roster.displaced hcensus
    have hpedal := congrArg Roster.pedal hcensus
    show Tables.mk _ _ _ = Tables.mk _ _ _
    rw [Tables.mk.injEq]
    exact ⟨hheld, hdisplaced, hpedal⟩
  · rw [rotation_perform hsilent]
    unfold rotationAfter
    exact if_neg fun h => hon h.1
  · exact (congrArg Buses.main (buses_perform hsilent)).trans hmain

/-- Performing an extra gesture is not seen by a voice that it is not for. -/
theorem agree_gesture
    (hmem : x ∈ extras)
    (hgesture : x.isGesture = true)
    (hshields : Shields extras id e)
    (time : Nat) :
    Agree extras id e (e.perform (x.moveTo time)) := by
  obtain ⟨hprotocol, hvoice⟩ := hshields
  have hgesture' : (x.moveTo time).isGesture = true := hgesture
  have hsilent : e.silences (x.moveTo time) = false :=
    obeys_gesture hgesture' hprotocol allSoundOff
  constructor
  · exact bare_gesture hgesture' hprotocol
  · unfold Bank.voice?
    rw [voices_perform hsilent, answered, Bank.getElem?_mapActiveIdx]
    cases hv : e.bank.voices[id]? with
    | none => rfl
    | some v =>
        obtain ⟨_, howner⟩ := hvoice v hv
        have hrest := answer_gesture hgesture' hprotocol (howner x hmem) id
        rw [Option.map_some, hrest]
        simp [Voice.take]
  · rw [queue_perform]
  · intro channel hbent
    rw [bend?_perform hsilent]
    have hother :
        ¬ (e.bendsChannel (x.moveTo time) = true ∧ (x.moveTo time).channel = channel) := by
      rintro ⟨hbends, hchannel⟩
      refine hbent ⟨x, hmem, ?_, hchannel⟩
      simp only [bendsChannel, Bool.and_eq_true, beq_iff_eq] at hbends
      exact hbends.1.2
    simp only [if_neg hother, Option.map_id']

theorem Agree.silence
    (h : Agree extras id e f) :
    Agree extras id e.silence f.silence :=
  h.uniform (h.same (fun k => k.silence.bare) bare_silence) ⟨rfl, rfl⟩ ⟨rfl, rfl⟩ ⟨rfl, rfl⟩

/-- The same event keeps agreement. -/
theorem Agree.perform
    (h : Agree extras id e f)
    (event : Event) :
    Agree extras id (Engine.perform e event) (Engine.perform f event) := by
  have hsilences : f.silences event = e.silences event := by
    unfold silences obeys
    rw [h.settings]
  cases hsilent : e.silences event with
  | true =>
      rw [perform_of_silences hsilent, perform_of_silences (hsilences.trans hsilent)]
      exact h.silence
  | false =>
      have hsilent' := hsilences.trans hsilent
      constructor
      · exact h.same (fun k => (k.perform event).bare) fun k => bare_perform k event
      · have htemperament := h.same Engine.temperament fun _ => rfl
        have hvoice : f.bank.voices[id]? = e.bank.voices[id]? := h.voice
        unfold Bank.voice?
        rw [voices_perform hsilent, voices_perform hsilent', answered, answered,
          Bank.getElem?_mapActiveIdx, Bank.getElem?_mapActiveIdx, hvoice, h.count, h.answer,
          htemperament]
      · rw [queue_perform, queue_perform]
        exact h.waiting
      · intro channel hbent
        have hbends : f.bendsChannel event = e.bendsChannel event := by
          unfold bendsChannel
          rw [h.settings]
        have hwheel : f.wheelBend event = e.wheelBend event := by
          unfold wheelBend
          rw [h.settings]
        rw [bend?_perform hsilent, bend?_perform hsilent', h.bends channel hbent, hbends, hwheel]

end Events

section Lists

variable {extras : List Event} {id : Nat} {e f : Engine}

/-- Whether a condition holds before each event of a list is performed, and after the last one. -/
def Along (P : Engine → Prop) : Engine → List Event → Prop
  | e, [] => P e
  | e, event :: events => P e ∧ Along P (e.perform event) events

instance decidableAlong (P : Engine → Prop) [DecidablePred P] :
    (e : Engine) → (events : List Event) → Decidable (Along P e events)
  | e, [] => inferInstanceAs (Decidable (P e))
  | e, event :: events =>
      have := decidableAlong P (e.perform event) events
      inferInstanceAs (Decidable (_ ∧ _))

/-- An event as a block that starts at a time performs it. -/
def localTo (start : Nat) (event : Event) : Event :=
  event.moveTo (event.time - start)

/-- Any number of extra gestures are not seen by a voice that they are not for. -/
theorem agree_gestures
    (hextras : ∀ x ∈ extras, x.isGesture = true)
    (start : Nat)
    (events : List Event) :
    ∀ {e : Engine}, Shields extras id e → (∀ x ∈ events, x ∈ extras) →
      Agree extras id e ((events.map (localTo start)).foldl Engine.perform e) := by
  induction events with
  | nil => exact fun {e} _ _ => Agree.refl extras id e
  | cons x events ih =>
      intro e hshields hall
      have hmem := hall x (by simp)
      have hstep := agree_gesture hmem (hextras x hmem) hshields (x.time - start)
      exact hstep.trans (ih (hstep.shields hshields) fun y hy => hall y (by simp [hy]))

/-- Lists that differ by extra gestures keep agreement. -/
theorem Agree.performAll
    (hextras : ∀ x ∈ extras, x.isGesture = true)
    (start : Nat)
    (events : List Event) :
    ∀ {others : List Event} {e f : Engine},
      Agree extras id e f →
      Along (Shields extras id) e (events.map (localTo start)) →
      others.filter (· ∉ extras) = events.filter (· ∉ extras) →
      Agree extras id
          ((events.map (localTo start)).foldl Engine.perform e)
          ((others.map (localTo start)).foldl Engine.perform f)
        ∧ Shields extras id ((events.map (localTo start)).foldl Engine.perform e) := by
  induction events with
  | nil =>
      intro others e f h halong hsame
      have hall : ∀ y ∈ others, y ∈ extras := by
        simpa [List.filter_eq_nil_iff] using hsame
      exact ⟨h.trans (agree_gestures hextras start others (h.shields halong) hall), halong⟩
  | cons x events ih =>
      intro others e f h halong hsame
      obtain ⟨hshields, halong⟩ := halong
      by_cases hmem : x ∈ extras
      · -- an extra gesture on the first side is skipped
        have hstep := agree_gesture hmem (hextras x hmem) hshields (x.time - start)
        refine ih (hstep.symm.trans h) halong ?_
        simpa [hmem] using hsame
      · -- a common event comes after extra gestures on the second side
        have hcons : others.filter (· ∉ extras) = x :: events.filter (· ∉ extras) := by
          simpa [hmem] using hsame
        obtain ⟨before, after, rfl, hbefore, _, hafter⟩ := List.filter_eq_cons_iff.1 hcons
        have hall : ∀ y ∈ before, y ∈ extras := by
          simpa using hbefore
        have hskipped := agree_gestures hextras start before (h.shields hshields) hall
        have hstep := (h.trans hskipped).perform (localTo start x)
        have hrest := ih hstep halong hafter
        rw [List.map_append, List.foldl_append]
        exact hrest

end Lists

section Blocks

variable {extras : List Event} {id : Nat} {e f : Engine}

/-- A block begins alike for both engines. -/
theorem Agree.opened
    (h : Agree extras id e f)
    (hsorted : e.queue.Sorted ∧ f.queue.Sorted)
    (n : Nat) :
    Agree extras id (e.opened n) (f.opened n) where
  bare := h.same (fun k => (k.opened n).bare) fun k => bare_opened k n
  voice := by
    have hgoals := h.same (fun k => k.openingGoals n) fun _ => rfl
    have hvoice : f.bank.voices[id]? = e.bank.voices[id]? := h.voice
    unfold Bank.voice?
    rw [opened_eq, opened_eq, Bank.getElem?_mapActiveIdx, Bank.getElem?_mapActiveIdx, hvoice,
      h.count, hgoals]
  waiting := by
    have hcommute (k : Engine) (hk : k.queue.Sorted) (time : Nat) :
        (k.queue.dropBefore time).waiting.filter (· ∉ extras)
          = (k.queue.waiting.filter (· ∉ extras)).filter fun event => time ≤ event.time := by
      rw [hk.dropBefore_eq_filter, List.filter_filter, List.filter_filter]
      congr 1
      funext event
      exact Bool.and_comm _ _
    rw [queue_opened, queue_opened, hcommute e hsorted.1, hcommute f hsorted.2, h.waiting,
      h.clock]
  bends := by
    intro channel hbent
    rw [opened_eq, opened_eq]
    exact h.bends channel hbent

/-- The events of a block differ by extra ones. -/
theorem Agree.due
    (h : Agree extras id e f)
    (hsorted : e.queue.Sorted ∧ f.queue.Sorted)
    (time : Nat) :
    (f.queue.dueBefore time).filter (· ∉ extras)
      = (e.queue.dueBefore time).filter (· ∉ extras) := by
  have hcommute (k : Engine) (hk : k.queue.Sorted) :
      (k.queue.dueBefore time).filter (· ∉ extras)
        = (k.queue.waiting.filter (· ∉ extras)).filter fun event => event.time < time := by
    rw [hk.dueBefore_eq_filter, List.filter_filter, List.filter_filter]
    congr 1
    funext event
    exact Bool.and_comm _ _
  rw [hcommute e hsorted.1, hcommute f hsorted.2, h.waiting]

/-- Performing the events of a block keeps agreement. -/
theorem Agree.performed
    (h : Agree extras id e f)
    (hextras : ∀ x ∈ extras, x.isGesture = true)
    (hsorted : e.queue.Sorted ∧ f.queue.Sorted)
    {n : Nat}
    (halong : Along (Shields extras id) (e.opened n) (e.upcoming n)) :
    Agree extras id (e.performed n) (f.performed n) ∧ Shields extras id (e.performed n) := by
  have hupcoming (k : Engine) :
      k.upcoming n = (k.queue.dueBefore (k.clock + n)).map (localTo k.clock) :=
    upcoming_eq k n
  have hperformed (k : Engine) :
      k.performed n = (k.upcoming n).foldl Engine.perform (k.opened n) := by
    rfl
  rw [hperformed, hperformed, hupcoming, hupcoming f, h.clock]
  rw [hupcoming] at halong
  exact Agree.performAll hextras e.clock _ (h.opened hsorted n) halong (h.due hsorted _)

/-- The signals of a block depend on the bends of channels only by the one of the voice. -/
theorem renderVoice_congr
    {c d : BlockContext} {v : Voice}
    (hcontext : d = { c with shared := { c.shared with channelBends := d.shared.channelBends } })
    (hbend : d.channelBend? v.channel = c.channelBend? v.channel)
    (id : Nat) :
    d.renderVoice id v = c.renderVoice id v := by
  have hbent : d.bentPitch v = c.bentPitch v := by
    have hframes := congrArg BlockContext.frames hcontext
    have hsettings := congrArg BlockContext.settings hcontext
    have hshared := congrArg (fun k => k.shared.bend) hcontext
    dsimp only at hframes hsettings hshared
    unfold BlockContext.bentPitch
    dsimp only
    rw [hbend, hframes, hsettings, hshared]
  unfold BlockContext.renderVoice BlockContext.pitch
  rw [hbent]
  rw [hcontext]
  rfl

/-- The bend that is added to the pitch of a voice is that of its channel. -/
theorem channelBend?_blockContext
    (hprotocol : e.settings.protocol = .expressive)
    (n : Nat) (channel : UInt8) :
    (e.blockContext n).channelBend? channel
      = if channel = mainChannel then none
        else (e.bend? channel).map fun r => (r.render n).1 := by
  unfold blockContext BlockContext.channelBend? sharedSignals
  rw [hprotocol]
  show (if _ then _ else _) = _
  split
  · rfl
  · unfold bend?
    cases channelIndex? channel with
    | none => rfl
    | some i =>
        show ((e.channelBends.map fun r => r.render n).map Prod.fst)[i]? = _
        rw [List.map_map, List.getElem?_map]
        rfl

/-- A shielded voice is rendered alike by both engines. -/
theorem Agree.renderVoice
    (h : Agree extras id e f)
    (hshields : Shields extras id e)
    (n : Nat) :
    ∀ v ∈ e.bank.voice? id,
      (f.blockContext n).renderVoice id v = (e.blockContext n).renderVoice id v := by
  obtain ⟨hprotocol, hvoice⟩ := hshields
  have hprotocol' : f.settings.protocol = .expressive := by
    rw [h.settings]
    exact hprotocol
  have hmain := h.same Engine.main fun _ => rfl
  have htuning := h.same Engine.tuningShift fun _ => rfl
  have hcontext :
      f.blockContext n = { e.blockContext n with
        shared := { (e.blockContext n).shared with
          channelBends := (f.blockContext n).shared.channelBends } } := by
    unfold blockContext sharedSignals renderShared
    rw [hprotocol, hprotocol', h.settings, hmain, htuning]
  intro v hv
  refine renderVoice_congr hcontext ?_ id
  rw [channelBend?_blockContext hprotocol, channelBend?_blockContext hprotocol',
    h.bends v.channel (hvoice v hv).1]

/-- A shielded voice sends out the same in both engines. -/
theorem Agree.signals
    (h : Agree extras id e f)
    (hshields : Shields extras id e)
    (n places : Nat) :
    (f.renderVoices n places).1[id]? = (e.renderVoices n places).1[id]? := by
  have hsame : f.bank.voices[id]? = e.bank.voices[id]? := h.voice
  rw [getElem?_renderVoices_fst, getElem?_renderVoices_fst, h.count, hsame]
  split
  · cases hv : e.bank.voices[id]? with
    | none => rfl
    | some v => rw [Option.map_some, Option.map_some, h.renderVoice hshields n v hv]
  · rfl

theorem bend?_renderVoices
    (hprotocol : e.settings.protocol = .expressive)
    (n places : Nat) (channel : UInt8) :
    (e.renderVoices n places).2.bend? channel
      = (e.bend? channel).map fun r => (r.render n).2 := by
  rw [renderVoices_snd]
  unfold bend? sharedSignals
  rw [hprotocol]
  cases channelIndex? channel with
  | none => rfl
  | some i =>
      show ((e.channelBends.map fun r => r.render n).map Prod.snd)[i]? = _
      rw [List.map_map, List.getElem?_map]
      rfl

/-- Rendering keeps agreement. -/
theorem Agree.rendered
    (h : Agree extras id e f)
    (hshields : Shields extras id e)
    (n places : Nat) :
    Agree extras id (e.renderVoices n places).2 (f.renderVoices n places).2 where
  bare := h.same (fun k => (k.renderVoices n places).2.bare) fun k => bare_renderVoices k n places
  voice := by
    have hsame : f.bank.voices[id]? = e.bank.voices[id]? := h.voice
    unfold Bank.voice?
    rw [renderVoices_snd, renderVoices_snd, List.getElem?_mapIdx, List.getElem?_mapIdx, hsame,
      h.count]
    cases hv : e.bank.voices[id]? with
    | none => rfl
    | some v => rw [Option.map_some, Option.map_some, h.renderVoice hshields n v hv]
  waiting := by
    rw [renderVoices_snd, renderVoices_snd]
    exact h.waiting
  bends := by
    intro channel hbent
    have hprotocol' : f.settings.protocol = .expressive := by
      rw [h.settings]
      exact hshields.1
    rw [bend?_renderVoices hshields.1, bend?_renderVoices hprotocol', h.bends channel hbent]

theorem Agree.finish
    (h : Agree extras id e f)
    (n : Nat) :
    Agree extras id (e.finish n) (f.finish n) :=
  h.uniform (h.same (fun k => (k.finish n).bare) fun k => bare_finish k n)
    ⟨rfl, rfl⟩ ⟨rfl, rfl⟩ ⟨rfl, rfl⟩

end Blocks

section Hosting

variable {extras : List Event} {id : Nat} {e f : Engine}

theorem Agree.distributeGlides
    (h : Agree extras id e f) :
    Agree extras id e.distributeGlides f.distributeGlides := by
  refine h.uniform (h.same (fun k => k.distributeGlides.bare) bare_distributeGlides)
    ⟨rfl, ?_⟩ ⟨rfl, ?_⟩ ⟨rfl, rfl⟩
  · unfold Engine.distributeGlides
    rw [h.settings]
    rfl
  · unfold Engine.distributeGlides
    rw [h.settings]

/-- The same new settings keep agreement. -/
theorem Agree.adopt
    (h : Agree extras id e f)
    (next : Settings) :
    Agree extras id (e.adopt next) (f.adopt next) := by
  have hadmitted := h.same (fun k => k.admitted next) fun k => admitted_bare k next
  have hbare := h.same (fun k => (k.resettled next).bare) fun k => bare_resettled k next
  have hresettled : Agree extras id (e.resettled next) (f.resettled next) :=
    h.still hbare ⟨rfl, rfl⟩ ⟨rfl, rfl⟩ ⟨rfl, rfl⟩
  rw [adopt_eq, adopt_eq, h.settings, hadmitted]
  split
  · exact hresettled.distributeGlides.silence
  · exact hresettled.distributeGlides

theorem Agree.adoptAwaited
    (h : Agree extras id e f) :
    Agree extras id e.adoptAwaited f.adoptAwaited := by
  have hawaited := h.same Engine.awaited? fun _ => rfl
  have hbare := h.same (fun k => k.taken.bare) fun k => bare_bare k.taken
  have htaken : Agree extras id e.taken f.taken :=
    h.still hbare ⟨rfl, rfl⟩ ⟨rfl, rfl⟩ ⟨rfl, rfl⟩
  unfold Engine.adoptAwaited
  rw [hawaited]
  split
  · exact htaken.adopt _
  · exact h

/-- The same operation on both engines keeps agreement, but for pushes and blocks. -/
theorem Agree.operate
    (h : Agree extras id e f)
    {op : Operation}
    (hpush : ∀ event, op ≠ .push event)
    (hprocess : ∀ frames out, op ≠ .process frames out) :
    Agree extras id (e.operate op) (f.operate op) := by
  cases op with
  | attachMailbox =>
      have hbare := h.same (fun k => k.attachMailbox.bare) fun k => bare_bare k.attachMailbox
      exact h.still hbare ⟨rfl, rfl⟩ ⟨rfl, rfl⟩ ⟨rfl, rfl⟩
  | post s =>
      have hmailbox := h.same Engine.mailbox fun _ => rfl
      have hposted (box : Option Mailbox) :
          Agree extras id { e with mailbox := box } { f with mailbox := box } := by
        have hbare := h.same (fun k => Engine.bare { k with mailbox := box })
          fun k => bare_bare { k with mailbox := box }
        exact h.still hbare ⟨rfl, rfl⟩ ⟨rfl, rfl⟩ ⟨rfl, rfl⟩
      rw [operate_post, operate_post, hmailbox]
      exact hposted _
  | stage s =>
      have hbare := h.same (fun k => (k.stage s).bare) fun k => bare_bare (k.stage s)
      exact h.still hbare ⟨rfl, rfl⟩ ⟨rfl, rfl⟩ ⟨rfl, rfl⟩
  | push event => exact absurd rfl (hpush event)
  | setSampleRate rate =>
      have hrerated : Agree extras id (e.rerated rate) (f.rerated rate) :=
        h.uniform (h.same (fun k => (k.rerated rate).bare) fun k => bare_rerated k rate)
          ⟨rfl, rfl⟩ ⟨rfl, rfl⟩ ⟨rfl, rfl⟩
      rw [operate_setSampleRate, operate_setSampleRate]
      cases isSampleRate rate with
      | true => exact hrerated.distributeGlides
      | false => exact h
  | setTemperament t =>
      have hbare := h.same (fun k => (k.withTemperament t).bare)
        fun k => bare_bare (k.withTemperament t)
      exact h.still hbare ⟨rfl, rfl⟩ ⟨rfl, rfl⟩ ⟨rfl, rfl⟩
  | setClock time =>
      have hbare := h.same (fun k => (k.withClock time).bare)
        fun k => bare_bare (k.withClock time)
      exact h.still hbare ⟨rfl, rfl⟩ ⟨rfl, rfl⟩ ⟨rfl, rfl⟩
  | silence => exact h.silence
  | reset =>
      have hbare := h.same (fun k => k.reset.bare) bare_reset
      exact ⟨hbare, h.silence.voice, rfl, h.silence.bends⟩
  | process frames out => exact absurd rfl (hprocess frames out)

/-- A condition on the engines within a block of `n` frames, if there are any. -/
def WithinBlock (P : Engine → Prop) (e : Engine) (n : Nat) : Prop :=
  n ≠ 0 → Along P (e.adoptAwaited.opened n) (e.adoptAwaited.upcoming n)

instance (P : Engine → Prop) [DecidablePred P] (e : Engine) (n : Nat) :
    Decidable (e.WithinBlock P n) :=
  inferInstanceAs (Decidable (_ → _))

/-- A condition on the engines within the block that an operation processes. -/
def DuringOperation (P : Engine → Prop) (e : Engine) : Operation → Prop
  | .process frames out => e.WithinBlock P (blockLength frames out)
  | _ => True

instance (P : Engine → Prop) [DecidablePred P] (e : Engine) :
    (op : Operation) → Decidable (e.DuringOperation P op)
  | .process frames out => inferInstanceAs (Decidable (e.WithinBlock P (blockLength frames out)))
  | .attachMailbox => isTrue trivial
  | .post _ => isTrue trivial
  | .stage _ => isTrue trivial
  | .push _ => isTrue trivial
  | .setSampleRate _ => isTrue trivial
  | .setTemperament _ => isTrue trivial
  | .setClock _ => isTrue trivial
  | .silence => isTrue trivial
  | .reset => isTrue trivial

/-- A block keeps agreement, and the voice sends out the same. -/
theorem Agree.process
    (h : Agree extras id e f)
    (hextras : ∀ x ∈ extras, x.isGesture = true)
    (hrest : e.AtRest ∧ f.AtRest)
    {frames : Nat} {out : Buffer}
    (hduring : e.WithinBlock (Shields extras id) (blockLength frames out)) :
    Agree extras id (Engine.process e frames out).1 (Engine.process f frames out).1
      ∧ ∀ s, (Engine.process f frames out).2.stream? id s
        = (Engine.process e frames out).2.stream? id s := by
  unfold Engine.process
  dsimp only
  by_cases hzero : blockLength frames out = 0
  · rw [if_pos hzero, if_pos hzero]
    exact ⟨h.adoptAwaited, fun _ => rfl⟩
  · rw [if_neg hzero, if_neg hzero]
    have hsorted := And.intro hrest.1.adoptAwaited.queue hrest.2.adoptAwaited.queue
    obtain ⟨hperformed, hshields⟩ := h.adoptAwaited.performed hextras hsorted (hduring hzero)
    have hsize (k : Engine) :
        ∀ own ∈ (k.renderVoices (blockLength frames out) out.voices).1,
          ∀ s, (own.get s).size ≤ out.frames :=
      fun own hown s => Nat.le_trans (size_signals_le hown s) (Nat.min_le_right _ _)
    have hsignals := hperformed.signals hshields (blockLength frames out) out.voices
    constructor
    · rw [renderBlock_fst, renderBlock_fst]
      exact (hperformed.rendered hshields _ _).finish _
    · rw [renderBlock_snd, renderBlock_snd]
      intro s
      exact Buffer.stream?_putVoices_congr (congrArg _ hsignals) (hsize _) (hsize _)

end Hosting

end Engine
end Polyphony
