import Polyphony.Proofs.Engine.Allotment

/-!
# The life of a voice without unison

Without unison each voice lives by itself.  A new note may start or steal it, the release
of its own key ends its note or leaves it to the pedal, and the pedal ends what it kept.
Apart from this, only what ends all notes ends the note of a voice.

**History.**  Whether a voice still sounds can thus be told from the moments since its
note began: its key has not been released, or it was released while the pedal was down,
and the pedal has not gone up since.  Where the pedal was is known from the moments too
(`pedal_run`).

**Results.**
* `alike_or_passes`: the only ways in which a voice changes its phase or its owner.
* `phase_run`: what the moments since its beginning leave of a note.
* `lifecycle`: both together.
-/

namespace Polyphony

namespace Moment

/-- Whether a key of `source` is released. -/
def releases (source : UInt32) : Moment → Bool
  | .play event => event.kind == .noteOff && event.source == source
  | _ => false

/-- Whether the pedal is moved, and is up then. -/
def lifts : Moment → Bool
  | .play event => event.kind == .sustain && !event.pressesPedal
  | _ => false

/-- Whether a moment is about notes: one begins or ends, or the pedal is moved. -/
def governs : Moment → Bool
  | .play event => event.kind == .noteOn || event.kind == .noteOff || event.kind == .sustain
  | _ => false

/-- The frames of the block that begins, if one does. -/
def frames : Moment → Nat
  | .enter n => n
  | _ => 0

theorem exists_of_governs
    {m : Moment}
    (h : m.governs = true) :
    ∃ event, m = .play event
      ∧ (event.kind = .noteOn ∨ event.kind = .noteOff ∨ event.kind = .sustain) := by
  cases m with
  | play event =>
      simp only [governs, Bool.or_eq_true, beq_iff_eq, or_assoc] at h
      exact ⟨event, rfl, h⟩
  | _ => cases h

theorem not_governs
    {m : Moment}
    (source : UInt32)
    (h : m.governs = false) :
    m.releases source = false ∧ m.lifts = false := by
  cases m <;> simp_all [governs, releases, lifts]

end Moment

namespace Tenancy

theorem grow_zero (tn : Tenancy) :
    tn.grow 0 = tn := by
  unfold grow
  split
  · rfl
  · rfl

theorem ageless_grow (tn : Tenancy) (frames : Nat) :
    (tn.grow frames).ageless = tn.ageless := by
  unfold grow
  split
  · rfl
  · rfl

theorem Alike.of_ageless
    {a b : Tenancy}
    (h : a.ageless = b.ageless) :
    a.Alike b := by
  have hphase : a.ageless.phase = b.ageless.phase := congrArg Tenancy.phase h
  have howner : a.ageless.owner = b.ageless.owner := congrArg Tenancy.owner h
  exact ⟨hphase, howner⟩

end Tenancy

namespace Engine

section Steps

variable {e : Engine} {m : Moment} {event : Event} {id : Nat} {tn : Tenancy}

/-- A voice is off exactly if nobody owns it. -/
theorem Attained.owned
    (h : Attained e)
    (htn : e.tenancy? id = some tn) :
    tn.Owned := by
  rw [tenancy?_eq] at htn
  have haccounted : e.census.Accounted := CensusInvariant.of_attained accounted_invariant h
  exact haccounted.owned tn (List.mem_of_getElem? htn)

theorem tenancyAfter_play
    (hclear : e.clears (.play event) = false)
    (hid : id < e.bank.count) :
    e.tenancyAfter (.play event) id tn = (e.answer event id tn).tenancy tn := by
  have hsilent : e.silences event = false := (Bool.or_eq_false_iff.1 hclear).1
  show (if e.silences event then _ else _) = _
  rw [hsilent, if_neg Bool.false_ne_true, if_pos hid]

/-- What ends all notes leaves a voice off, and to nobody. -/
theorem alike_vacant_of_clears
    (howned : tn.Owned)
    (hid : id < e.bank.count)
    (hclear : e.clears m = true) :
    (e.tenancyAfter m id tn).Alike {} := by
  cases m with
  | play event =>
      show Tenancy.Alike
        (if e.silences event then {}
          else if id < e.bank.count then (e.answer event id tn).tenancy tn else tn) {}
      cases hsilent : e.silences event with
      | true => exact .refl _
      | false =>
          have hnotes := obeys_of_clears hclear hsilent
          rw [if_neg Bool.false_ne_true, if_pos hid]
          simp only [answer, kind_of_obeys hnotes, controllerAnswer, hnotes, if_true]
          by_cases hoff : tn.phase = .off
          · rw [if_neg (by simp [hoff])]
            exact ⟨hoff, howned.1 hoff⟩
          · rw [if_pos (by simp [hoff])]
            exact ⟨rfl, rfl⟩
  | manage op hquiet => cases hclear
  | silence => exact .refl _
  | reset => exact .refl _
  | adopt =>
      have hadopt : e.adoptClears = true := hclear
      show Tenancy.Alike (if e.adoptClears then {} else tn) {}
      rw [hadopt]
      exact .refl _
  | enter n => cases hclear
  | leave n places => cases hclear

/-- A new note starts one voice or steals it, and leaves all others as they are. -/
theorem tenancyAfter_noteOn
    (hunison : e.settings.unison = false)
    (hid : id < e.bank.count)
    (hkind : event.kind = .noteOn) :
    e.tenancyAfter (.play event) id tn =
      if e.allots? event = some (.free id) then (Answer.start event).tenancy tn
      else if e.allots? event = some (.stolen id) then (Answer.steal event true).tenancy tn
      else tn := by
  have hclear : e.clears (.play event) = false := clears_of_kind (by rw [hkind]; decide)
  rw [tenancyAfter_play hclear hid, answer_of_allots? hkind hunison]
  cases e.allots? event with
  | none => rfl
  | some choice =>
      by_cases hchosen : id = choice.id
      · cases choice <;> simp_all [Choice.id]
      · have hother : choice.id ≠ id := fun heq => hchosen heq.symm
        cases choice <;> simp_all [Choice.id, Answer.tenancy]

/-- A released key ends the notes of the voices that it holds. -/
theorem tenancyAfter_noteOff
    (hunison : e.settings.unison = false)
    (hid : id < e.bank.count)
    (hkind : event.kind = .noteOff) :
    e.tenancyAfter (.play event) id tn =
      if tn.heldBy event.source then (e.endAnswer event).tenancy tn else tn := by
  have hclear : e.clears (.play event) = false := clears_of_kind (by rw [hkind]; decide)
  rw [tenancyAfter_play hclear hid]
  simp only [answer, hkind, noteOffAnswer, hunison, if_neg Bool.false_ne_true]
  split
  · rfl
  · rfl

/-- When the pedal goes up, the notes that it kept end. -/
theorem tenancyAfter_sustain
    (hid : id < e.bank.count)
    (hkind : event.kind = .sustain) :
    e.tenancyAfter (.play event) id tn = (pedalAnswer event tn).tenancy tn := by
  have hclear : e.clears (.play event) = false := clears_of_kind (by rw [hkind]; decide)
  rw [tenancyAfter_play hclear hid]
  simp only [answer, hkind]

/-- All other moments only let voices grow older, by the frames of the block that begins. -/
theorem tenancyAfter_eq_grow
    (hclear : e.clears m = false)
    (hother : m.governs = false) :
    e.tenancyAfter m id tn = if id < e.bank.count then tn.grow m.frames else tn := by
  cases m with
  | play event =>
      obtain ⟨hsilent, hnotes⟩ := Bool.or_eq_false_iff.1 hclear
      have hsilent' : e.silences event = false := hsilent
      simp only [Moment.governs, Bool.or_eq_false_iff, beq_eq_false_iff_ne] at hother
      obtain ⟨⟨hon, hoff⟩, hsustain⟩ := hother
      simp only [tenancyAfter, hsilent', if_neg Bool.false_ne_true,
        tenancy_answer hnotes hon hoff hsustain, Moment.frames, Tenancy.grow_zero]
  | manage op hquiet => simp only [tenancyAfter, Moment.frames, Tenancy.grow_zero, ite_self]
  | silence => cases hclear
  | reset => cases hclear
  | adopt =>
      have hadopt : e.adoptClears = false := hclear
      simp only [tenancyAfter, hadopt, if_neg Bool.false_ne_true, Moment.frames,
        Tenancy.grow_zero, ite_self]
  | enter n => rfl
  | leave n places => simp only [tenancyAfter, Moment.frames, Tenancy.grow_zero, ite_self]

theorem ageless_tenancyAfter
    (hclear : e.clears m = false)
    (hother : m.governs = false) :
    (e.tenancyAfter m id tn).ageless = tn.ageless := by
  rw [tenancyAfter_eq_grow hclear hother]
  split
  · exact Tenancy.ageless_grow tn m.frames
  · rfl

end Steps

section Passing

/-- The ways in which a voice without unison passes into another phase, or to another owner. -/
inductive Passes (e : Engine) (id : Nat) (before after : Tenancy) : Moment → Prop
  /-- A new note gets the voice, which is off. -/
  | start
      {event : Event}
      (hallots : e.allots? event = some (.free id))
      (hbefore : before.phase = .off)
      (hafter : after.phase = .held)
      (howner : after.owner = some event.source) :
      Passes e id before after (.play event)
  /-- A new note gets the voice, which plays another one. -/
  | steal
      {event : Event}
      (hallots : e.allots? event = some (.stolen id))
      (hbefore : before.phase ≠ .off)
      (hafter : after.phase = .held)
      (howner : after.owner = some event.source) :
      Passes e id before after (.play event)
  /-- The key that holds the voice is released, and the pedal is up. -/
  | release
      {event : Event}
      (hkind : event.kind = .noteOff)
      (hbefore : before.phase = .held)
      (howner : before.owner = some event.source)
      (hpedal : e.pedal = false)
      (hafter : after.Alike {}) :
      Passes e id before after (.play event)
  /-- The key that holds the voice is released, and the pedal is down. -/
  | keep
      {event : Event}
      (hkind : event.kind = .noteOff)
      (hbefore : before.phase = .held)
      (howner : before.owner = some event.source)
      (hpedal : e.pedal = true)
      (hafter : after.phase = .sustained)
      (hsame : after.owner = before.owner) :
      Passes e id before after (.play event)
  /-- The pedal goes up, which has kept the voice. -/
  | lift
      {event : Event}
      (hkind : event.kind = .sustain)
      (hup : event.pressesPedal = false)
      (hbefore : before.phase = .sustained)
      (hafter : after.Alike {}) :
      Passes e id before after (.play event)
  /-- All notes end at once. -/
  | clear
      {m : Moment}
      (hclear : e.clears m = true)
      (hbefore : before.phase ≠ .off)
      (hafter : after.Alike {}) :
      Passes e id before after m

variable {e : Engine} {id : Nat} {before : Tenancy}

/-- A voice that a new note gets is off if it is said to be free, and else it is not. -/
theorem isOff_of_allots?
    {event : Event} {choice : Choice}
    (hconcord : e.roster.Concordant)
    (hallots : e.allots? event = some choice)
    (htn : e.tenancy? choice.id = some before) :
    choice = if before.phase = .off then .free choice.id else .stolen choice.id := by
  obtain ⟨_, v, _, hdeserves, hchoice, _⟩ := perform_of_allots? hconcord hallots
  have hvoice : e.bank.voice? choice.id = some v := hdeserves.voice
  unfold tenancy? at htn
  rw [hvoice] at htn
  obtain rfl : v.toTenancy = before := Option.some.inj htn
  simpa [Voice.isOff] using hchoice

theorem alike_or_passes_noteOn
    {event : Event}
    (hconcord : e.roster.Concordant)
    (hunison : e.settings.unison = false)
    (hid : id < e.bank.count)
    (hbefore : e.tenancy? id = some before)
    (hkind : event.kind = .noteOn) :
    (e.tenancyAfter (.play event) id before).Alike before
      ∨ e.Passes id before (e.tenancyAfter (.play event) id before) (.play event) := by
  rw [tenancyAfter_noteOn hunison hid hkind]
  split
  case isTrue hfree =>
    have hchoice := isOff_of_allots? hconcord hfree hbefore
    refine .inr (.start hfree ?_ rfl rfl)
    by_contra hbusy
    rw [if_neg hbusy] at hchoice
    cases hchoice
  case isFalse =>
    split
    case isTrue hstolen =>
      have hchoice := isOff_of_allots? hconcord hstolen hbefore
      refine .inr (.steal hstolen ?_ rfl rfl)
      intro hoff
      rw [if_pos hoff] at hchoice
      cases hchoice
    case isFalse => exact .inl (.refl before)

theorem alike_or_passes_noteOff
    {event : Event}
    (hunison : e.settings.unison = false)
    (hid : id < e.bank.count)
    (hkind : event.kind = .noteOff) :
    (e.tenancyAfter (.play event) id before).Alike before
      ∨ e.Passes id before (e.tenancyAfter (.play event) id before) (.play event) := by
  rw [tenancyAfter_noteOff hunison hid hkind]
  split
  case isTrue hheld =>
    simp only [Tenancy.heldBy, Bool.and_eq_true, beq_iff_eq] at hheld
    obtain ⟨hphase, howner⟩ := hheld
    unfold endAnswer
    cases hpedal : e.pedal with
    | true => exact .inr (.keep hkind hphase howner hpedal rfl rfl)
    | false => exact .inr (.release hkind hphase howner hpedal ⟨rfl, rfl⟩)
  case isFalse => exact .inl (.refl before)

theorem alike_or_passes_sustain
    {event : Event}
    (hid : id < e.bank.count)
    (hkind : event.kind = .sustain) :
    (e.tenancyAfter (.play event) id before).Alike before
      ∨ e.Passes id before (e.tenancyAfter (.play event) id before) (.play event) := by
  rw [tenancyAfter_sustain hid hkind]
  unfold pedalAnswer
  cases hpressed : event.pressesPedal with
  | true => exact .inl (.refl before)
  | false =>
      rw [if_neg Bool.false_ne_true]
      split
      case isTrue hkept => exact .inr (.lift hkind hpressed (beq_iff_eq.1 hkept) ⟨rfl, rfl⟩)
      case isFalse => exact .inl (.refl before)

/-- A moment leaves phase and owner of a voice alone, or passes it on in one of these ways. -/
theorem alike_or_passes
    (h : Attained e)
    (hunison : e.settings.unison = false)
    (hid : id < e.bank.count)
    (hbefore : e.tenancy? id = some before)
    (m : Moment) :
    (e.tenancyAfter m id before).Alike before
      ∨ e.Passes id before (e.tenancyAfter m id before) m := by
  have howned : before.Owned := h.owned hbefore
  cases hclear : e.clears m with
  | true =>
      have hvacant := alike_vacant_of_clears howned hid hclear
      by_cases hoff : before.phase = .off
      · exact .inl ⟨hvacant.1.trans hoff.symm, hvacant.2.trans (howned.1 hoff).symm⟩
      · exact .inr (.clear hclear hoff hvacant)
  | false =>
      cases hgoverns : m.governs with
      | false => exact .inl (.of_ageless (ageless_tenancyAfter hclear hgoverns))
      | true =>
          obtain ⟨event, rfl, hon | hoff | hsustain⟩ := Moment.exists_of_governs hgoverns
          · exact alike_or_passes_noteOn h.concordant hunison hid hbefore hon
          · exact alike_or_passes_noteOff hunison hid hoff
          · exact alike_or_passes_sustain hid hsustain

end Passing

section Histories

/--
The moments since a note of `source` began have left it sounding: its key has not been
released, or it was released while the pedal was down, and the pedal has not gone up since.
-/
def Sounds (source : UInt32) (pedal : Bool) (moments : List Moment) : Prop :=
  (∀ m ∈ moments, m.releases source = false)
    ∨ ∃ early off late, moments = early ++ off :: late
        ∧ (∀ m ∈ early, m.releases source = false)
        ∧ off.releases source = true
        ∧ early.foldl pedalSince pedal = true
        ∧ ∀ m ∈ late, m.lifts = false

/-- A moment gives the voice with a number no new note. -/
def Overlooks (e : Engine) (id : Nat) (m : Moment) : Prop :=
  ∀ event choice, m = .play event → e.allots? event = some choice → choice.id ≠ id

/-- The moments of a run spare a voice: none of them clears it or gives it a new note. -/
def Spares (e : Engine) (id : Nat) : List Moment → Prop
  | [] => True
  | m :: moments =>
      e.clears m = false ∧ e.Overlooks id m ∧ (e.after m).Spares id moments

/-- The moments to come let the note of a voice last, in the phase in which it is. -/
def Lasts (source : UInt32) (pedal : Bool) (moments : List Moment) : Phase → Prop
  | .off => False
  | .held => Sounds source pedal moments
  | .sustained => ∀ m ∈ moments, m.lifts = false

/-- The phase after a moment that neither clears the voice nor gives it a new note. -/
def phaseSince (source : UInt32) (pedal : Bool) (m : Moment) : Phase → Phase
  | .off => .off
  | .held => if m.releases source then if pedal then .sustained else .off else .held
  | .sustained => if m.lifts then .off else .sustained

variable {source : UInt32} {pedal : Bool} {m : Moment} {moments : List Moment}

/-- Before its key is released, a note depends on all the moments to come. -/
theorem sounds_cons_of_not_releases
    (h : m.releases source = false) :
    Sounds source pedal (m :: moments) ↔ Sounds source (pedalSince pedal m) moments := by
  unfold Sounds
  constructor
  · rintro (hnone | ⟨early, off, late, hsplit, hearly, hoff, hpedal, hlate⟩)
    · exact .inl fun k hk => hnone k (List.mem_cons_of_mem m hk)
    · cases early with
      | nil =>
          obtain ⟨rfl, rfl⟩ := List.cons.inj hsplit
          exact absurd (h.symm.trans hoff) Bool.false_ne_true
      | cons first early =>
          obtain ⟨rfl, hrest⟩ := List.cons.inj hsplit
          exact .inr ⟨early, off, late, hrest,
            fun k hk => hearly k (List.mem_cons_of_mem m hk), hoff, hpedal, hlate⟩
  · rintro (hnone | ⟨early, off, late, rfl, hearly, hoff, hpedal, hlate⟩)
    · exact .inl (List.forall_mem_cons.2 ⟨h, hnone⟩)
    · exact .inr ⟨m :: early, off, late, rfl, List.forall_mem_cons.2 ⟨h, hearly⟩, hoff,
        hpedal, hlate⟩

/-- Once its key is released, a note depends on the pedal alone. -/
theorem sounds_cons_of_releases
    (h : m.releases source = true) :
    Sounds source pedal (m :: moments) ↔ pedal = true ∧ ∀ k ∈ moments, k.lifts = false := by
  unfold Sounds
  constructor
  · rintro (hnone | ⟨early, off, late, hsplit, hearly, hoff, hpedal, hlate⟩)
    · exact absurd ((hnone m List.mem_cons_self).symm.trans h) Bool.false_ne_true
    · cases early with
      | nil =>
          obtain ⟨rfl, rfl⟩ := List.cons.inj hsplit
          exact ⟨hpedal, hlate⟩
      | cons first early =>
          obtain ⟨rfl, _⟩ := List.cons.inj hsplit
          exact absurd ((hearly m List.mem_cons_self).symm.trans h) Bool.false_ne_true
  · rintro ⟨hpedal, hlate⟩
    refine .inr ⟨[], m, moments, rfl, ?_, h, hpedal, hlate⟩
    intro k hk
    cases hk

/-- A note lasts over a moment and others exactly if it lasts over the others from then on. -/
theorem lasts_cons (phase : Phase) :
    Lasts source pedal (m :: moments) phase
      ↔ Lasts source (pedalSince pedal m) moments (phaseSince source pedal m phase) := by
  cases phase with
  | off => exact Iff.rfl
  | held =>
      cases hreleases : m.releases source with
      | false =>
          simp only [phaseSince, hreleases, if_neg Bool.false_ne_true]
          exact sounds_cons_of_not_releases hreleases
      | true =>
          refine (sounds_cons_of_releases hreleases).trans ?_
          simp only [phaseSince, hreleases, if_true]
          cases pedal with
          | false => simp [Lasts]
          | true => simp [Lasts]
  | sustained =>
      cases hlifts : m.lifts with
      | false => simp [Lasts, phaseSince, hlifts]
      | true => simp [Lasts, phaseSince, hlifts]

end Histories

section Lives

variable {e : Engine} {id : Nat} {source : UInt32} {tn : Tenancy} {m : Moment}

/-- A moment that neither releases the key of a note nor lifts the pedal leaves its phase. -/
theorem phaseSince_of_not
    {pedal : Bool} {phase : Phase}
    (hreleases : m.releases source = false)
    (hlifts : m.lifts = false) :
    phaseSince source pedal m phase = phase := by
  cases phase with
  | off => rfl
  | held => simp [phaseSince, hreleases]
  | sustained => simp [phaseSince, hlifts]

/-- A released key ends a note that it holds, or leaves it to the pedal. -/
theorem phase_tenancyAfter_noteOff
    {event : Event}
    (hunison : e.settings.unison = false)
    (hid : id < e.bank.count)
    (howner : tn.phase = .held → tn.owner = some source)
    (hkind : event.kind = .noteOff) :
    (e.tenancyAfter (.play event) id tn).phase
      = phaseSince source e.pedal (.play event) tn.phase := by
  have hlifts : (Moment.play event).lifts = false := by
    simp [Moment.lifts, hkind]
  have hreleases : (Moment.play event).releases source = (event.source == source) := by
    simp [Moment.releases, hkind]
  rw [tenancyAfter_noteOff hunison hid hkind]
  cases hphase : tn.phase with
  | off => simp [Tenancy.heldBy, hphase, phaseSince]
  | sustained => simp [Tenancy.heldBy, hphase, phaseSince, hlifts]
  | held =>
      have howned : tn.owner = some source := howner hphase
      have hheld : tn.heldBy event.source = (event.source == source) := by
        simp [Tenancy.heldBy, hphase, howned, Bool.beq_comm]
      rw [hheld]
      simp only [phaseSince, hreleases]
      cases event.source == source with
      | false => exact hphase
      | true =>
          unfold endAnswer
          cases e.pedal with
          | false => rfl
          | true => rfl

/-- When the pedal goes up, the notes that it kept end. -/
theorem phase_tenancyAfter_sustain
    {event : Event}
    (hid : id < e.bank.count)
    (hkind : event.kind = .sustain) :
    (e.tenancyAfter (.play event) id tn).phase
      = phaseSince source e.pedal (.play event) tn.phase := by
  have hlifts : (Moment.play event).lifts = !event.pressesPedal := by
    simp [Moment.lifts, hkind]
  have hreleases : (Moment.play event).releases source = false := by
    simp [Moment.releases, hkind]
  rw [tenancyAfter_sustain hid hkind]
  unfold pedalAnswer
  cases hphase : tn.phase with
  | off => cases event.pressesPedal <;> simp [phaseSince, hphase, Answer.tenancy]
  | held => cases event.pressesPedal <;> simp [phaseSince, hphase, hreleases, Answer.tenancy]
  | sustained =>
      cases hpressed : event.pressesPedal <;>
        simp [phaseSince, hphase, hlifts, hpressed, Answer.tenancy]

/-- What a moment that spares a voice does to its phase. -/
theorem phase_tenancyAfter
    (hunison : e.settings.unison = false)
    (hid : id < e.bank.count)
    (howner : tn.phase = .held → tn.owner = some source)
    (hclear : e.clears m = false)
    (hspared : e.Overlooks id m) :
    (e.tenancyAfter m id tn).phase = phaseSince source e.pedal m tn.phase := by
  cases hgoverns : m.governs with
  | false =>
      have halike : (e.tenancyAfter m id tn).Alike tn :=
        .of_ageless (ageless_tenancyAfter hclear hgoverns)
      obtain ⟨hreleases, hlifts⟩ := Moment.not_governs source hgoverns
      rw [phaseSince_of_not hreleases hlifts]
      exact halike.1
  | true =>
      obtain ⟨event, rfl, hon | hoff | hsustain⟩ := Moment.exists_of_governs hgoverns
      · have hkept : e.tenancyAfter (.play event) id tn = tn := by
          rw [tenancyAfter_noteOn hunison hid hon,
            if_neg fun hfree => hspared event _ rfl hfree rfl,
            if_neg fun hstolen => hspared event _ rfl hstolen rfl]
        rw [hkept, phaseSince_of_not]
        · simp [Moment.releases, hon]
        · simp [Moment.lifts, hon]
      · exact phase_tenancyAfter_noteOff hunison hid howner hoff
      · exact phase_tenancyAfter_sustain hid hsustain

/-- Unless a new note gets it, a voice that is held was held before, by the same key. -/
theorem held_of_tenancyAfter
    (h : Attained e)
    (hunison : e.settings.unison = false)
    (hid : id < e.bank.count)
    (htn : e.tenancy? id = some tn)
    (hspared : e.Overlooks id m)
    (hheld : (e.tenancyAfter m id tn).phase = .held) :
    tn.phase = .held ∧ (e.tenancyAfter m id tn).owner = tn.owner := by
  have hvacant {after : Tenancy} (hafter : after.Alike {}) : after.phase ≠ .held := by
    rw [hafter.1]
    exact Phase.noConfusion
  rcases alike_or_passes h hunison hid htn m with halike | hpasses
  · exact ⟨halike.1.symm.trans hheld, halike.2⟩
  · cases hpasses with
    | start hallots => exact absurd rfl (hspared _ _ rfl hallots)
    | steal hallots => exact absurd rfl (hspared _ _ rfl hallots)
    | release _ _ _ _ hafter => exact absurd hheld (hvacant hafter)
    | keep _ _ _ _ hafter =>
        rw [hafter] at hheld
        cases hheld
    | lift _ _ _ hafter => exact absurd hheld (hvacant hafter)
    | clear _ _ hafter => exact absurd hheld (hvacant hafter)

/-- The moments since its beginning tell whether a note still sounds. -/
theorem phase_run
    {moments : List Moment}
    (h : Attained e)
    (hunison : e.settings.unison = false)
    (hid : id < e.bank.count)
    (htn : e.tenancy? id = some tn)
    (howner : tn.phase = .held → tn.owner = some source)
    (hspares : e.Spares id moments) :
    ∃ last, (e.run moments).tenancy? id = some last
      ∧ (last.phase ≠ .off ↔ Lasts source e.pedal moments tn.phase) := by
  induction moments generalizing e tn with
  | nil =>
      refine ⟨tn, htn, ?_⟩
      cases tn.phase with
      | off => simp [Lasts]
      | held => simp [Lasts, Sounds]
      | sustained => simp [Lasts]
  | cons m moments ih =>
      obtain ⟨hclear, hspared, hrest⟩ := hspares
      obtain ⟨hsame, hcount⟩ := regime_after h.concordant.counted hclear
      have hphase := phase_tenancyAfter hunison hid howner hclear hspared
      -- the invariant of the run: while the voice is held, it is held by the key of the note
      have howner' : (e.tenancyAfter m id tn).phase = .held →
          (e.tenancyAfter m id tn).owner = some source := by
        intro hheld
        obtain ⟨hbefore, hkept⟩ := held_of_tenancyAfter h hunison hid htn hspared hheld
        exact hkept.trans (howner hbefore)
      have hnext : (e.after m).tenancy? id = some (e.tenancyAfter m id tn) := by
        rw [tenancy?_after, htn]
        rfl
      obtain ⟨last, hlast, hlasts⟩ :=
        ih (h.after m) (hsame.trans hunison) (hid.trans_eq hcount.symm) hnext howner' hrest
      refine ⟨last, hlast, hlasts.trans ?_⟩
      rw [lasts_cons, pedal_after, hphase]

/-- A voice that gets a new note is held by its key. -/
theorem tenancy?_of_allots?
    {on : Event} {choice : Choice}
    (hconcord : e.roster.Concordant)
    (hallots : e.allots? on = some choice) :
    ∃ tn, (e.perform on).tenancy? choice.id = some tn
      ∧ tn.phase = .held ∧ tn.owner = some on.source := by
  obtain ⟨slot, v, _, hdeserves, _, hperform⟩ := perform_of_allots? hconcord hallots
  have hplays := Voice.playsAnew_playing v on e.temperament
  refine ⟨(v.playing on e.temperament).toTenancy, ?_, hplays.held, hplays.owner⟩
  rw [hperform]
  exact congrArg (Option.map Voice.toTenancy) (voice?_withNote hdeserves.voice)

/--
Without unison, a voice that plays notes passes on in one of six ways, and in no other.
So as long as nothing clears a voice that has got a note, or gives it a new one, it sounds
exactly if its key has not been released, or the pedal kept the note and has not gone up.
-/
theorem lifecycle
    (h : Attained e)
    (hunison : e.settings.unison = false) :
    (∀ m id before after, id < e.bank.count → e.tenancy? id = some before →
        (e.after m).tenancy? id = some after →
        after.Alike before ∨ e.Passes id before after m)
      ∧ (∀ on choice moments, e.allots? on = some choice →
          (e.perform on).Spares choice.id moments →
          ∃ last, ((e.perform on).run moments).tenancy? choice.id = some last
            ∧ (last.phase ≠ .off ↔ Sounds on.source e.pedal moments)) := by
  constructor
  · intro m id before after hid hbefore hafter
    rw [tenancy?_after, hbefore] at hafter
    obtain rfl : e.tenancyAfter m id before = after := Option.some.inj hafter
    exact alike_or_passes h hunison hid hbefore m
  · intro on choice moments hallots hspares
    have hkind : on.kind = .noteOn := (of_allots? hallots).1
    have hclear : e.clears (.play on) = false := clears_of_kind (by rw [hkind]; decide)
    obtain ⟨hsame, hcount⟩ := regime_after h.concordant.counted hclear
    have hpedal : (e.after (.play on)).pedal = e.pedal := by
      rw [pedal_after]
      simp [pedalSince, hkind]
    have hid : choice.id < (e.perform on).bank.count :=
      (Bank.id_lt_of_choose? (choose?_of_allots? hallots)).trans_eq hcount.symm
    obtain ⟨tn, htn, hheld, howner⟩ := tenancy?_of_allots? h.concordant hallots
    obtain ⟨last, hlast, hlasts⟩ :=
      phase_run (h.after (.play on)) (hsame.trans hunison) hid htn (fun _ => howner) hspares
    refine ⟨last, hlast, hlasts.trans ?_⟩
    rw [hheld, hpedal]
    rfl

/-- The third note is released while the pedal is down, and then the pedal goes up. -/
def thirdNoteEnds : List Moment :=
  [.play (Event.noteOff 5 1 4), .play (Event.sustain 1 false 5)]

/-- A note that steals the voice of another one ends when the pedal goes up. -/
theorem lifecycle_sustainedPair :
    Attained sustainedPair
      ∧ sustainedPair.settings.unison = false
      ∧ sustainedPair.allots? thirdNote = some (.stolen 0)
      ∧ (sustainedPair.perform thirdNote).Spares 0 thirdNoteEnds
      ∧ (∃ last, ((sustainedPair.perform thirdNote).run thirdNoteEnds).tenancy? 0 = some last
          ∧ (last.phase ≠ .off ↔ Sounds 5 sustainedPair.pedal thirdNoteEnds))
      ∧ (((sustainedPair.perform thirdNote).run thirdNoteEnds).tenancy? 0).map Tenancy.phase
          = some .off := by
  have hattained : Attained sustainedPair := midway_sustainedPair.attained
  have hunison : sustainedPair.settings.unison = false := by decide +kernel
  have hstolen : sustainedPair.allots? thirdNote = some (.stolen 0) := by decide +kernel
  have hnone {e : Engine} {event : Event} (hkind : event.kind ≠ .noteOn) :
      e.Overlooks 0 (.play event) := by
    rintro next choice ⟨⟩ hallots
    exact absurd (of_allots? hallots).1 hkind
  have hspares : (sustainedPair.perform thirdNote).Spares 0 thirdNoteEnds :=
    ⟨by decide +kernel, hnone (by decide), by decide +kernel, hnone (by decide), trivial⟩
  exact ⟨hattained, hunison, hstolen, hspares,
    (lifecycle hattained hunison).2 thirdNote (.stolen 0) thirdNoteEnds hstolen hspares,
    by decide +kernel⟩

end Lives

end Engine
end Polyphony
