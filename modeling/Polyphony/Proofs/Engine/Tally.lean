import Polyphony.Proofs.Engine.Moments
import Polyphony.Proofs.Engine.Stack

/-!
# Where the notes of keys that are down are kept in unison

In unison an engine keeps the note of each key that is down in one of two places.  The
note that sounds is in the table of held notes, and all others wait on the stack.

**Tally.**  `Tally` counts the keys that are down from moment to moment.  A key leaves it
when it goes up, when all notes end, or when the stack has no room left for its note.

**Coming back.**  A note that comes back from the stack is put back into no table.  So
the key whose note has come back is in neither place, as long as it sounds.

**Results.**
* `kept_after`: each moment keeps the notes where the tally says.
* `kept_once_iff`: where the notes of keys are after a run.
-/

namespace Polyphony

namespace Keys

/-- With a full stack, the note that sounds is forgotten when another key goes down. -/
def crowded (k : Keys) : Keys :=
  if maxDisplacedNotes < k.down.length then { k with down := k.down.tail } else k

section Crowding

variable {k : Keys} {e : Engine} {event : Event}

/-- A new key finds its note in the table. -/
theorem Stacked.listed_press
    (h : k.Stacked e.roster)
    (hkind : event.kind = .noteOn)
    (hnew : event.source ∉ k.down.map Event.source) :
    event ∈ (e.heldAfter event).notes := by
  obtain ⟨slot, hslot⟩ := Option.isSome_iff_exists.1 h.hasRoom
  have hunison : e.settings.unison = true := h.unison
  have hput : event ∈ (e.held.put slot event).notes :=
    (HeldNotes.mem_notes_put_iff hslot).2 (Or.inl rfl)
  cases hdown : k.down with
  | nil =>
      have hafter : e.heldAfter event = e.held.put slot event := by
        simp [Engine.heldAfter, hkind, hslot, hunison, h.count_pos,
          h.soundingEvent?_of_nil hdown]
      rw [hafter]
      exact hput
  | cons top rest =>
      obtain ⟨sounding, hsounding, htimeless⟩ := h.soundingEvent?_of_cons hdown
      have hsource : sounding.source = top.source := Event.source_eq_of_timeless htimeless
      have hafter : e.heldAfter event = (e.held.put slot event).forget top.source := by
        simp [Engine.heldAfter, hkind, hslot, hunison, h.count_pos, hsounding, hsource]
      rw [hafter]
      refine HeldNotes.mem_notes_forget.2 ⟨hput, ?_⟩
      rintro heq
      apply hnew
      simp [hdown, heq]

/-- A new key goes on top even if the note that sounds finds no room on the stack. -/
theorem Stacked.press_full
    (h : k.Stacked e.roster)
    (hkind : event.kind = .noteOn)
    (hnew : event.source ∉ k.down.map Event.source)
    (hmany : maxDisplacedNotes < k.down.length) :
    (({ k with down := k.down.tail } : Keys).press event).Stacked (e.perform event).roster := by
  have hwaiting : e.displaced.notes.map Event.timeless = k.down.tail.map Event.timeless :=
    h.waiting
  have hfull : e.displaced.isFull = true := by
    have hlength := congrArg List.length hwaiting
    simp only [List.length_map, List.length_tail] at hlength
    simp only [DisplacedNotes.isFull, decide_eq_true_eq]
    omega
  have hafter : e.displacedAfter event = e.displaced := by
    cases hsounding : e.soundingEvent? with
    | none => simp [Engine.displacedAfter, hkind, hsounding]
    | some sounding => simp [Engine.displacedAfter, hkind, hsounding, DisplacedNotes.push, hfull]
  refine h.press_onto hkind hnew (List.tail_sublist k.down) ?_
  rw [hafter, hwaiting]

/-- The end of all notes leaves no key that the engine knows of. -/
theorem Stacked.end_all
    (h : k.Stacked e.roster)
    (hsilent : e.silences event = false)
    (hnotes : e.obeys allNotesOff event = true) :
    Stacked { pedal := e.pedalAfter event } (e.perform event).roster := by
  have hkind : event.kind = .controller := Engine.kind_of_obeys hnotes
  have hheld : e.heldAfter event = .empty := by
    simp [Engine.heldAfter, hkind, hnotes]
  have hdisplaced : e.displacedAfter event = .empty := by
    simp [Engine.displacedAfter, hkind, hnotes]
  refine h.perform_of hsilent rfl List.nodup_nil ?_ ?_ ?_ ?_ ?_
  · intro id v _
    simp only [Engine.answer, hkind, Engine.controllerAnswer, hnotes, if_true]
    cases hphase : v.phase with
    | off => exact hphase
    | held => rfl
    | sustained => rfl
  · rw [hdisplaced]
    rfl
  · rw [hheld]
    rfl
  · rw [hheld]
    decide
  · rw [hheld]
    intro n hn
    exact absurd hn (HeldNotes.not_mem_notes_empty n)

/-- Settings do not matter to the stack, as long as unison stays on. -/
theorem Stacked.resettled
    {r : Roster}
    (h : k.Stacked r)
    {s : Settings}
    (hunison : s.unison = true) :
    k.Stacked { r with settings := s } where
  unison := hunison
  playing := h.playing
  pedal := h.pedal
  distinct := h.distinct
  shown := h.shown
  waiting := h.waiting
  slots := h.slots
  single := h.single
  table := h.table

end Crowding

end Keys

/-- The keys that are down in unison, as far as the engine knows of them. -/
structure Tally where
  /-- The keys, but for those that a full stack has made the engine forget. -/
  keys : Keys
  /-- Whether the note of the key pressed last has come back from the stack. -/
  returned : Bool := false

namespace Tally

section Counting

/-- At first no key is down. -/
def initial : Tally :=
  { keys := { pedal := false } }

/-- Whether the key that was pressed last is one of `source`. -/
def isTop (t : Tally) (source : UInt32) : Bool :=
  t.keys.down.head?.any fun top => top.source == source

def press (t : Tally) (event : Event) : Tally :=
  { keys := t.keys.crowded.press event }

/-- A key goes up; if it was the one on top, the note of the next one comes back. -/
def lift (t : Tally) (source : UInt32) : Tally :=
  { keys := t.keys.lift source, returned := t.returned || t.isTop source }

/-- The tally after a moment of an engine. -/
def after (t : Tally) (e : Engine) (m : Moment) : Tally :=
  if e.clears m then { keys := { pedal := (e.after m).pedal } }
  else
    match m with
    | .play event =>
        match event.kind with
        | .noteOn => t.press event
        | .noteOff => t.lift event.source
        | .sustain => { t with keys := t.keys.movePedal event.pressesPedal }
        | _ => t
    | _ => t

/-- The tally after a run of an engine. -/
def along (t : Tally) (e : Engine) : List Moment → Tally
  | [] => t
  | m :: moments => (t.after e m).along (e.after m) moments

/-- Whether a key that goes down in unison was up. -/
def Admits (t : Tally) (e : Engine) : Moment → Prop
  | .play event =>
      event.kind = .noteOn → e.settings.unison = true → 1 ≤ e.bank.count →
        event.source ∉ t.keys.down.map Event.source
  | _ => True

/-- Whether all keys that go down in a run were up. -/
def AdmitsAll (t : Tally) (e : Engine) : List Moment → Prop
  | [] => True
  | m :: moments => t.Admits e m ∧ (t.after e m).AdmitsAll (e.after m) moments

/-- The notes of the keys are where the tally says. -/
structure Kept (t : Tally) (r : Roster) : Prop where
  stacked : t.keys.Stacked r
  /-- A note that has come back is in no table. -/
  missing : t.returned = true → r.held.notes = []
  /-- Any other note that sounds is in the table of held notes. -/
  listed : t.returned = false →
    ∀ top ∈ t.keys.down.head?, ∃ n ∈ r.held.notes, n.source = top.source

end Counting

section Steps

variable {t : Tally} {e : Engine} {event : Event} {m : Moment}

theorem isTop_iff
    {source : UInt32} :
    t.isTop source = true ↔ ∃ top rest, t.keys.down = top :: rest ∧ top.source = source := by
  unfold isTop
  cases t.keys.down with
  | nil => simp
  | cons top rest => simp

theorem kept_of_vacant
    {pedal : Bool} {r : Roster}
    (h : Keys.Stacked { pedal } r) :
    Kept { keys := { pedal } } r where
  stacked := h
  missing := fun hreturned => absurd hreturned Bool.false_ne_true
  listed := fun _ _ htop => by cases htop

/-- What changes neither the keys that are down nor the table keeps the notes in place. -/
theorem Kept.of_held
    {k : Keys} {r next : Roster}
    (h : t.Kept r)
    (hstacked : k.Stacked next)
    (hdown : k.down = t.keys.down)
    (hheld : next.held = r.held) :
    ({ t with keys := k } : Tally).Kept next where
  stacked := hstacked
  missing := by
    rw [hheld]
    exact h.missing
  listed := by
    rw [hheld]
    show t.returned = false → ∀ top ∈ k.down.head?, _
    rw [hdown]
    exact h.listed

theorem held_perform
    (hclear : e.clears (.play event) = false) :
    (e.perform event).roster.held = e.heldAfter event :=
  congrArg Engine.Tables.held (Engine.tables_perform (Bool.or_eq_false_iff.1 hclear).1)

/-- A new key has its note in the table. -/
theorem kept_press
    (h : t.Kept e.roster)
    (hkind : event.kind = .noteOn)
    (hnew : event.source ∉ t.keys.down.map Event.source) :
    (t.press event).Kept (e.perform event).roster where
  stacked := by
    show (t.keys.crowded.press event).Stacked _
    unfold Keys.crowded
    split
    case isTrue hmany => exact h.stacked.press_full hkind hnew hmany
    case isFalse hfew => exact h.stacked.press hkind hnew (Nat.not_lt.1 hfew)
  missing := fun hreturned => absurd hreturned Bool.false_ne_true
  listed := by
    intro _ top htop
    obtain rfl : event = top := Option.some.inj htop
    rw [held_perform (Engine.clears_of_kind (by rw [hkind]; decide))]
    exact ⟨event, h.stacked.listed_press hkind hnew, rfl⟩

/-- The note of a key that comes on top when another one goes up is in no table. -/
theorem kept_lift
    (h : t.Kept e.roster)
    (hkind : event.kind = .noteOff) :
    (t.lift event.source).Kept (e.perform event).roster := by
  have hheld : (e.perform event).roster.held = e.held.forget event.source := by
    rw [held_perform (Engine.clears_of_kind (by rw [hkind]; decide))]
    simp [Engine.heldAfter, hkind]
  refine ⟨h.stacked.lift hkind, ?_, ?_⟩
  · intro hreturned
    rw [hheld, List.eq_nil_iff_forall_not_mem]
    intro n hn
    obtain ⟨hmem, hne⟩ := HeldNotes.mem_notes_forget.1 hn
    rcases (Bool.or_eq_true _ _).mp hreturned with hbefore | htop
    · have hnone : e.held.notes = [] := h.missing hbefore
      rw [hnone] at hmem
      cases hmem
    · -- the table held the note of the key that has gone up, and of no other one
      obtain ⟨top, rest, hdown, hsource⟩ := isTop_iff.1 htop
      exact hne ((h.stacked.table_of_cons hdown n hmem).trans hsource)
  · intro hreturned top htop
    obtain ⟨hbefore, hburied⟩ := Bool.or_eq_false_iff.1 hreturned
    have hleft : top ∈ (t.keys.lift event.source).down.head? := htop
    rw [Keys.down_lift] at hleft
    cases hdown : t.keys.down with
    | nil =>
        rw [hdown] at hleft
        cases hleft
    | cons first rest =>
        have hother : first.source ≠ event.source := fun hsource =>
          absurd (isTop_iff.2 ⟨first, rest, hdown, hsource⟩) (by rw [hburied]; decide)
        rw [hdown, List.filter_cons_of_pos (by simpa using hother)] at hleft
        obtain rfl : first = top := Option.some.inj hleft
        obtain ⟨n, hn, hsource⟩ := h.listed hbefore first (by rw [hdown]; rfl)
        rw [hheld]
        exact ⟨n, HeldNotes.mem_notes_forget.2 ⟨hn, hsource.trans_ne hother⟩, hsource⟩

/-- Settings that end all notes leave an engine silent. -/
theorem adoptAwaited_of_clears
    (hclear : e.adoptClears = true) :
    ∃ f : Engine, e.adoptAwaited = f.silence ∧ f.bank.count ≤ f.bank.voices.length := by
  obtain ⟨next, hawaited, hchanges⟩ := (Option.any_eq_true _ _).mp hclear
  have hsame : Engine.changesNotes e.taken.settings (e.taken.admitted next) = true := hchanges
  unfold Engine.adoptAwaited
  rw [hawaited]
  show ∃ f : Engine, e.taken.adopt next = _ ∧ _
  unfold Engine.adopt
  dsimp only
  rw [hsame, if_pos rfl]
  refine ⟨_, rfl, ?_⟩
  have hfits : min (e.taken.admitted next).voices e.taken.bank.capacity
      ≤ e.taken.bank.voices.length := Nat.min_le_right _ _
  simpa [Engine.distributeGlides, Bank.mapAll, Bank.withCount] using hfits

/-- What ends all notes leaves no key that the engine knows of. -/
theorem kept_clear
    (h : e.roster.Concordant)
    (hkept : e.settings.unison = true → 1 ≤ e.bank.count → t.Kept e.roster)
    (hclear : e.clears m = true)
    (hunison : (e.after m).settings.unison = true)
    (hcount : 1 ≤ (e.after m).bank.count) :
    Kept { keys := { pedal := (e.after m).pedal } } (e.after m).roster := by
  apply kept_of_vacant
  have hfits := h.fits_voices
  cases m with
  | play event =>
      have hback := Engine.background_perform e event
      have hbefore : e.settings.unison = true :=
        (congrArg (fun b : Background => b.settings.unison) hback).symm.trans hunison
      have hplays : 1 ≤ e.bank.count := hcount.trans_eq (congrArg Background.count hback)
      cases hsilent : e.silences event with
      | true =>
          show Keys.Stacked { pedal := (e.perform event).pedal } (e.perform event).roster
          rw [Engine.perform_of_silences hsilent]
          exact Keys.stacked_silence_of_fits hfits hbefore hplays
      | false =>
          have hnotes := Engine.obeys_of_clears hclear hsilent
          have hpedal : (e.after (.play event)).pedal = e.pedalAfter event :=
            congrArg Engine.Tables.pedal (Engine.tables_perform hsilent)
          rw [hpedal]
          exact (hkept hbefore hplays).stacked.end_all hsilent hnotes
  | manage op hquiet => cases hclear
  | silence => exact Keys.stacked_silence_of_fits hfits hunison hcount
  | reset =>
      exact Keys.stacked_silence_of_fits (e := { e with pedal := false }) hfits hunison hcount
  | adopt =>
      obtain ⟨f, hafter, hfits⟩ := adoptAwaited_of_clears hclear
      have hsilence : e.after .adopt = f.silence := hafter
      rw [hsilence] at hunison hcount ⊢
      exact Keys.stacked_silence_of_fits hfits hunison hcount
  | enter n => cases hclear
  | leave n places => cases hclear

/-- An event that does not end all notes keeps the notes where the tally says. -/
theorem kept_play
    (h : t.Kept e.roster)
    (hclear : e.clears (.play event) = false)
    (hnew : event.kind = .noteOn → event.source ∉ t.keys.down.map Event.source) :
    (t.after e (.play event)).Kept (e.perform event).roster := by
  have hafter : t.after e (.play event) =
      match event.kind with
      | .noteOn => t.press event
      | .noteOff => t.lift event.source
      | .sustain => { t with keys := t.keys.movePedal event.pressesPedal }
      | _ => t := if_neg (by rw [hclear]; decide)
  obtain ⟨hsilent, hnotes⟩ := Bool.or_eq_false_iff.1 hclear
  rw [hafter]
  cases hkind : event.kind with
  | noteOn => exact kept_press h hkind (hnew hkind)
  | noteOff => exact kept_lift h hkind
  | sustain =>
      refine h.of_held (h.stacked.movePedal hkind) rfl ?_
      rw [held_perform hclear]
      simp [Engine.heldAfter, hkind]
      rfl
  | _ =>
      refine h.of_held (h.stacked.other hsilent hnotes (by simp [hkind]) (by simp [hkind])
        (by simp [hkind])) rfl ?_
      rw [held_perform hclear]
      simp [Engine.heldAfter, hkind, hnotes]
      rfl

/-- Each moment keeps the notes where the tally says, as long as unison is on. -/
theorem kept_after
    (h : e.roster.Concordant)
    (hkept : e.settings.unison = true → 1 ≤ e.bank.count → t.Kept e.roster)
    (hadmits : t.Admits e m)
    (hunison : (e.after m).settings.unison = true)
    (hcount : 1 ≤ (e.after m).bank.count) :
    (t.after e m).Kept (e.after m).roster := by
  cases hclear : e.clears m with
  | true =>
      have hafter : t.after e m = { keys := { pedal := (e.after m).pedal } } := if_pos hclear
      rw [hafter]
      exact kept_clear h hkept hclear hunison hcount
  | false =>
      obtain ⟨hsame, hcounts⟩ := Engine.regime_after h.counted hclear
      rw [hsame] at hunison
      rw [hcounts] at hcount
      have hbefore := hkept hunison hcount
      have hquiet {next : Roster} (hroster : next = e.roster) : t.Kept next := by
        rw [hroster]
        exact hbefore
      cases m with
      | play event => exact kept_play hbefore hclear fun hkind => hadmits hkind hunison hcount
      | manage op hquietly => exact hquiet (Engine.roster_operate e hquietly)
      | silence => cases hclear
      | reset => cases hclear
      | adopt =>
          obtain ⟨s, hs, hroster⟩ := Engine.roster_adoptAwaited h.counted hclear
          have hafter : t.after e .adopt = t := if_neg (by rw [hclear]; decide)
          have hnext : (e.after .adopt).roster = { e.roster with settings := s } := hroster
          rw [hafter, hnext]
          exact hbefore.of_held (hbefore.stacked.resettled (hs.trans hunison)) rfl rfl
      | enter n => exact hquiet (Engine.roster_prepare e n)
      | leave n places => exact hquiet (Engine.roster_leave e n places)

/-- So does a run. -/
theorem kept_along
    {moments : List Moment}
    (h : Engine.Attained e)
    (hkept : e.settings.unison = true → 1 ≤ e.bank.count → t.Kept e.roster)
    (hadmits : t.AdmitsAll e moments)
    (hunison : (e.run moments).settings.unison = true)
    (hcount : 1 ≤ (e.run moments).bank.count) :
    (t.along e moments).Kept (e.run moments).roster := by
  induction moments generalizing e t with
  | nil => exact hkept hunison hcount
  | cons m moments ih =>
      exact ih (h.after m) (kept_after h.concordant hkept hadmits.1) hadmits.2 hunison hcount

end Steps

section Places

variable {t : Tally} {r : Roster} {key : Event}

/-- The sources of the notes that wait are those of the keys below the top. -/
theorem Kept.waiting_sources
    (h : t.Kept r) :
    r.displaced.notes.map Event.source = t.keys.down.tail.map Event.source := by
  have hsources (notes : List Event) :
      notes.map Event.source = (notes.map Event.timeless).map Event.source := by
    rw [List.map_map]
    rfl
  rw [hsources, h.stacked.waiting, ← hsources]

/-- The table holds no note but that of the key on top, and this one unless it has come back. -/
theorem Kept.held_sources
    (h : t.Kept r)
    {top : Event} {rest : List Event}
    (hdown : t.keys.down = top :: rest)
    (source : UInt32) :
    source ∈ r.held.notes.map Event.source ↔ source = top.source ∧ t.returned = false := by
  have hsame : ∀ n ∈ r.held.notes, n.source = top.source := by
    intro n hn
    obtain ⟨key, hkey, hsource⟩ := h.stacked.table n hn
    rw [hdown] at hkey
    obtain rfl : top = key := Option.some.inj hkey
    exact hsource
  constructor
  · intro hmem
    obtain ⟨n, hn, rfl⟩ := List.mem_map.1 hmem
    refine ⟨hsame n hn, ?_⟩
    rw [Bool.eq_false_iff]
    intro hreturned
    rw [h.missing hreturned] at hn
    cases hn
  · rintro ⟨rfl, hreturned⟩
    obtain ⟨n, hn, hsource⟩ := h.listed hreturned top (by rw [hdown]; rfl)
    exact List.mem_map.2 ⟨n, hn, hsource⟩

/-- A key has its note in one place; once its note has come back, it has it in none. -/
theorem Kept.once_iff
    (h : t.Kept r)
    (hkey : key ∈ t.keys.down) :
    (Xor (key.source ∈ r.held.notes.map Event.source)
        (key.source ∈ r.displaced.notes.map Event.source)
      ↔ ¬ (t.returned = true ∧ t.keys.down.head? = some key))
    ∧ (t.returned = true → t.keys.down.head? = some key →
        key.source ∉ r.held.notes.map Event.source
          ∧ key.source ∉ r.displaced.notes.map Event.source) := by
  have hdistinct := h.stacked.distinct
  cases hdown : t.keys.down with
  | nil =>
      rw [hdown] at hkey
      cases hkey
  | cons top rest =>
      rw [h.waiting_sources, h.held_sources hdown]
      rw [hdown, List.map_cons, List.nodup_cons] at hdistinct
      rw [hdown] at hkey ⊢
      rw [List.tail_cons, List.head?_cons]
      rcases List.mem_cons.1 hkey with rfl | hrest
      · -- the key on top is not among those that wait
        simp [Xor, hdistinct.1]
      · have hwaits : key.source ∈ rest.map Event.source := List.mem_map_of_mem hrest
        have hother : key.source ≠ top.source := fun heq => hdistinct.1 (heq ▸ hwaits)
        have hbelow : top ≠ key := fun heq => hother (congrArg Event.source heq.symm)
        simp [Xor, hwaits, hother, hbelow]

end Places

end Tally

namespace Engine

section Accounts

variable {e : Engine} {moments : List Moment}

/--
In unison, and as long as no key goes down that is down, each key of which the engine knows
has its note in exactly one of the table and the stack at every point of a run, but for
one case: the note of the key on top is in neither of them once it has come back.
-/
theorem kept_once_iff
    {capacity queueLength : Nat} {rate : Float32} {t : Temperament} {library : Library}
    (h : Engine.build capacity rate (EventQueue.empty queueLength) t library = .ok e)
    (hadmits : Tally.initial.AdmitsAll e moments)
    (hunison : (e.run moments).settings.unison = true)
    (hcount : 1 ≤ (e.run moments).bank.count) :
    ∀ key ∈ (Tally.initial.along e moments).keys.down,
      (Xor (key.source ∈ (e.run moments).held.notes.map Event.source)
          (key.source ∈ (e.run moments).displaced.notes.map Event.source)
        ↔ ¬ ((Tally.initial.along e moments).returned = true
            ∧ (Tally.initial.along e moments).keys.down.head? = some key))
      ∧ ((Tally.initial.along e moments).returned = true →
          (Tally.initial.along e moments).keys.down.head? = some key →
          key.source ∉ (e.run moments).held.notes.map Event.source
            ∧ key.source ∉ (e.run moments).displaced.notes.map Event.source) := by
  intro key hkey
  have hsilent : e.settings.unison = true → 1 ≤ e.bank.count →
      Tally.initial.Kept e.roster := by
    rw [eq_idle_of_build h]
    intro hon
    cases hon
  exact (Tally.kept_along (.build h) hsilent hadmits hunison hcount).once_iff hkey

/-- Two voices that are not in use yet. -/
def unusedPair : Engine :=
  Engine.idle 2 48000.0 (EventQueue.empty 8) {} .plain

/-- Unison is turned on, two keys go down, and the one that was pressed last goes up. -/
def revivingMoments : List Moment :=
  [.manage (.stage { voices := 2, unison := true }) rfl, .adopt,
    .play (Event.noteOn 7 1 60.0 1.0 0), .play (Event.noteOn 8 1 64.0 1.0 3),
    .play (Event.noteOff 8 1 5)]

/-- The key that is still down sounds again, and its note is in neither place. -/
theorem not_kept_revived :
    Engine.build 2 48000.0 (EventQueue.empty 8) {} .plain = .ok unusedPair
      ∧ Tally.initial.AdmitsAll unusedPair revivingMoments
      ∧ (unusedPair.run revivingMoments).settings.unison = true
      ∧ 1 ≤ (unusedPair.run revivingMoments).bank.count
      ∧ (Tally.initial.along unusedPair revivingMoments).keys.down
          = [Event.noteOn 7 1 60.0 1.0 0]
      ∧ 7 ∉ (unusedPair.run revivingMoments).held.notes.map Event.source
      ∧ 7 ∉ (unusedPair.run revivingMoments).displaced.notes.map Event.source := by
  have hbuilt : Engine.build 2 48000.0 (EventQueue.empty 8) {} .plain = .ok unusedPair := by
    rfl
  have hadmits : Tally.initial.AdmitsAll unusedPair revivingMoments :=
    ⟨trivial, trivial, fun _ _ _ => by decide +kernel, fun _ _ _ => by decide +kernel,
      (fun hkind => absurd hkind (by decide)), trivial⟩
  have hunison : (unusedPair.run revivingMoments).settings.unison = true := by decide +kernel
  have hcount : 1 ≤ (unusedPair.run revivingMoments).bank.count := by decide +kernel
  have hdown : (Tally.initial.along unusedPair revivingMoments).keys.down
      = [Event.noteOn 7 1 60.0 1.0 0] := by decide +kernel
  have hreturned : (Tally.initial.along unusedPair revivingMoments).returned = true := by
    decide +kernel
  have hplaces := kept_once_iff hbuilt hadmits hunison hcount (Event.noteOn 7 1 60.0 1.0 0)
    (by rw [hdown]; exact List.mem_cons_self)
  obtain ⟨hheld, hwaits⟩ := hplaces.2 hreturned (by rw [hdown]; rfl)
  exact ⟨hbuilt, hadmits, hunison, hcount, hdown, hheld, hwaits⟩

end Accounts

end Engine
end Polyphony
