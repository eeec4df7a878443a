import Polyphony.Proofs.Engine.Lifecycle

/-!
# How old a note is

When a block begins, every voice that plays a note grows older by its frames, and a voice
that gets a new note begins again at zero.  So without unison the age of a voice is
known from the moments since its last new note: it is what the blocks have that have
begun since then.  Which of two notes began in an earlier block can therefore be told
from their ages, and of the notes that the pedal keeps one of the earliest is stolen.

**Blocks.**  A call without frames is no block, and no voice grows older in it.

**Results.**
* `age_tenancyAfter`: what a moment does to the age of a voice that it gives no new note.
* `exists_lastTriggered`: every voice that plays a note has got a last new one, and is as
  old as the blocks since.
* `ages_in_order`: ages, the order of new notes, and which kept note is stolen.
-/

namespace Polyphony

namespace Moment

/-- Whether a block begins. -/
def begins (m : Moment) : Bool :=
  0 < m.frames

end Moment

section Blocks

variable {moments : List Moment} {i j k : Nat}

/-- The frames of the blocks that begin after the moment with a number. -/
def framesAfter (moments : List Moment) (k : Nat) : Nat :=
  ((moments.drop (k + 1)).map Moment.frames).sum

/-- The number of the block of a moment: how many have begun by then. -/
def blockAt (moments : List Moment) (k : Nat) : Nat :=
  (moments.take (k + 1)).countP Moment.begins

theorem framesAfter_concat
    (hk : k < moments.length)
    (m : Moment) :
    framesAfter (moments ++ [m]) k = framesAfter moments k + m.frames := by
  unfold framesAfter
  rw [List.drop_append_of_le_length hk]
  simp

/-- No block begins after the last moment. -/
theorem framesAfter_length (moments : List Moment) (m : Moment) :
    framesAfter (moments ++ [m]) moments.length = 0 := by
  simp [framesAfter]

/-- Every block has a frame. -/
theorem countP_begins_le (moments : List Moment) :
    moments.countP Moment.begins ≤ (moments.map Moment.frames).sum := by
  induction moments with
  | nil => simp
  | cons m moments ih =>
      rw [List.countP_cons, List.map_cons, List.sum_cons]
      unfold Moment.begins at ih ⊢
      split
      case isTrue hbegins =>
        have hone : 0 < m.frames := by simpa using hbegins
        omega
      case isFalse => omega

/-- More frames come after a moment of an earlier block. -/
theorem framesAfter_lt
    (h : blockAt moments i < blockAt moments j) :
    framesAfter moments j < framesAfter moments i := by
  have hle : i ≤ j := by
    by_contra hlater
    have hsub : (moments.take (j + 1)).Sublist (moments.take (i + 1)) :=
      List.take_sublist_take_left (by omega)
    exact absurd (hsub.countP_le (p := Moment.begins)) (Nat.not_le.2 h)
  obtain ⟨d, rfl⟩ := Nat.exists_eq_add_of_le hle
  let later := moments.drop (i + 1)
  have hblocks : blockAt moments (i + d)
      = blockAt moments i + (later.take d).countP Moment.begins := by
    unfold blockAt
    rw [Nat.add_right_comm, List.take_add, List.countP_append]
  have hframes : framesAfter moments i
      = ((later.take d).map Moment.frames).sum + framesAfter moments (i + d) := by
    have hsplit : later = later.take d ++ moments.drop (i + d + 1) := by
      rw [Nat.add_right_comm, ← List.drop_drop]
      exact (List.take_append_drop d later).symm
    show (later.map Moment.frames).sum = _
    conv_lhs => rw [hsplit]
    rw [List.map_append, List.sum_append]
    rfl
  have hfew := countP_begins_le (later.take d)
  omega

end Blocks

namespace Engine

section Growing

variable {e : Engine} {m : Moment} {id : Nat} {tn : Tenancy}

/-- A voice that does not play notes is vacant. -/
theorem Attained.vacant_of_spare
    (h : Attained e)
    (htn : e.tenancy? id = some tn)
    (hspare : ¬ id < e.bank.count) :
    tn = {} := by
  have haccounted : e.census.Accounted := CensusInvariant.of_attained accounted_invariant h
  rw [tenancy?_eq] at htn
  exact haccounted.spare id tn htn (Nat.not_lt.1 hspare)

/-- Moments leave a voice vacant that does not play notes. -/
theorem tenancyAfter_of_spare
    (hspare : ¬ id < e.bank.count)
    (m : Moment) :
    e.tenancyAfter m id {} = {} := by
  cases m with
  | play event => simp [tenancyAfter, hspare]
  | adopt => simp [tenancyAfter]
  | enter n => simp [tenancyAfter, hspare]
  | _ => rfl

/-- A key that is released, or the pedal, ends the note of a voice or leaves it as old as it is. -/
theorem age_tenancyAfter_governs
    {event : Event}
    (hunison : e.settings.unison = false)
    (hid : id < e.bank.count)
    (hspared : e.Overlooks id (.play event))
    (hkind : event.kind = .noteOn ∨ event.kind = .noteOff ∨ event.kind = .sustain)
    (hbusy : (e.tenancyAfter (.play event) id tn).phase ≠ .off) :
    tn.phase ≠ .off ∧ (e.tenancyAfter (.play event) id tn).age = tn.age := by
  rcases hkind with hon | hoff | hsustain
  · rw [tenancyAfter_noteOn hunison hid hon,
      if_neg fun hfree => hspared event _ rfl hfree rfl,
      if_neg fun hstolen => hspared event _ rfl hstolen rfl] at hbusy ⊢
    exact ⟨hbusy, rfl⟩
  · rw [tenancyAfter_noteOff hunison hid hoff] at hbusy ⊢
    cases hheld : tn.heldBy event.source with
    | false =>
        simp only [hheld, if_neg Bool.false_ne_true] at hbusy ⊢
        exact ⟨hbusy, trivial⟩
    | true =>
        have hphase : tn.phase = .held := by
          simp only [Tenancy.heldBy, Bool.and_eq_true, beq_iff_eq] at hheld
          exact hheld.1
        simp only [hheld, if_true, endAnswer] at hbusy ⊢
        cases hpedal : e.pedal with
        | false => simp [hpedal, Answer.tenancy] at hbusy
        | true => simp [hphase, Answer.tenancy]
  · rw [tenancyAfter_sustain hid hsustain] at hbusy ⊢
    unfold pedalAnswer at hbusy ⊢
    split
    case isTrue hpressed => 
      rw [if_pos hpressed] at hbusy
      exact ⟨hbusy, rfl⟩
    case isFalse hlifted =>
      rw [if_neg hlifted] at hbusy
      split
      case isTrue hkept =>
        rw [if_pos hkept] at hbusy
        exact absurd rfl hbusy
      case isFalse hkept =>
        rw [if_neg hkept] at hbusy
        exact ⟨hbusy, rfl⟩

/--
A moment that gives a voice no new note leaves it busy only if it was busy, and then makes
it older by the frames of the block that begins.
-/
theorem age_tenancyAfter
    (h : Attained e)
    (hunison : e.settings.unison = false)
    (htn : e.tenancy? id = some tn)
    (hspared : e.Overlooks id m)
    (hbusy : (e.tenancyAfter m id tn).phase ≠ .off) :
    tn.phase ≠ .off ∧ (e.tenancyAfter m id tn).age = tn.age + m.frames := by
  have hid : id < e.bank.count := by
    by_contra hspare
    rw [h.vacant_of_spare htn hspare, tenancyAfter_of_spare hspare] at hbusy
    exact hbusy rfl
  cases hclear : e.clears m with
  | true => exact absurd (alike_vacant_of_clears (h.owned htn) hid hclear).1 hbusy
  | false =>
      cases hgoverns : m.governs with
      | true =>
          obtain ⟨event, rfl, hkind⟩ := Moment.exists_of_governs hgoverns
          exact age_tenancyAfter_governs hunison hid hspared hkind hbusy
      | false =>
          rw [tenancyAfter_eq_grow hclear hgoverns, if_pos hid] at hbusy ⊢
          rw [Tenancy.phase_grow] at hbusy
          exact ⟨hbusy, by simp [Tenancy.grow, hbusy]⟩

/-- A new note lets the voice that gets it begin again at zero. -/
theorem age_of_allots?
    {on : Event} {choice : Choice}
    (hallots : e.allots? on = some choice) :
    (e.tenancyAfter (.play on) choice.id tn).age = 0 := by
  obtain ⟨hkind, hunison, _⟩ := of_allots? hallots
  have hid : choice.id < e.bank.count :=
    Bank.id_lt_of_choose? (choose?_of_allots? hallots)
  rw [tenancyAfter_noteOn hunison hid hkind, hallots]
  cases choice with
  | free id => simp [Choice.id, Answer.tenancy]
  | stolen id => simp [Choice.id, Answer.tenancy]

end Growing

section Histories

variable {e : Engine} {moments : List Moment} {id i j k : Nat}

/-- The moment with the number `k` of a run gives the voice with a number its last new note. -/
structure LastTriggered (e : Engine) (moments : List Moment) (id k : Nat) : Prop where
  triggered : ∃ on choice, moments[k]? = some (.play on)
    ∧ (e.run (moments.take k)).allots? on = some choice ∧ choice.id = id
  last : ∀ j m, k < j → moments[j]? = some m → (e.run (moments.take j)).Overlooks id m

/-- There is but one last new note. -/
theorem LastTriggered.unique
    (hi : e.LastTriggered moments id i)
    (hj : e.LastTriggered moments id j) :
    i = j := by
  have hle {i j : Nat} (hi : e.LastTriggered moments id i)
      (hj : e.LastTriggered moments id j) : j ≤ i := by
    by_contra hlater
    obtain ⟨on, choice, hget, hallots, hid⟩ := hj.triggered
    exact hi.last j _ (Nat.not_le.1 hlater) hget on choice rfl hallots hid
  exact Nat.le_antisymm (hle hj hi) (hle hi hj)

/-- A moment that gives a voice no new note leaves its last one the last. -/
theorem LastTriggered.concat
    {m : Moment}
    (h : e.LastTriggered moments id k)
    (hspared : (e.run moments).Overlooks id m) :
    k < moments.length ∧ e.LastTriggered (moments ++ [m]) id k := by
  obtain ⟨on, choice, hget, hallots, hid⟩ := h.triggered
  have hlt : k < moments.length := (List.getElem?_eq_some_iff.1 hget).1
  refine ⟨hlt, ⟨on, choice, ?_, ?_, hid⟩, ?_⟩
  · rw [List.getElem?_append_left hlt, hget]
  · rw [List.take_append_of_le_length hlt.le, hallots]
  · intro j n hj hn
    rcases Nat.lt_trichotomy j moments.length with hin | rfl | hout
    · rw [List.getElem?_append_left hin] at hn
      rw [List.take_append_of_le_length hin.le]
      exact h.last j n hj hn
    · obtain rfl : m = n := by simpa using hn
      rw [List.take_left]
      exact hspared
    · rw [List.getElem?_eq_none (by simp; omega)] at hn
      cases hn

/-- A new note is the last one when it comes. -/
theorem lastTriggered_length
    {on : Event} {choice : Choice}
    (hallots : (e.run moments).allots? on = some choice) :
    e.LastTriggered (moments ++ [.play on]) choice.id moments.length := by
  refine ⟨⟨on, choice, by simp, by rw [List.take_left, hallots], rfl⟩, ?_⟩
  intro j n hj hn
  rw [List.getElem?_eq_none (by simp; omega)] at hn
  cases hn

/-- Without unison at any time, a voice that plays a note is as old as its last new note. -/
theorem exists_lastTriggered
    (h : Attained e)
    (hquiet : ∀ id tn, e.tenancy? id = some tn → tn.phase = .off)
    (hoff : ∀ early, early <+: moments → (e.run early).settings.unison = false)
    {tn : Tenancy}
    (htn : (e.run moments).tenancy? id = some tn)
    (hbusy : tn.phase ≠ .off) :
    ∃ k, e.LastTriggered moments id k ∧ tn.age = framesAfter moments k := by
  induction moments using List.reverseRecOn generalizing tn with
  | nil => exact absurd (hquiet id tn htn) hbusy
  | append_singleton moments m ih =>
      have hbefore : moments <+: moments ++ [m] := List.prefix_append moments [m]
      have hattained : Attained (e.run moments) := h.run moments
      have hunison : (e.run moments).settings.unison = false := hoff moments hbefore
      have hlast : (e.run (moments ++ [m])).tenancy? id
          = ((e.run moments).tenancy? id).map ((e.run moments).tenancyAfter m id) := by
        rw [run_append]
        exact tenancy?_after _ m id
      rw [hlast] at htn
      obtain ⟨earlier, hearlier, rfl⟩ := Option.map_eq_some_iff.1 htn
      by_cases hspared : (e.run moments).Overlooks id m
      · obtain ⟨hwas, hage⟩ := age_tenancyAfter hattained hunison hearlier hspared hbusy
        obtain ⟨k, htriggered, hframes⟩ :=
          ih (fun early hearly => hoff early (hearly.trans hbefore)) hearlier hwas
        obtain ⟨hk, hconcat⟩ := htriggered.concat hspared
        exact ⟨k, hconcat, by rw [hage, hframes, framesAfter_concat hk]⟩
      · simp only [Overlooks, not_forall, ne_eq, not_not] at hspared
        obtain ⟨on, choice, rfl, hallots, rfl⟩ := hspared
        exact ⟨moments.length, lastTriggered_length hallots,
          by rw [age_of_allots? hallots, framesAfter_length]⟩

/-- No voice of an engine that was built plays a note. -/
theorem off_of_build
    {capacity : Nat} {rate : Float32} {queue : EventQueue} {t : Temperament}
    {library : Library} {tn : Tenancy}
    (hbuild : Engine.build capacity rate queue t library = .ok e)
    (htn : e.tenancy? id = some tn) :
    tn.phase = .off := by
  have hsilent : e.census = .silent {} false 0 capacity := by
    rw [eq_idle_of_build hbuild, census_idle]
  have hmem : tn ∈ List.replicate capacity {} := by
    rw [tenancy?_eq, hsilent] at htn
    exact List.mem_of_getElem? htn
  rw [List.eq_of_mem_replicate hmem]

/-- Of the notes that the pedal keeps, the oldest one is stolen. -/
theorem age_le_of_stolen
    {on : Event} {tn u : Tenancy}
    (hconcord : e.roster.Concordant)
    (hstolen : e.allots? on = some (.stolen id))
    (htn : e.tenancy? id = some tn)
    (hkept : tn.phase = .sustained)
    (hj : j < e.bank.count)
    (hu : e.tenancy? j = some u)
    (hsustained : u.phase = .sustained) :
    u.age ≤ tn.age := by
  obtain ⟨_, v, _, hdeserves, hchoice, _⟩ := perform_of_allots? hconcord hstolen
  have hvoice : e.bank.voices[id]? = some v := hdeserves.voice
  obtain ⟨w, hw, rfl⟩ := Option.map_eq_some_iff.1 hu
  obtain ⟨v', hv', rfl⟩ := Option.map_eq_some_iff.1 htn
  obtain rfl : v = v' := Option.some.inj (hvoice.symm.trans hv')
  -- a voice is stolen only if none is free
  have hbusy : ∀ u ∈ e.bank.active, u.phase ≠ .off := by
    intro u hu hoff
    have hfree : v.phase = .off := (hdeserves.free ⟨u, hu, hoff⟩).off
    rw [hkept] at hfree
    cases hfree
  have hexists : ∃ u ∈ e.bank.active, u.phase = .sustained :=
    ⟨w, Bank.mem_active_iff.2 ⟨j, hj, hw⟩, hsustained⟩
  exact (hdeserves.oldest hbusy hexists).oldest j w hj hw hsustained

/--
Without unison at any time since an engine was built, every voice that plays a note has
got a last new note, and is as old as the blocks that have begun since then, in frames.
So of two voices the one whose last new note began in an earlier block is older, and if
a new note steals a voice that the pedal keeps, no other voice that the pedal keeps got
its last new note in an earlier block.
-/
theorem ages_in_order
    {capacity queueLength : Nat} {rate : Float32} {t : Temperament} {library : Library}
    (hbuild : Engine.build capacity rate (EventQueue.empty queueLength) t library = .ok e)
    (hoff : ∀ early, early <+: moments → (e.run early).settings.unison = false) :
    let now := e.run moments
    (∀ id tn, now.tenancy? id = some tn → tn.phase ≠ .off →
        ∃ k, e.LastTriggered moments id k ∧ tn.age = framesAfter moments k)
      ∧ (∀ i j ti tj ki kj,
          now.tenancy? i = some ti → ti.phase ≠ .off → e.LastTriggered moments i ki →
          now.tenancy? j = some tj → tj.phase ≠ .off → e.LastTriggered moments j kj →
          blockAt moments ki < blockAt moments kj → tj.age < ti.age)
      ∧ ∀ on i j ti tj ki kj, now.allots? on = some (.stolen i) →
          now.tenancy? i = some ti → ti.phase = .sustained → e.LastTriggered moments i ki →
          now.tenancy? j = some tj → tj.phase = .sustained → e.LastTriggered moments j kj →
          blockAt moments ki ≤ blockAt moments kj := by
  intro now
  have hattained : Attained now := (Attained.build hbuild).run moments
  have hage : ∀ id tn, now.tenancy? id = some tn → tn.phase ≠ .off →
      ∃ k, e.LastTriggered moments id k ∧ tn.age = framesAfter moments k :=
    fun id tn htn hbusy =>
      exists_lastTriggered (.build hbuild) (fun _ _ => off_of_build hbuild) hoff htn hbusy
  have hsince {id k : Nat} {tn : Tenancy} (htn : now.tenancy? id = some tn)
      (hbusy : tn.phase ≠ .off) (hk : e.LastTriggered moments id k) :
      tn.age = framesAfter moments k := by
    obtain ⟨l, hl, hframes⟩ := hage id tn htn hbusy
    rw [hframes, hl.unique hk]
  have hsustained {tn : Tenancy} (hkept : tn.phase = .sustained) : tn.phase ≠ .off := by
    rw [hkept]
    exact Phase.noConfusion
  refine ⟨hage, ?_, ?_⟩
  · intro i j ti tj ki kj hti hi hki htj hj hkj hearlier
    rw [hsince hti hi hki, hsince htj hj hkj]
    exact framesAfter_lt hearlier
  · intro on i j ti tj ki kj hstolen hti hkept hki htj hkeptj hkj
    by_contra hearlier
    have hcount : j < now.bank.count := by
      by_contra hspare
      rw [hattained.vacant_of_spare htj hspare] at hkeptj
      cases hkeptj
    have hle : tj.age ≤ ti.age :=
      age_le_of_stolen hattained.concordant hstolen hti hkept hcount htj hkeptj
    rw [hsince hti (hsustained hkept) hki, hsince htj (hsustained hkeptj) hkj] at hle
    exact absurd (framesAfter_lt (Nat.not_le.1 hearlier)) (Nat.not_lt.2 hle)

/-- Two voices with the pedal down: a note of one block is kept, then one of the next block. -/
def keptPair : List Operation :=
  [.stage { voices := 2 }, .push (Event.sustain 1 true 0), .push (Event.noteOn 3 1 60.0 1.0 1),
    .push (Event.noteOff 3 1 2), .process 8 (Buffer.silent 0 8), .process 0 (Buffer.silent 0 8),
    .push (Event.noteOn 4 1 64.0 1.0 8), .push (Event.noteOff 4 1 9),
    .process 4 (Buffer.silent 0 8)]

/-- In the third block a new note steals the voice of the first one, which is older. -/
theorem ages_of_keptPair :
    let e := idle 2 48000.0 (EventQueue.empty 8) {} .plain
    let moments := e.momentsOfAll keptPair ++ [.adopt, .enter 2]
    Engine.build 2 48000.0 (EventQueue.empty 8) {} .plain = .ok e
      ∧ (∀ early, early <+: moments → (e.run early).settings.unison = false)
      ∧ e.run moments = (keptPair.foldl operate e).adoptAwaited.opened 2
      ∧ (e.run moments).allots? (Event.noteOn 5 1 67.0 1.0 0) = some (.stolen 0)
      ∧ ∃ k l, e.LastTriggered moments 0 k ∧ 6 = framesAfter moments k
          ∧ e.LastTriggered moments 1 l ∧ 2 = framesAfter moments l
          ∧ blockAt moments k ≤ blockAt moments l := by
  intro e moments
  have hbuild : Engine.build 2 48000.0 (EventQueue.empty 8) {} .plain = .ok e := by
    rfl
  have hoff : ∀ early, early <+: moments → (e.run early).settings.unison = false := by
    have hinits : ∀ early ∈ moments.inits, (e.run early).settings.unison = false := by
      decide +kernel
    exact fun early hearly => hinits early ((List.mem_inits _ _).2 hearly)
  have hstolen : (e.run moments).allots? (Event.noteOn 5 1 67.0 1.0 0) = some (.stolen 0) := by
    decide +kernel
  have hfirst : ((e.run moments).tenancy? 0).map (fun tn => (tn.phase, tn.age))
      = some (.sustained, 6) := by
    decide +kernel
  have hsecond : ((e.run moments).tenancy? 1).map (fun tn => (tn.phase, tn.age))
      = some (.sustained, 2) := by
    decide +kernel
  obtain ⟨tn, htn, hkept⟩ := Option.map_eq_some_iff.1 hfirst
  obtain ⟨u, hu, hsustained⟩ := Option.map_eq_some_iff.1 hsecond
  obtain ⟨hphase, hsix⟩ := Prod.mk.inj hkept
  obtain ⟨hphase', htwo⟩ := Prod.mk.inj hsustained
  obtain ⟨hages, _, hsteals⟩ := ages_in_order hbuild hoff
  obtain ⟨k, hk, hframes⟩ := hages 0 tn htn (by rw [hphase]; exact Phase.noConfusion)
  obtain ⟨l, hl, hframes'⟩ := hages 1 u hu (by rw [hphase']; exact Phase.noConfusion)
  refine ⟨hbuild, hoff, ?_, hstolen, k, l, hk, hsix ▸ hframes, hl, htwo ▸ hframes',
    hsteals _ 0 1 tn u k l hstolen htn hphase hk hu hphase' hl⟩
  rw [run_append, ← operateAll_eq_run]
  rfl

end Histories

end Engine
end Polyphony
