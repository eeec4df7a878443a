import Polyphony.Proofs.Engine.Mixing
import Polyphony.Proofs.Engine.Places

/-!
# The bounds of a block

A block looks at many places by numbers that it computes: voices, slots of the
table of held notes, entries of the drift table, bends of channels, scratch planes,
and streams of the buffer.  Here a block is processed in a way that fails as soon as
one of these places does not exist, and this never happens.

**Results.**
* `Fitted.exists_renderBlock?`: a block is rendered into places that exist.
* `stays_within_bounds`: so is every block, whatever a host has done before.
-/

namespace Polyphony
namespace Engine

section Blocks

/-- The signals of the shared buses, put into their planes, and the engine after them. -/
def renderShared? (e : Engine) (n : Nat) (s : Scratch) : Option (Engine × Scratch) :=
  match e.settings.protocol with
  | .expressive => do
    let (shared, e) := e.renderShared n
    let s ← Scratch.putAll? bendPlane shared.inOrder s
    some (e, s)
  | .conventional => some (e, s)
  | .continuousTouch => some (e, s)

/-- Renders the voices that play notes, with the shared signals from the scratch, into the buffer. -/
def renderVoices?
    (e : Engine)
    (n : Nat)
    (s : Scratch)
    (out : Buffer) :
    Option (Engine × Scratch × Buffer) := do
  let _ ← s.read? driftPlane n
  let (e, s) ← e.renderShared? n s
  let context : BlockContext :=
    { frames := n, settings := e.settings, tuningShift := e.tuningShift, shared := {} }
  let d ← (List.range out.voices).foldlM (Desk.render? context e.bank.count)
    { voices := e.bank.voices, scratch := s, out }
  some ({ e with bank := { e.bank with voices := d.voices } }, d.scratch, d.out)

/-- Lets the active voices grow older by a block. -/
def growVoices? (e : Engine) (n : Nat) : Option Engine :=
  e.mapActive? fun v => v.grow n

/-- Draws drift goals for the voices that play notes. -/
def drawDrift? (e : Engine) : Option Engine := do
  let active ← e.bank.active?
  let (goals, drift) ← Drift.goals? active.length 0 e.drift
  some ({ e with drift }.scheduleDrift goals)

/-- Runs the clock of the drift, if there is any, and draws goals when they are due. -/
def runDrift? (e : Engine) (n : Nat) : Option Engine :=
  if 0.0 < e.settings.drift then
    let moved := { e with drift := e.drift.advance n }
    if e.drift.isDue then moved.drawDrift? else some moved
  else some e

/-- Performs the events due within the next `n` frames. -/
def performDue? (e : Engine) (n : Nat) : Option Engine :=
  ((e.due n).map e.localEvent).foldlM perform?
    { e with queue := e.queue.dropBefore (e.clock + n) }

/-- Renders a block of `n` frames. -/
def renderBlock?
    (e : Engine)
    (n : Nat)
    (s : Scratch)
    (out : Buffer) :
    Option (Engine × Scratch × Buffer) := do
  let e ← e.growVoices? n
  let e ← e.runDrift? n
  let e ← e.performDue? n
  let (e, s, out) ← e.renderVoices? n s out
  some (e.finish n, s, out)

/-- Processes a block into an output buffer. -/
def process?
    (e : Engine)
    (frames : Nat)
    (s : Scratch)
    (out : Buffer) :
    Option (Engine × Scratch × Buffer) :=
  let e := e.adoptAwaited
  let n := blockLength frames out
  if n = 0 then some (e, s, out) else e.renderBlock? n s out

variable {e : Engine} {n frames : Nat} {s : Scratch} {out : Buffer}

/-- Every shared signal is as long as the block. -/
theorem size_of_mem_inOrder
    {signal : Signal}
    (h : signal ∈ (e.renderShared n).1.inOrder) :
    signal.size = n := by
  rcases List.mem_append.1 h with hmain | hbends
  · simp only [renderShared, List.mem_cons, List.not_mem_nil, or_false] at hmain
    rcases hmain with rfl | rfl | rfl | rfl | rfl <;> exact Ramp.size_render _ _
  · obtain ⟨rendered, hrendered, rfl⟩ := List.mem_map.1 hbends
    obtain ⟨r, _, rfl⟩ := List.mem_map.1 hrendered
    exact Ramp.size_render _ _

/-- The shared signals find their planes. -/
theorem exists_renderShared?
    (h : e.channelBends.length = channelCount)
    (hn : n ≤ maxBlock)
    (s : Scratch) :
    ∃ after, e.renderShared? n s = some ((e.sharedSignals n).2, after)
      ∧ (e.settings.protocol = .expressive → after.Holds n (e.sharedSignals n).1) := by
  unfold renderShared? sharedSignals
  cases hprotocol : e.settings.protocol with
  | conventional => exact ⟨s, rfl, fun h => by cases h⟩
  | continuousTouch => exact ⟨s, rfl, fun h => by cases h⟩
  | expressive =>
      have hchannels : (e.renderShared n).1.channelBends.length = channelCount := by
        simpa [renderShared] using h
      have hplanes : bendPlane + (e.renderShared n).1.inOrder.length ≤ scratchPlanes := by
        rw [SharedSignals.inOrder, List.length_append, hchannels]
        exact Nat.le_refl _
      obtain ⟨after, hafter, hread, _⟩ :=
        Scratch.exists_putAll? (fun _ => size_of_mem_inOrder) hn s hplanes
      refine ⟨after, ?_, fun _ => ⟨hread, hchannels⟩⟩
      show (Scratch.putAll? bendPlane (e.renderShared n).1.inOrder s).bind _ = _
      rw [hafter]
      rfl

/-- The voices that play notes are rendered into planes that exist. -/
theorem exists_renderVoices?
    (h : e.channelBends.length = channelCount)
    (hn : 0 < n)
    (hblock : n ≤ maxBlock)
    (hframes : n ≤ out.frames)
    (s : Scratch) :
    ∃ after, e.renderVoices? n s out
      = some ((e.renderVoices n out.voices).2, after,
          out.putVoices (e.renderVoices n out.voices).1) := by
  obtain ⟨_, hshared, hholds⟩ := e.exists_renderShared? h hblock s
  have hread : s.read? driftPlane n = some _ :=
    if_pos (s.contains (show driftPlane < scratchPlanes by decide) hblock)
  have hsignals (id : Nat) (hid : id < out.voices) :
      (e.renderVoices n out.voices).1[id]?
        = if id < e.bank.count then
            e.bank.voices[id]?.map fun v => ((e.blockContext n).renderVoice id v).1
          else none := by
    have hiff : id < min e.bank.count out.voices ↔ id < e.bank.count := by
      omega
    rw [getElem?_renderVoices_fst]
    simp only [hiff]
  -- The context of the checked block has no shared signals; it does not look at them.
  have hframes' : (e.blockContext n).frames ≤ out.frames := hframes
  obtain ⟨d, hfold, hvoices, hout, _⟩ := Desk.exists_foldlM_render? hholds hblock hframes'
    (by omega) hsignals out.voices (Nat.le_refl _)
  refine ⟨d.scratch, ?_⟩
  unfold renderVoices?
  rw [hread, hshared, sharedSignals_snd]
  show ((List.range out.voices).foldlM (Desk.render? (e.blockContext n) e.bank.count) _).bind _ = _
  rw [hfold, renderVoices_snd, Buffer.putVoices, ← hout]
  show some (_, _, _) = _
  rw [hvoices]
  rfl

theorem drawDrift?_eq
    (h : e.bank.Fits) :
    e.drawDrift? = some e.drawDrift := by
  have hlength : e.bank.active.length = e.bank.count := List.length_take_of_le h
  simp only [drawDrift?, drawDrift, Bank.active?_eq h, Drift.goals?_eq, hlength,
    Option.bind_eq_bind, Option.bind_some]

theorem runDrift?_eq
    (h : e.bank.Fits)
    (n : Nat) :
    e.runDrift? n = some (e.runDrift n) := by
  unfold runDrift? runDrift
  split
  · dsimp only
    split
    · exact drawDrift?_eq h
    · rfl
  · rfl

/-- What comes before the events of a block neither makes nor removes places. -/
theorem Fitted.opened
    (h : e.Fitted)
    (n : Nat) :
    (e.opened n).Fitted := by
  rw [opened_eq]
  exact h.congr rfl (by simp [Bank.mapActiveIdx]) rfl

/-- A block with places for everything is rendered into places that exist. -/
theorem Fitted.exists_renderBlock?
    (h : e.Fitted)
    (hn : 0 < n)
    (hblock : n ≤ maxBlock)
    (hframes : n ≤ out.frames)
    (s : Scratch) :
    ∃ after, e.renderBlock? n s out
      = some ((e.renderBlock n out).1, after, (e.renderBlock n out).2) := by
  have hgrow : e.growVoices? n = some (e.growVoices n) := mapActive?_eq h.voices
  have hgrown : (e.growVoices n).Fitted := by
    refine h.congr rfl ?_ rfl
    simp [growVoices, mapActive, Bank.mapActive, Bank.mapActiveIdx]
  have hdrift : (e.growVoices n).runDrift? n = some (e.prepare n) :=
    runDrift?_eq hgrown.voices n
  obtain ⟨hperform, hperformed⟩ :=
    foldlM_perform? (h.opened n) (((e.prepare n).due n).map (e.prepare n).localEvent)
  have hdue : (e.prepare n).performDue? n = some (e.performed n) := hperform
  obtain ⟨after, hrender⟩ :=
    (e.performed n).exists_renderVoices? hperformed.bends hn hblock hframes s
  refine ⟨after, ?_⟩
  simp only [renderBlock?, hgrow, hdrift, hdue, hrender, Option.bind_eq_bind, Option.bind_some]
  rfl

/-- New settings never ask for more voices than there are. -/
theorem Reachable.fitted_adoptAwaited
    (h : Reachable e) :
    e.adoptAwaited.Fitted where
  voices := by
    have hconcord := concordant_invariant.adoptAwaited (concordant_invariant.of_reachable h)
    exact hconcord.fits_voices
  bends := by
    have hregulated := regulated_invariant.adoptAwaited (regulated_invariant.of_reachable h)
    exact length_channelBends hregulated

/--
Whatever a host has done to an engine, however long the block, whatever buffer it is
written to and whatever the scratch holds, processing a block only looks at places
that exist: the voices that play notes and those that a search visits, the slots of
the table, the entries of the drift table, the bends of the channels, the scratch
planes, and the streams of the buffer.  And it does what processing a block does.
-/
theorem stays_within_bounds
    (h : Reachable e)
    (frames : Nat)
    (s : Scratch)
    (out : Buffer) :
    ∃ after, e.process? frames s out
      = some ((e.process frames out).1, after, (e.process frames out).2) := by
  unfold process? process
  dsimp only
  split
  case isTrue => exact ⟨s, rfl⟩
  case isFalse hn =>
    have hblock : blockLength frames out ≤ maxBlock :=
      Nat.le_trans (Nat.min_le_left _ _) (Nat.min_le_right _ _)
    have hframes : blockLength frames out ≤ out.frames := Nat.min_le_right _ _
    exact h.fitted_adoptAwaited.exists_renderBlock? (Nat.pos_of_ne_zero hn) hblock hframes s

/-- Two voices drift and read bends of their own, and a third place in the buffer is silenced. -/
theorem bounds_bentFinger :
    Reachable bentFinger
      ∧ (bentFinger.process 4 (Buffer.silent 3 4)).1.bank.count = 2
      ∧ ∃ after, bentFinger.process? 4 Scratch.silent (Buffer.silent 3 4)
        = some ((bentFinger.process 4 (Buffer.silent 3 4)).1, after,
            (bentFinger.process 4 (Buffer.silent 3 4)).2) := by
  have hreach : Reachable bentFinger := Reachable.operateAll (reachableBy_idlePair _) _
  have hcount : (bentFinger.process 4 (Buffer.silent 3 4)).1.bank.count = 2 := by
    decide +kernel
  exact ⟨hreach, hcount, stays_within_bounds hreach 4 Scratch.silent (Buffer.silent 3 4)⟩

end Blocks

end Engine
end Polyphony
