import Polyphony.Proofs.Engine.Gates
import Polyphony.Proofs.Engine.Regulation

/-!
# Which settings are applied and which ones wait

New settings are applied when a block is processed and at no other time, and how many
voices an engine has never changes.

**Results.**
* `setup_process`, `capacity_process`: a block applies the settings that wait; its
  frames have nothing to do with settings.
* `setup_operate`: nor have all operations that do not reach the settings directly.
-/

namespace Polyphony

/-- Whether an operation reaches the settings of an engine past its mailbox. -/
def Operation.isDirect : Operation → Bool
  | .attachMailbox => true
  | .post _ => true
  | .stage _ => true
  | _ => false

/-- The settings of an engine, those that wait for it, and how many voices it has. -/
structure Setup where
  settings : Settings
  mailbox : Option Mailbox
  staged : Option Settings
  capacity : Nat

/-- The part of the background that has to do with settings. -/
def Background.setup (b : Background) : Setup where
  settings := b.settings
  mailbox := b.mailbox
  staged := b.staged
  capacity := b.capacity

namespace Engine

section Setups

/-- The settings of an engine, those that wait for it, and how many voices it has. -/
def setup (e : Engine) : Setup :=
  e.background.setup

theorem setup_distributeGlides (e : Engine) :
    e.distributeGlides.setup = e.setup :=
  congrArg Background.setup (background_distributeGlides e)

theorem setup_silence (e : Engine) :
    e.silence.setup = e.setup :=
  congrArg Background.setup (background_silence e)

/-- Settings are applied as far as they are admitted. -/
theorem setup_adopt (e : Engine) (next : Settings) :
    (e.adopt next).setup = { e.setup with settings := e.admitted next } := by
  rw [adopt_eq]
  split
  · rw [setup_silence, setup_distributeGlides]
    rfl
  · rw [setup_distributeGlides]
    rfl

theorem setup_opened (e : Engine) (n : Nat) :
    (e.opened n).setup = e.setup := by
  have hcapacity : (e.opened n).capacity = e.capacity := by
    rw [opened_eq]
    exact Bank.capacity_mapActiveIdx _ _
  rw [opened_eq] at hcapacity ⊢
  unfold setup background Background.setup
  rw [hcapacity]

/-- The frames of a block have nothing to do with settings. -/
theorem setup_process (e : Engine) (frames : Nat) (out : Buffer) :
    (e.process frames out).1.setup = e.adoptAwaited.setup := by
  have hperformed (n : Nat) : (e.adoptAwaited.performed n).setup = e.adoptAwaited.setup := by
    rw [performed_eq]
    exact (congrArg Background.setup (background_performAll _ _)).trans (setup_opened _ n)
  have hfinished (f : Engine) (n : Nat) : (f.finish n).setup = f.setup := by
    simp [setup, background, Background.setup, finish, finishAt, dropPending, capacity,
      Bank.capacity, Bank.mapAll]
  unfold process
  dsimp only
  split
  · rfl
  · rw [renderBlock_fst, hfinished, ← hperformed (blockLength frames out)]
    exact congrArg Background.setup (background_renderVoices _ _ _)

/-- An engine keeps its voices. -/
theorem capacity_process (e : Engine) (frames : Nat) (out : Buffer) :
    (e.process frames out).1.capacity = e.capacity := by
  have hsetup : (e.process frames out).1.capacity = e.adoptAwaited.capacity :=
    congrArg Setup.capacity (setup_process e frames out)
  rw [hsetup, capacity_adoptAwaited]

/-- Other operations have nothing to do with settings, unless they reach them directly. -/
theorem setup_operate
    (e : Engine)
    {op : Operation}
    (hdirect : op.isDirect = false)
    (hprocess : ∀ frames out, op ≠ .process frames out) :
    (e.operate op).setup = e.setup := by
  cases op with
  | attachMailbox => cases hdirect
  | post s => cases hdirect
  | stage s => cases hdirect
  | push event =>
      obtain ⟨_, -, hpush⟩ := exists_operate_push e event
      rw [hpush]
      rfl
  | setSampleRate rate =>
      rw [operate_setSampleRate]
      cases isSampleRate rate with
      | true =>
          refine (setup_distributeGlides _).trans ?_
          simp [setup, background, Background.setup, rerated, capacity, Bank.capacity,
            Bank.withSampleRate, Bank.mapAll]
      | false => rfl
  | setTemperament t => rfl
  | setClock time => rfl
  | silence => exact setup_silence e
  | reset => exact setup_silence e
  | process frames out => exact absurd rfl (hprocess frames out)

end Setups

end Engine

end Polyphony
