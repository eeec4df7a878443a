import Polyphony.Attempt
import Polyphony.Settings.Check

/-!
# The mailbox for settings

Settings reach a running engine through a mailbox.  The host posts as many as
eight; the engine collects all of them at once and keeps only the newest.
-/

namespace Polyphony

/-- How many settings can wait for the engine. -/
def mailboxCapacity : Nat := 8

/-- Settings on their way to the engine. -/
structure Mailbox where
  /-- The waiting settings, the newest one last. -/
  waiting : List Settings := []
deriving DecidableEq, Inhabited

namespace Mailbox

/-- A mailbox without settings. -/
def empty : Mailbox := {}

/-- Accepts settings without fault, if there is room. -/
def post (m : Mailbox) (s : Settings) : Attempt SettingsFault Unit Mailbox :=
  match s.fault? with
  | some fault => .error fault m
  | none =>
    if mailboxCapacity ≤ m.waiting.length then .error .mailboxFull m
    else .ok () { waiting := m.waiting ++ [s] }

/-- The newest of the waiting settings. -/
def newest? (m : Mailbox) : Option Settings :=
  m.waiting.getLast?

/-- The mailbox after all settings have been collected. -/
def collected (_ : Mailbox) : Mailbox :=
  empty

/-- Accepted settings are the newest. -/
theorem newest?_of_post
    {m n : Mailbox} {s : Settings}
    (h : m.post s = .ok () n) :
    n.newest? = some s := by
  unfold post at h
  split at h
  · cases h
  · split at h
    · cases h
    · cases h
      simp [newest?]

/-- Settings that are refused leave the mailbox as it is. -/
theorem harmless_post (m : Mailbox) (s : Settings) :
    (m.post s).Harmless m := by
  unfold post
  split
  · exact .error _
  · split
    · exact .error _
    · exact .ok _ _

end Mailbox
end Polyphony
