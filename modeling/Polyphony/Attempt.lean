/-!
# Attempts

A call that may be refused leaves a state behind in either case: an accepted one has
an answer, a refused one a reason, and each the state that its object is then in.

**Harmless refusals.**  Nothing in the form of an answer says that a refused call
changed nothing.  It is proved of every call, from the parts of a state outwards.
-/

namespace Polyphony

/-- What comes of a call that may be refused. -/
inductive Attempt (fault answer state : Type)
  /-- It was accepted. -/
  | ok (given : answer) (after : state)
  /-- It was refused. -/
  | error (reason : fault) (after : state)
deriving DecidableEq

namespace Attempt

section States

variable {fault answer part whole : Type} {a : Attempt fault answer part} {before : part}

/-- The state that a call leaves behind. -/
def state : Attempt fault answer part → part
  | ok _ after => after
  | error _ after => after

/-- Whether a call was accepted. -/
def isOk : Attempt fault answer part → Bool
  | ok _ _ => true
  | error _ _ => false

/-- A call on a part of a state, seen from the whole. -/
def within (put : part → whole) : Attempt fault answer part → Attempt fault answer whole
  | ok given after => .ok given (put after)
  | error reason after => .error reason (put after)

@[simp] theorem state_within (put : part → whole) (a : Attempt fault answer part) :
    (a.within put).state = put a.state := by
  cases a <;> rfl

/-- If the call was refused, the state is as it was before. -/
def Harmless (before : part) (a : Attempt fault answer part) : Prop :=
  ∀ reason after, a = .error reason after → after = before

theorem Harmless.ok (given : answer) (after : part) :
    (.ok given after : Attempt fault answer part).Harmless before := by
  intro reason left h
  cases h

theorem Harmless.error (reason : fault) :
    (.error reason before : Attempt fault answer part).Harmless before := by
  intro given left h
  cases h
  rfl

/-- A refusal that left a part as it was left the whole as it was. -/
theorem Harmless.within
    (h : a.Harmless before)
    (put : part → whole) :
    (a.within put).Harmless (put before) := by
  intro reason left hleft
  cases a with
  | ok given after => cases hleft
  | error why after =>
      cases hleft
      exact congrArg put (h _ after rfl)

end States

end Attempt
end Polyphony
