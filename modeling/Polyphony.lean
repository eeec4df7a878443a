import Polyphony.CommandLine.Program
import Polyphony.Proofs.Binary32.Zero
import Polyphony.Proofs.Notes.Standing
import Polyphony.Proofs.Ramp.Scheduled
import Polyphony.Proofs.Ramp.Frames
import Polyphony.Proofs.Ramp.Landing
import Polyphony.Proofs.Ramp.Adding
import Polyphony.Proofs.Voice.Answer
import Polyphony.Proofs.Voice.Attack
import Polyphony.Proofs.Engine.Performing
import Polyphony.Proofs.Engine.Reachable
import Polyphony.Proofs.Engine.Tables
import Polyphony.Proofs.Engine.NoteOff
import Polyphony.Proofs.Engine.Stack
import Polyphony.Proofs.Engine.Gates
import Polyphony.Proofs.Engine.Partition
import Polyphony.Proofs.Engine.Ownership
import Polyphony.Proofs.Engine.Mirror
import Polyphony.Proofs.Engine.Delivery
import Polyphony.Proofs.Engine.Isolation
import Polyphony.Proofs.Engine.Regulation
import Polyphony.Proofs.Engine.Composition
import Polyphony.Proofs.Engine.Writing
import Polyphony.Proofs.Engine.Renewal
import Polyphony.Proofs.Engine.Undisturbed
import Polyphony.Proofs.Engine.Places
import Polyphony.Proofs.Engine.Scratch
import Polyphony.Proofs.Engine.Mixing
import Polyphony.Proofs.Engine.Bounds
import Polyphony.Proofs.Engine.InForce
import Polyphony.Proofs.Engine.Touches
import Polyphony.Proofs.Engine.Tally
import Polyphony.Proofs.Engine.Causality
import Polyphony.Proofs.Engine.Cutoff
import Polyphony.Proofs.Engine.Handover
import Polyphony.Proofs.Engine.Wheel
import Polyphony.Proofs.Engine.Ages
import Polyphony.Proofs.Engine.Drifting
import Polyphony.Proofs.Session.Posting
import Polyphony.Proofs.Session.Continuation
import Polyphony.Proofs.Session.Outcome
import Polyphony.Proofs.Session.Demonstration
import Polyphony.Proofs.Recording.Reading
import Polyphony.Proofs.Signal.Views
import Polyphony.Proofs.Session.Sources
