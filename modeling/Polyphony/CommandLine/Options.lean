import Polyphony.Numeral
import Polyphony.Settings.Basic

/-!
# Options of the command line

A flag counts wherever it stands.  An option takes the argument that follows its
first occurrence, whatever that argument is; an option at the very end has no
value and keeps its default.
-/

namespace Polyphony
namespace CommandLine

/-- What a user can choose. -/
structure Options where
  voices : Nat := 4
  protocol : Protocol := .conventional
  seconds : Float32 := 1.0
  unison : Bool := false
  verbose : Bool := false
  csvPath : Option String := none

/-- Why the options were not accepted. -/
inductive OptionFault
  /-- The number of voices cannot be read. -/
  | badVoices (fault : Numeral.WholeFault)
  /-- There is no protocol of this name. -/
  | unknownProtocol (name : String)

namespace OptionFault

/-- What the user is told. -/
def message : OptionFault → String
  | badVoices fault => "Bad --voices: " ++ fault.message
  | unknownProtocol name =>
    "Unknown protocol " ++ name ++ ", expected conventional|expressive|touch"

end OptionFault

/-- The argument behind the first occurrence of an option. -/
def valueOf? (name : String) : List String → Option String
  | [] => none
  | arg :: args => if arg = name then args.head? else valueOf? name args

/-- The number of voices that an argument asks for. -/
def readVoices : Option String → Except OptionFault Nat
  | none => .ok 4
  | some text => (Numeral.whole text).mapError .badVoices

/-- The protocol that an argument names. -/
def readProtocol : Option String → Except OptionFault Protocol
  | none => .ok .conventional
  | some "conventional" => .ok .conventional
  | some "expressive" => .ok .expressive
  | some "touch" => .ok .continuousTouch
  | some name => .error (.unknownProtocol name)

/-- The length that an argument asks for; one second if it cannot be read. -/
def readSeconds (arg : Option String) : Float32 :=
  (arg.bind Numeral.decimal?).getD 1.0

/-- Reads the arguments; the number of voices is checked before the protocol. -/
def Options.read (args : List String) : Except OptionFault Options := do
  let voices ← readVoices (valueOf? "--voices" args)
  let protocol ← readProtocol (valueOf? "--protocol" args)
  return {
    voices
    protocol
    seconds := readSeconds (valueOf? "--seconds" args)
    unison := args.contains "--unison"
    verbose := args.contains "--verbose"
    csvPath := valueOf? "--csv" args }

end CommandLine
end Polyphony
