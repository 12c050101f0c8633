import RequestRules.Calendar.Moment
import RequestRules.Number.Numeral

/-!
# Faults of a YAML text

Why a text has no value.  Most faults are of one sort, `malformed`: the text breaks a rule of the language, or a tag
does not fit its node.  The other faults arise where a well-formed node is turned into a value.
-/

namespace RequestRules.Yaml

inductive Fault
  /-- the text breaks a rule of the language -/
  | malformed
  /-- an escaped code that is no character -/
  | noCharacter
  /-- an escaped code of more than 31 bits -/
  | hugeCode
  /-- nested too deeply, or without an end -/
  | endless
  | noFile (path : Text)
  /-- a tag without the name of a variable -/
  | noName
  /-- a name that the system cannot be asked for -/
  | notEncodable
  | nul
  /-- a variable or a truth value that does not exist -/
  | unknownName
  | emptyNumber
  /-- a fraction with too many places of base 60 -/
  | hugeBase
  | notWhole (base : Nat) (t : Text)
  | tooLong (digits : Nat)
  | notReal (t : Text)
  | notTime
  | timeOfMap
  | calendar (e : CalendarError)
  deriving DecidableEq, Repr

def Fault.message? : Fault → Option Text
  | noCharacter => some (.of "chr() arg not in range(0x110000)")
  | noFile path => some path
  | noName => some (.of "not enough values to unpack (expected at least 1, got 0)")
  | nul => some (.of "embedded null byte")
  | notWhole base t =>
    some (.of "invalid literal for int() with base " ++ Numeral.ofNat base ++ .of ": " ++ t.quoted.take 200)
  | tooLong n => some (Numeral.tooLong n)
  | notReal t => some (.of "could not convert string to float: " ++ t.quoted)
  | calendar e => some e.message
  | malformed | notEncodable | hugeCode | endless | unknownName | emptyNumber | hugeBase | notTime | timeOfMap => none

end RequestRules.Yaml
