import ThermalLabel.Fault

/-!
# Errors in records

Why a record cannot be written: an instant that has no written form, a directive of the message
that is not understood, values that do not fit their directives, or an exception that is none.
-/
namespace ThermalLabel.Log

inductive Error where
  | fault (f : Fault)
  | yearOutOfRange (year : Int)
  /-- The year of an instant does not fit 32 bits. -/
  | noDate
  /-- The seconds of an instant do not fit 64 bits. -/
  | instantOutOfRange
  | instantNotNumber
  | unfinishedKey
  | unfinishedDirective
  | unknownKey (key : Text)
  | unknownDirective (c : CodePoint) (position : Nat)
  | widthTooLarge
  | precisionTooLarge
  /-- What stands for an exception has no third part, although parts of its `kind` are counted. -/
  | shortException (kind : String)
  | unnamedException
  | notException
  deriving DecidableEq, Repr

def liftFault {α : Type} : Except Fault α → Except Error α
  | .ok a => .ok a
  | .error f => .error (.fault f)

/-- A character that can be shown in a message of one octet per character. -/
def plainChar (c : CodePoint) : CodePoint :=
  if 31 ≤ c.toNat ∧ c.toNat < 127 then c else '?'

def Error.message : Error → Text
  | fault f => f.message
  | yearOutOfRange year => "year " ++ toString year ++ " is out of range"
  | instantOutOfRange => "timestamp out of range for platform time_t"
  | instantNotNumber => "Invalid value NaN (not a number)"
  | unfinishedKey => "incomplete format key"
  | unfinishedDirective => "incomplete format"
  | unknownKey key => Text.quoted key
  | unknownDirective c position =>
    ("unsupported format character '" : Text) ++ [plainChar c] ++ "' (0x" ++
      Text.ofChars (Nat.toDigits 16 c.toNat) ++ ") at index " ++ Text.ofNat position
  | widthTooLarge => "width too big"
  | precisionTooLarge => "precision too big"
  | shortException kind => kind ++ " index out of range"
  | unnamedException => "2"
  | noDate | notException => ""

end ThermalLabel.Log
