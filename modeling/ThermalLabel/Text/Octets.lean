/-!
# Characters and octets

A character takes one to four octets.  Decoding puts one replacement character for each longest
piece of a character that breaks off, and for each octet that cannot begin one.
-/
namespace ThermalLabel.Text

def charOctets (c : Char) : List Nat :=
  (String.utf8EncodeChar c).map UInt8.toNat

def octets (s : List Char) : List Nat :=
  s.flatMap charOctets

def replacement : Char := Char.ofNat 0xfffd

/-- A character in the middle: how many octets are missing, the bits so far, and the range of
the next octet. -/
structure Partial where
  missing : Nat
  bits : Nat
  least : Nat := 0x80
  greatest : Nat := 0xbf
  deriving DecidableEq, Repr

/-- What an octet above the first 128 can begin.  The ranges keep out overlong forms, halves of
pairs and code points past the last. -/
def Partial.begin? (b : Nat) : Option Partial :=
  if b < 0xc2 ∨ 0xf4 < b then none
  else if b < 0xe0 then some { missing := 1, bits := b - 0xc0 }
  else if b = 0xe0 then some { missing := 2, bits := 0, least := 0xa0 }
  else if b = 0xed then some { missing := 2, bits := 0xd, greatest := 0x9f }
  else if b < 0xf0 then some { missing := 2, bits := b - 0xe0 }
  else if b = 0xf0 then some { missing := 3, bits := 0, least := 0x90 }
  else if b = 0xf4 then some { missing := 3, bits := 4, greatest := 0x8f }
  else some { missing := 3, bits := b - 0xf0 }

/-- An octet at the beginning of a character: characters that are finished, and the one that is
not. -/
def beginChar (b : Nat) : List Char × Option Partial :=
  if b < 0x80 then ([Char.ofNat b], none)
  else match Partial.begin? b with
    | some p => ([], some p)
    | none => ([replacement], none)

def decodeOctet (p : Option Partial) (b : Nat) : List Char × Option Partial :=
  match p with
  | none => beginChar b
  | some p =>
    if p.least ≤ b ∧ b ≤ p.greatest then
      let bits := 64 * p.bits + (b - 0x80)
      if p.missing = 1 then ([Char.ofNat bits], none)
      else ([], some { missing := p.missing - 1, bits })
    else
      let (cs, next) := beginChar b
      (replacement :: cs, next)

def decodeFrom (p : Option Partial) : List Nat → List Char
  | [] => if p.isSome then [replacement] else []
  | b :: rest =>
    let (cs, next) := decodeOctet p b
    cs ++ decodeFrom next rest

def decodeOctets (s : List Nat) : List Char :=
  decodeFrom none s

end ThermalLabel.Text
