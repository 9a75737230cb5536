import ThermalLabel.Text.Hex
import ThermalLabel.Text.Octets

/-!
# Request targets

What the routes see as `request.path`.  The path of a request is what its target holds before a
query or a fragment, without the blanks and controls in front.  A scheme and an authority in front
of the path do not count, `%` with two hexadecimal digits stands for an octet, and the path begins
with exactly one slash.
-/
namespace ThermalLabel.Http

/-- The octets that a text with percent escapes spells. -/
def escapedOctets : List Char → List Nat
  | [] => []
  | '%' :: a :: b :: rest =>
    match Text.hexValue? a, Text.hexValue? b with
    | some x, some y => (16 * x + y) :: escapedOctets rest
    | _, _ => 0x25 :: escapedOctets (a :: b :: rest)
  | c :: rest => Text.charOctets c ++ escapedOctets rest

def unescaped (s : List Char) : List Char :=
  Text.decodeOctets (escapedOctets s)

def inScheme (c : Char) : Bool :=
  c.isAlphanum || c == '+' || c == '-' || c == '.'

/-- What follows a scheme: a letter, and more of what a scheme can hold, up to a colon. -/
def dropScheme (s : List Char) : List Char :=
  match s, s.dropWhile inScheme with
  | c :: _, ':' :: rest => if c.isAlpha then rest else s
  | _, _ => s

/-- What follows an authority, which stands between two slashes and the next one. -/
def dropAuthority : List Char → List Char
  | '/' :: '/' :: rest => rest.dropWhile (· != '/')
  | s => s

/-- Blanks and controls count for nothing in front of a target. -/
def trimFront (s : List Char) : List Char :=
  s.dropWhile (·.toNat ≤ 0x20)

/-- Tabs and line ends count for nothing anywhere. -/
def isIgnored (c : Char) : Bool :=
  c == '\t' || c == '\n' || c == '\r'

def targetPath (target : List Char) : List Char :=
  dropAuthority (dropScheme ((trimFront target).filter fun c => !isIgnored c))

/-- The path of a target as it is sent; the sender takes the target apart, and so does the
receiver with what is left. -/
def sentPath (target : List Char) : List Char :=
  trimFront (targetPath (targetPath (target.takeWhile fun c => c != '?' && c != '#')))

def pathOf (target : String) : String :=
  String.ofList ('/' :: (unescaped (sentPath target.toList)).dropWhile (· == '/'))

end ThermalLabel.Http
