import ThermalLabel.Value.Text

/-!
# Writing JSON

What `json.dumps` writes of an entry in `JsonFormatter.format`.  A comma or colon is followed by one
space.  Only quotes, backslashes and control characters are escaped, so what is written never holds
a line break.  Decimals are written as texts, members of enumerations as their numbers.  What is to
be read again holds only integers that are writable.
-/
namespace ThermalLabel.Json

def escapePoint (c : CodePoint) : Text :=
  if c = '"' then ['\\', '"']
  else if c = '\\' then ['\\', '\\']
  else if c = '\n' then ['\\', 'n']
  else if c = '\r' then ['\\', 'r']
  else if c = '\t' then ['\\', 't']
  else if c.toNat = 8 then ['\\', 'b']
  else if c.toNat = 12 then ['\\', 'f']
  else if c.toNat < 32 then Text.ofChars ('\\' :: 'u' :: Text.hexDigits 4 c.toNat)
  else [c]

def writeText (s : Text) : Text :=
  .char '"' :: s.flatMap escapePoint ++ [.char '"']

def writeDouble : Number.Double → Text
  | .infinite negative => if negative then "-Infinity" else "Infinity"
  | .nan => "NaN"
  | x => Text.ofChars x.text

mutual

def write : Value → Text
  | .null => "null"
  | .flag b => if b then "true" else "false"
  | .integer n => Text.ofChars (Number.integerText n)
  | .double x => writeDouble x
  | .decimal d => writeText (Text.ofChars d.text)
  | .text s => writeText s
  | .member m => Text.ofNat m.number
  | .list items => "[" ++ writeItems items ++ "]"
  | .object fields => "\x7b" ++ writeFields fields ++ "\x7d"

def writeItems : List Value → Text
  | [] => []
  | [v] => write v
  | v :: rest => write v ++ ", " ++ writeItems rest

def writeFields : List (Text × Value) → Text
  | [] => []
  | [(key, v)] => writeText key ++ ": " ++ write v
  | (key, v) :: rest => writeText key ++ ": " ++ write v ++ ", " ++ writeFields rest

end

mutual

/-- No integer in the value has too many digits. -/
def writable : Value → Bool
  | .integer n => Number.writable n
  | .list items => writableItems items
  | .object fields => writableFields fields
  | _ => true

def writableItems : List Value → Bool
  | [] => true
  | v :: rest => writable v && writableItems rest

def writableFields : List (Text × Value) → Bool
  | [] => true
  | (_, v) :: rest => writable v && writableFields rest

end

end ThermalLabel.Json
