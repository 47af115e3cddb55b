import IDoris.Library.Text

/-!
# Headers of a request

Names are in lower case. A name can occur several times, and a value is any bytes.
-/
namespace Http

abbrev HeaderMap := List (String × List UInt8)

def HeaderMap.getAll (headers : HeaderMap) (name : String) : List (List UInt8) :=
  (headers.filter fun header => header.1 = name).map Prod.snd

def HeaderMap.get (headers : HeaderMap) (name : String) : Option (List UInt8) :=
  (headers.getAll name).head?

def HeaderMap.containsKey (headers : HeaderMap) (name : String) : Bool :=
  headers.any fun header => header.1 = name

/-- Visible ASCII characters, blanks and tabs. -/
def isVisibleAscii (byte : UInt8) : Bool :=
  decide (32 ≤ byte.toNat ∧ byte.toNat < 127 ∨ byte.toNat = 9)

def toStr (value : List UInt8) : Option String :=
  if value.all isVisibleAscii then some (String.ofList (value.map fun byte => Char.ofNat byte.toNat))
  else none

def isAsciiWhitespace (c : Char) : Bool :=
  c = ' ' || c = '\t' || c = '\n' || c = '\x0c' || c = '\r'

/-- The parts between white space, none of them empty. -/
def splitAsciiWhitespace (value : String) : List String :=
  ((value.toList.splitOnP isAsciiWhitespace).filter fun part => !part.isEmpty).map String.ofList

end Http
