import Wavr.Text

/-!
# What an adapter gets from the broker

A message is a topic and the bytes under it. The subscriber adds two topics of its own, for
the connection itself; everything else comes from whoever may publish.
-/

namespace Wavr.Text

/-- `str.upper()` of one character, exact on every character whose upper case contains an ASCII
character. Further letters stay as they are: the sources compare the result with ASCII words. -/
def upperChar (c : Char) : List Char :=
  match c with
  | 'ß' => ['S', 'S']
  | 'ı' => ['I']
  | 'ŉ' => ['ʼ', 'N']
  | 'ſ' => ['S']
  | 'ǰ' => ['J', '\u030c']
  | 'ẖ' => ['H', '\u0331']
  | 'ẗ' => ['T', '\u0308']
  | 'ẘ' => ['W', '\u030a']
  | 'ẙ' => ['Y', '\u030a']
  | 'ẚ' => ['A', 'ʾ']
  | 'ﬀ' => ['F', 'F']
  | 'ﬁ' => ['F', 'I']
  | 'ﬂ' => ['F', 'L']
  | 'ﬃ' => ['F', 'F', 'I']
  | 'ﬄ' => ['F', 'F', 'L']
  | 'ﬅ' => ['S', 'T']
  | 'ﬆ' => ['S', 'T']
  | c => [c.toUpper]

def upper (s : String) : String := String.ofList (s.toList.flatMap upperChar)

/-- `s.split(c)`. -/
def pieces (c : Char) (s : String) : List String := (s.toList.splitOn c).map String.ofList

end Wavr.Text

namespace Wavr.Mqtt

def CONNECTED : String := "$wavr/connected"

def DISCONNECTED : String := "$wavr/disconnected"

def MAX_PAYLOAD_BYTES : ℕ := 4096

/-- `payload.decode("utf-8").strip()`, where the decoding succeeds. -/
def text (payload : ByteArray) : Option String := (String.fromUTF8? payload).map Text.strip

end Wavr.Mqtt
