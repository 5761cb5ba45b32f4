import MapScript.Request

/-!
# Print buffers

Text collected for one message, cut at a number of UTF-8 bytes.
-/

namespace MapScript

structure PrintBuffer where
  text : String
  /-- The most bytes the text may take. -/
  limit : Nat
deriving DecidableEq, Repr

namespace PrintBuffer

def new (limit : Nat) : PrintBuffer := ⟨"", limit⟩

def clear (b : PrintBuffer) : PrintBuffer := { b with text := "" }

/-- Whether a character still fits. -/
def fits (b : PrintBuffer) (c : Char) : Bool := b.text.utf8ByteSize + c.utf8Size ≤ b.limit

def push (b : PrintBuffer) (c : Char) : PrintBuffer := { b with text := b.text.push c }

/-- Adds characters up to the first that does not fit, which is reported. -/
def appendChars (b : PrintBuffer) : List Char → PrintBuffer × Journal
  | [] => (b, #[])
  | c :: cs => if b.fits c then (b.push c).appendChars cs else (b, #[.printBufferFull b.limit])

/-- Adds as much of a text as fits. -/
def append (b : PrintBuffer) (text : String) : PrintBuffer × Journal :=
  b.appendChars text.toList

end PrintBuffer

end MapScript
