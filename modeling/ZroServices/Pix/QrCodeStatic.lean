import Mathlib.Data.Int.Bitwise
import Mathlib.Data.Nat.Digits.Defs

/-!
# PIX — static QR codes

The `txId` of a static QR code in the fast format says by itself how it is to be paid: its first
letter holds three flags, and a due date and a value follow, in digits of base 32, then some random
letters and a checksum.

A text is the list of its UTF-16 code units, and the character of an index past its end is `NaN`.
-/

namespace ZroServices.Pix

abbrev TxId := List ℕ

/-- `dhexDigits.charAt(d)`. -/
def dhexDigit (d : ℕ) : ℕ := if d < 10 then 48 + d else 87 + d

def intToDhex (value : ℕ) : List ℕ := ((Nat.digits 32 value).map dhexDigit).reverse

def dhexToInt (dhex : List ℕ) : ℤ :=
  dhex.foldl (fun value (z : ℕ) => (value <<< 5).lor (z - if z < 97 then 48 else 87)) 0

namespace TxId

variable (txId : TxId)

/-- `txId.substring(start, start + size)`. -/
def field (start size : ℕ) : List ℕ := (txId.drop start).take size

/-- The first letter is between `S` and `Z`. -/
def isFastFormat : Bool := txId.head?.any fun c => 90 - 8 < c && c ≤ 90

/-- Of a `txId` in the fast format. -/
def prefixFlags : ℕ := 90 - txId.headD 0

def hasValue : Bool := 0 < txId.prefixFlags &&& 1

def hasDueDate : Bool := 0 < txId.prefixFlags &&& 2

def isPayableManyTimes : Bool := 0 < txId.prefixFlags &&& 4

def getValue : ℤ := dhexToInt (txId.field 10 8)

/-- `parse` reads a date in the format `YYYYMMDDHHmmss`, at UTC−3; `none` is an invalid date. -/
def getDueDate (parse : String → Option ℤ) : Option ℤ :=
  parse (toString (dhexToInt (txId.field 1 9)))

/-- The checksum is the first digit of the letters before it, combined by exclusive or. -/
def checkTxId : Bool :=
  (intToDhex ((txId.take 24).foldl (fun acc letter => letter ^^^ acc) 0xff)).take 1
    == txId.field 24 1

end TxId

end ZroServices.Pix
