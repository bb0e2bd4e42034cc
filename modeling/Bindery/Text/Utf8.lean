import Bindery.Text.Hex

/-!
# UTF-8

Writing text as UTF-8, and reading it one byte at a time. Between bytes the reader keeps the bytes
of a character that is not complete yet, so that a text may come in pieces. The first byte that
cannot continue what is kept is a fault; the fault tells its place, how many bytes are bad, and
why.
-/

namespace Bindery.Utf8

/-- The bytes of a string. -/
def encode (s : String) : List UInt8 := s.toList.flatMap String.utf8EncodeChar

/-- Why bytes are no text. -/
inductive Reason
  | startByte
  | continuation
  | endOfData
  deriving DecidableEq, Repr

/-- The text of a reason. -/
def Reason.text : Reason → String
  | .startByte => "invalid start byte"
  | .continuation => "invalid continuation byte"
  | .endOfData => "unexpected end of data"

/-- Bytes that are no text. -/
structure Fault where
  /-- The first bad byte. -/
  first : UInt8
  /-- Its place, counted from zero. -/
  position : Nat
  /-- The number of bad bytes, at least one. -/
  size : Nat
  /-- Why they are bad. -/
  reason : Reason
  deriving DecidableEq, Repr

/-- The text of a fault. -/
def Fault.message (f : Fault) : String :=
  let place :=
    if f.size = 1 then
      "byte 0x" ++ String.ofList (Text.hex 2 f.first.toNat) ++
        " in position " ++ toString f.position
    else
      "bytes in position " ++ toString f.position ++ "-" ++ toString (f.position + f.size - 1)
  "'utf-8' codec can't decode " ++ place ++ ": " ++ f.reason.text

/-- The number of bytes of a character, by its first byte. -/
def width? (lead : UInt8) : Option Nat :=
  if lead < 0x80 then some 1
  else if lead < 0xc2 then none
  else if lead < 0xe0 then some 2
  else if lead < 0xf0 then some 3
  else if lead < 0xf5 then some 4
  else none

/-- Whether a byte can come second after a first byte. Three first bytes admit only part of the
range, which keeps out numbers past the last character, and characters that have a shorter form.
-/
def continuesLead (lead b : UInt8) : Bool :=
  if lead = 0xe0 then 0xa0 ≤ b && b < 0xc0
  else if lead = 0xf0 then 0x90 ≤ b && b < 0xc0
  else if lead = 0xf4 then 0x80 ≤ b && b < 0x90
  else 0x80 ≤ b && b < 0xc0

/-- Whether bytes are the first two of a surrogate. They are kept like those of a character, and
then are a fault whatever follows. -/
def isHalf : (kept : List UInt8) → Bool
  | [lead, b] => lead == 0xed && 0xa0 ≤ b
  | _ => false

/-- Whether a byte can follow the bytes of a character that is not complete. -/
def continues : (kept : List UInt8) → (b : UInt8) → Bool
  | [lead], b => continuesLead lead b
  | kept, b => !isHalf kept && 0x80 ≤ b && b < 0xc0

/-- The fault of kept bytes at a position, where the reason is the one of bytes that begin a
character. Of the two bytes of a surrogate only the first one is bad. -/
def faultOf (position : Nat) (reason : Reason) (lead : UInt8) (more : List UInt8) : Fault :=
  if isHalf (lead :: more) then ⟨lead, position, 1, .continuation⟩
  else ⟨lead, position, more.length + 1, reason⟩

/-- The character of its bytes. -/
def char : List UInt8 → Char
  | [a] => Char.ofNat a.toNat
  | [a, b] => Char.ofNat ((a.toNat - 0xc0) * 0x40 + (b.toNat - 0x80))
  | [a, b, c] =>
    Char.ofNat (((a.toNat - 0xe0) * 0x40 + (b.toNat - 0x80)) * 0x40 + (c.toNat - 0x80))
  | [a, b, c, d] =>
    Char.ofNat ((((a.toNat - 0xf0) * 0x40 + (b.toNat - 0x80)) * 0x40 + (c.toNat - 0x80)) * 0x40 +
      (d.toNat - 0x80))
  | _ => '\ufffd'

/-- One more character in front of those read. -/
def consChar (c : Char) :
    Except Fault (List Char × List UInt8) → Except Fault (List Char × List UInt8)
  | .ok (cs, kept) => .ok (c :: cs, kept)
  | .error f => .error f

/-- The characters of some bytes after kept ones, and the bytes to be kept at the end. The
position is that of the first kept byte, or of the next byte if none is kept. -/
def feed (kept : List UInt8) (position : Nat) : List UInt8 → Except Fault (List Char × List UInt8)
  | [] => .ok ([], kept)
  | b :: bs =>
    match kept with
    | [] =>
      match width? b with
      | none => .error ⟨b, position, 1, .startByte⟩
      | some 1 => consChar (char [b]) (feed [] (position + 1) bs)
      | some _ => feed [b] position bs
    | lead :: more =>
      let bytes := lead :: more ++ [b]
      if continues (lead :: more) b then
        if width? lead = some bytes.length then
          consChar (char bytes) (feed [] (position + bytes.length) bs)
        else feed bytes position bs
      else .error (faultOf position .continuation lead more)

/-- The fault of kept bytes that nothing follows. -/
def unfinished? (position : Nat) : (kept : List UInt8) → Option Fault
  | [] => none
  | lead :: more => some (faultOf position .endOfData lead more)

/-- The text of all bytes together. -/
def decode (bytes : List UInt8) : Except Fault (List Char) :=
  match feed [] 0 bytes with
  | .error f => .error f
  | .ok (cs, kept) =>
    match unfinished? (bytes.length - kept.length) kept with
    | some f => .error f
    | none => .ok cs

end Bindery.Utf8
