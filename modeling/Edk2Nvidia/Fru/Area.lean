import Edk2Nvidia.Parse.Packed

/-! How the strings of a chassis, board or product area are decoded. The offset of the walk over the
type/length bytes and the length of the area are kept in eight bits. -/
namespace Fru
open Flash

def u8 (n : Nat) : Nat := n % 2 ^ 8

/-- The two upper bits of a type/length byte. -/
inductive Encoding where
  | binary
  | bcdPlus
  | sixBitAscii
  | eightBitAscii
deriving DecidableEq, Repr

def encodingOf (typeLength : UInt8) : Encoding :=
  match typeLength.toNat / 64 with
  | 0 => .binary
  | 1 => .bcdPlus
  | 2 => .sixBitAscii
  | _ => .eightBitAscii

def lengthOf (typeLength : UInt8) : Nat := typeLength.toNat % 64

/-- `Size`: the characters there is room for, without the terminator. -/
def stringSize (encoding : Encoding) (len : Nat) : Nat :=
  match encoding with
  | .binary => len * 2
  | .bcdPlus => len * 2
  | .sixBitAscii => (len / 3 + 1) * 4
  | .eightBitAscii => len

def hexDigit (n : Nat) : UInt8 := if n < 10 then UInt8.ofNat (0x30 + n) else UInt8.ofNat (0x37 + n)

def hexByte (b : UInt8) : List UInt8 := [hexDigit (b.toNat / 16), hexDigit (b.toNat % 16)]

/-- The loop of `ConvertRawBytesToString` with the room that is left; `AsciiSPrint` leaves out what
does not fit in front of a terminator. -/
def printBytes : List UInt8 → Nat → List UInt8
  | [], _ => []
  | b :: rest, left =>
    let printed := (hexByte b).take (left - 1)
    if printed.length ≥ left then []
    else printed ++ printBytes rest (left - printed.length)

def maximumBytesToStringSize : Nat := 0x64

def convertRawBytesToString (rawBytes : List UInt8) : List UInt8 :=
  printBytes rawBytes maximumBytesToStringSize

def bcdPlusDigit (n : Nat) : UInt8 :=
  ("0123456789 -.:,_".toList.map fun c => UInt8.ofNat c.toNat).getD n 0

def bcdText (bytes : List UInt8) : List UInt8 :=
  (List.range (bytes.length * 2)).map fun k =>
    bcdPlusDigit ((bytes.getD (k / 2) 0).toNat / (if k % 2 = 0 then 16 else 1) % 16)

/-- A character of the packed bytes that start the number. -/
def sixBitCharacter (bits k : Nat) : UInt8 := UInt8.ofNat (bits / 64 ^ k % 64 + 0x20)

/-- The four characters that are written for a group of up to three bytes. -/
def sixBitGroup (group : List UInt8) : List UInt8 :=
  (List.range 4).map (sixBitCharacter (fromLittleEndian group))

def sixBitText : List UInt8 → List UInt8
  | [] => []
  | [a] => sixBitGroup [a]
  | [a, b] => sixBitGroup [a, b]
  | a :: b :: c :: rest => sixBitGroup [a, b, c] ++ sixBitText rest

/-- The characters of the string in front of its terminator. -/
def stringText (encoding : Encoding) (bytes : List UInt8) : List UInt8 :=
  match encoding with
  | .binary => convertRawBytesToString bytes
  | .bcdPlus => bcdText bytes
  | .sixBitAscii => sixBitText bytes
  | .eightBitAscii => bytes

/-- An area: the size its header announces, and the memory from its start on. -/
structure Area where
  eighths : Nat
  data : Nat → UInt8
  eighths_pos : 0 < eighths
  eighths_lt : eighths < 2 ^ 8

namespace Area
variable (area : Area)

def size : Nat := area.eighths * 8

/-- `FruLen`: the size as the parsers get it. -/
def fruLen : Nat := u8 area.size

def bytes (offset count : Nat) : List UInt8 :=
  (List.range count).map fun i => area.data (offset + i)

def encodingAt (offset : Nat) : Encoding := encodingOf (area.data offset)

def lengthAt (offset : Nat) : Nat := lengthOf (area.data offset)

end Area

/-- What a call of `GetFruAreaStr` does: the offset in front of it and behind it, the bytes it
reads, the size of its buffer and the string. -/
structure AreaString where
  before : Nat
  after : Nat
  reads : List (Nat × Nat)
  size : Nat
  text : Option (List UInt8)

variable (allocates : Nat → Bool) (area : Area)

/-- `GetFruAreaStr`; the pool may have no buffer of a size. -/
def getFruAreaStr (offset : Nat) : AreaString :=
  if offset ≥ area.fruLen then
    ⟨offset, offset, [], 0, none⟩
  else
    let index := u8 (offset + 1)
    let len := area.lengthAt offset
    let size := stringSize (area.encodingAt offset) len
    if size = 0 then
      ⟨offset, index, [(offset, 1)], 0, none⟩
    else if !allocates (size + 1) then
      ⟨offset, offset, [(offset, 1)], 0, none⟩
    else
      ⟨offset, u8 (index + len), [(offset, 1), (index, len)], size,
        some (stringText (area.encodingAt offset) (area.bytes index len))⟩

def fruEndOfFields : UInt8 := 0xC1
def maxExtraFruAreaEntries : Nat := 10

/-- The predefined fields: the strings, and the offset behind them. -/
def readPredefined : Nat → Nat → List AreaString × Nat
  | 0, offset => ([], offset)
  | count + 1, offset =>
    let string := getFruAreaStr allocates area offset
    let rest := readPredefined count string.after
    (string :: rest.1, rest.2)

/-- What a loop over the custom fields does: the offsets it compares with the end of the fields,
its strings, the offset behind them, and whether it ended before the count did. -/
structure CustomFields where
  checks : List Nat
  strings : List AreaString
  last : Nat
  ended : Bool

def readExtra : Nat → Nat → CustomFields
  | 0, offset => ⟨[], [], offset, false⟩
  | count + 1, offset =>
    if area.data offset = fruEndOfFields then
      ⟨[offset], [], offset, true⟩
    else
      let string := getFruAreaStr allocates area offset
      if string.after = offset then
        ⟨[offset], [string], offset, true⟩
      else
        let rest := readExtra count string.after
        ⟨offset :: rest.checks, string :: rest.strings, rest.last, rest.ended⟩

/-- Where the three parsers differ: the bytes they read of the fixed header, where it ends, and how
many fields are predefined. -/
structure Format where
  header : List (Nat × Nat)
  start : Nat
  predefined : Nat

/-- What a parser does: the bytes it reads by itself, the calls of `GetFruAreaStr` whose strings the
record keeps, those whose strings are printed only, and whether it comes to an end. -/
structure Parsed where
  reads : List (Nat × Nat)
  kept : List AreaString
  printed : List AreaString
  returns : Bool

/-- The body of the three parsers. The last loop is there with `DEBUG_CODE` only, and has no bound
of its own. -/
def parseFruArea (format : Format) (debugCode : Bool) (fuel : Nat) : Parsed :=
  let predefined := readPredefined allocates area format.predefined format.start
  let extra := readExtra allocates area maxExtraFruAreaEntries predefined.2
  if debugCode && !extra.ended then
    let rest := readExtra allocates area fuel extra.last
    { reads := format.header ++ (extra.checks ++ rest.checks).map (·, 1)
      kept := predefined.1 ++ extra.strings
      printed := rest.strings
      returns := rest.ended }
  else
    { reads := format.header ++ extra.checks.map (·, 1)
      kept := predefined.1 ++ extra.strings
      printed := []
      returns := true }

inductive AreaType where
  | chassis
  | board
  | product
deriving DecidableEq, Repr

def chassisFormat : Format := ⟨[(2, 1)], 3, 2⟩
def boardFormat : Format := ⟨[(3, 3)], 6, 4⟩
def productFormat : Format := ⟨[], 3, 6⟩

def parseFruChassisArea : Bool → Nat → Parsed := parseFruArea allocates area chassisFormat
def parseFruBoardArea : Bool → Nat → Parsed := parseFruArea allocates area boardFormat
def parseFruProductArea : Bool → Nat → Parsed := parseFruArea allocates area productFormat

def parseSpecificFruArea : AreaType → Bool → Nat → Parsed
  | .chassis => parseFruChassisArea allocates area
  | .board => parseFruBoardArea allocates area
  | .product => parseFruProductArea allocates area

end Fru
