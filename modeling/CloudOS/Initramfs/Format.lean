import CloudOS.Lib.Word
import CloudOS.Lib.Slice

/-!
The archive format of `src/initramfs.rs`: paths, hexadecimal fields and
`parse_entry`.

A slice is a list of bytes. Every index below is in range in the source, as the
ranges are taken from a header of 110 bytes or from `get`, so the slices are total.
-/

namespace CloudOS.Initramfs

open Lib.Word (maxWord maxU32 checkedAdd asBytes)
open Lib.Slice (slice)
open Lib.Check (require orFail)

abbrev cpioNewcMagic : List UInt8 := asBytes "070701"
abbrev cpioHeaderSize : Nat := 110
abbrev cpioTrailer : List UInt8 := asBytes "TRAILER!!!"
abbrev initPath : List UInt8 := asBytes "bin/init"
abbrev maxArchiveSize : Nat := 32 * 1024 * 1024
abbrev maxEntries : Nat := 32
abbrev maxPathLen : Nat := 96
abbrev modeTypeMask : Nat := 0o170000
abbrev modeRegular : Nat := 0o100000
abbrev modeDirectory : Nat := 0o040000

inductive ArchiveError where
  | missingModule
  | invalidModule
  | archiveTooLarge
  | truncatedHeader
  | invalidMagic
  | invalidHexField
  | invalidNameSize
  | nameTooLong
  | nameMissingTerminator
  | invalidPath
  | entryOutsideArchive
  | checksumUnsupported
  | missingTrailer
  | invalidTrailer
  | trailingGarbage
  | tooManyEntries
  | missingInit
  | initNotRegular
deriving DecidableEq, Repr

/-! ### Paths -/

def slash : UInt8 := '/'.toUInt8

def isAsciiAlphanumeric (byte : UInt8) : Bool :=
  ('0'.toUInt8 ≤ byte && byte ≤ '9'.toUInt8) || ('a'.toUInt8 ≤ byte && byte ≤ 'z'.toUInt8) ||
    ('A'.toUInt8 ≤ byte && byte ≤ 'Z'.toUInt8)

/-- The bytes of a component. -/
def isPathByte (byte : UInt8) : Bool :=
  isAsciiAlphanumeric byte || byte == '.'.toUInt8 || byte == '_'.toUInt8 || byte == '-'.toUInt8

/-- The check at the end of a component. -/
def validComponent (component : List UInt8) : Bool :=
  !(component.isEmpty || component == asBytes "." || component == asBytes "..")

/-- One round of the loop of `valid_path`; the loop carries where the component starts. -/
def validPathStep (path : List UInt8) (componentStart index : Nat) : Option Nat :=
  match path[index]? with
  | none =>
    if validComponent (slice path componentStart index) then some (index + 1) else none
  | some byte =>
    if byte == slash then
      if validComponent (slice path componentStart index) then some (index + 1) else none
    else if isPathByte byte then some componentStart else none

def validPath (path : List UInt8) : Bool :=
  if path.isEmpty || path.head? == some slash || path.getLast? == some slash then false
  else ((List.range' 0 (path.length + 1)).foldlM (validPathStep path) 0).isSome

/-- Without one leading slash. -/
def stripSlash (path : List UInt8) : List UInt8 :=
  if path.head? == some slash then path.drop 1 else path

def normalizeRequestedPath (path : List UInt8) : Option (List UInt8) :=
  if validPath (stripSlash path) then some (stripSlash path) else none

/-! ### Fields -/

def hexDigit (byte : UInt8) : Option Nat :=
  if '0'.toUInt8 ≤ byte && byte ≤ '9'.toUInt8 then some (byte - '0'.toUInt8).toNat
  else if 'a'.toUInt8 ≤ byte && byte ≤ 'f'.toUInt8 then some (byte - 'a'.toUInt8 + 10).toNat
  else if 'A'.toUInt8 ≤ byte && byte ≤ 'F'.toUInt8 then some (byte - 'A'.toUInt8 + 10).toNat
  else none

/-- One round of the loop of `parse_hex_u32`. -/
def parseHexDigit (value : Nat) (byte : UInt8) : Except ArchiveError Nat :=
  match hexDigit byte with
  | none => .error .invalidHexField
  | some digit =>
    if value * 16 ≤ maxU32 then orFail (checkedAdd maxU32 (value * 16) digit) .invalidHexField
    else .error .invalidHexField

def parseHexU32 (bytes : List UInt8) : Except ArchiveError Nat :=
  if bytes.length ≠ 8 then .error .invalidHexField else bytes.foldlM parseHexDigit 0

def alignUp (value alignment : Nat) : Option Nat :=
  (checkedAdd maxWord value (alignment - 1)).map (· &&& (maxWord ^^^ (alignment - 1)))

/-! ### Entries -/

structure ParsedEntry where
  name : List UInt8
  data : List UInt8
  mode : Nat
  nextOffset : Nat
  trailer : Bool
deriving DecidableEq, Repr

/-- The loop that reads all thirteen fields of a header. -/
def checkFields (header : List UInt8) : Except ArchiveError Unit :=
  (List.range' 6 13 8).forM fun fieldOffset => do
    let _ ← parseHexU32 (slice header fieldOffset (fieldOffset + 8))

def parseEntry (bytes : List UInt8) (offset : Nat) : Except ArchiveError ParsedEntry := do
  let headerEnd ← orFail (checkedAdd maxWord offset cpioHeaderSize) .entryOutsideArchive
  let header ← orFail (Lib.Slice.get bytes offset headerEnd) .truncatedHeader
  require (slice header 0 6 == cpioNewcMagic) ArchiveError.invalidMagic
  checkFields header
  let mode ← parseHexU32 (slice header 14 22)
  let fileSize ← parseHexU32 (slice header 54 62)
  let nameSize ← parseHexU32 (slice header 94 102)
  let checksum ← parseHexU32 (slice header 102 110)
  require (checksum == 0) ArchiveError.checksumUnsupported
  require (nameSize != 0) ArchiveError.invalidNameSize
  require (nameSize ≤ maxPathLen + 1) ArchiveError.nameTooLong
  let nameEnd ← orFail (checkedAdd maxWord headerEnd nameSize) .entryOutsideArchive
  let nameWithNul ← orFail (Lib.Slice.get bytes headerEnd nameEnd) .entryOutsideArchive
  require (nameWithNul.getLast? == some 0) ArchiveError.nameMissingTerminator
  let name := slice nameWithNul 0 (nameSize - 1)
  let dataStart ← orFail (alignUp nameEnd 4) .entryOutsideArchive
  let dataEnd ← orFail (checkedAdd maxWord dataStart fileSize) .entryOutsideArchive
  let data ← orFail (Lib.Slice.get bytes dataStart dataEnd) .entryOutsideArchive
  let nextOffset ← orFail (alignUp dataEnd 4) .entryOutsideArchive
  require (nextOffset ≤ bytes.length) ArchiveError.entryOutsideArchive
  let trailer := name == cpioTrailer
  require (!(trailer && !data.isEmpty)) ArchiveError.invalidTrailer
  require (!(!trailer && !validPath name)) ArchiveError.invalidPath
  return { name, data, mode, nextOffset, trailer }

end CloudOS.Initramfs
