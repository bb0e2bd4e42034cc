/-!
# Images of shared libraries

What the header of a file has to say for the file to be an image of a shared library for a 64-bit
machine. The header is read front to back, and the first thing that is wrong with it is the fault
of the file. Loading ends with the header here, and so a file whose header is right is taken for an
image with nothing to load.
-/

namespace Bindery.Library

/-- Why a file is no image of a shared library. -/
inductive ImageFault
  | tooShort
  | signature
  | wordSize
  | byteOrder
  | identification
  | system
  | systemVersion
  | padding
  | version
  | machine
  | kind
  | entrySize
  | cutShort
  | nothingToLoad
  deriving DecidableEq, Repr

/-- The text of a fault. An image for another machine counts as no file at all. -/
def ImageFault.message : ImageFault → String
  | .tooShort => "file too short"
  | .signature => "invalid ELF header"
  | .wordSize => "wrong ELF class: ELFCLASS32"
  | .byteOrder => "ELF file data encoding not little-endian"
  | .identification => "ELF file version ident does not match current one"
  | .system => "ELF file OS ABI invalid"
  | .systemVersion => "ELF file ABI version invalid"
  | .padding => "nonzero padding in e_ident"
  | .version => "ELF file version does not match current one"
  | .machine => "cannot open shared object file: No such file or directory"
  | .kind => "only ET_DYN and ET_EXEC can be loaded"
  | .entrySize => "ELF file's phentsize not the expected size"
  | .cutShort => "cannot read file data"
  | .nothingToLoad => "object file has no loadable segments"

namespace Image

/-- The size of a header in bytes. -/
def headerSize : Nat := 64

/-- The size in bytes of an entry of the table that a header leads to. -/
def entrySize : Nat := 56

/-- The bytes with which every image begins. -/
def signature : List UInt8 := [0x7f, 0x45, 0x4c, 0x46]

/-- The number of the machine that images have to be for. -/
def hostMachine : Nat := 62

/-- A number from its bytes, least significant first. -/
def fromLittleEndian (bytes : List UInt8) : Nat := bytes.foldr (fun b n => b.toNat + 256 * n) 0

/-- The number in the `width` bytes from a place on. -/
def number (bytes : List UInt8) (place width : Nat) : Nat :=
  fromLittleEndian ((bytes.drop place).take width)

/-- The machine that an image is for. -/
def machine (bytes : List UInt8) : Nat := number bytes 18 2

/-- What is wrong in the part of a header that says how to read the rest: the byte order, the
version of this part, the system with the version of its interface, and bytes to be left zero. Only
system 3 has versions other than zero, up to 3. -/
def identificationFault? (bytes : List UInt8) : Option ImageFault :=
  let system := number bytes 7 1
  let systemVersion := number bytes 8 1
  if number bytes 5 1 ≠ 1 then some .byteOrder
  else if number bytes 6 1 ≠ 1 then some .identification
  else if system ≠ 0 ∧ system ≠ 3 then some .system
  else if systemVersion ≠ 0 ∧ (system ≠ 3 ∨ 3 < systemVersion) then some .systemVersion
  else if number bytes 9 7 ≠ 0 then some .padding
  else none

/-- What is wrong in the rest of a header: the version, the machine, the kind of image, and the
table of what is to be loaded, which has to lie within the file. -/
def layoutFault (bytes : List UInt8) : ImageFault :=
  let kind := number bytes 16 2
  let entries := number bytes 56 2
  if number bytes 20 4 ≠ 1 then .version
  else if machine bytes ≠ hostMachine then .machine
  else if kind ≠ 2 ∧ kind ≠ 3 then .kind
  else if number bytes 54 2 ≠ entrySize then .entrySize
  else if entries ≠ 0 ∧ bytes.length < number bytes 32 8 + entrySize * entries then .cutShort
  else .nothingToLoad

/-- What is wrong with a file. An image for another machine is passed over before its
identification is looked at in detail. -/
def fault (bytes : List UInt8) : ImageFault :=
  if bytes.length < headerSize then .tooShort
  else if bytes.take signature.length ≠ signature then .signature
  else if number bytes 4 1 ≠ 2 then .wordSize
  else
    match identificationFault? bytes with
    | some f => if machine bytes ≠ hostMachine then .machine else f
    | none => layoutFault bytes

end Image

end Bindery.Library
