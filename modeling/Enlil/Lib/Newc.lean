import Mathlib

/-! The newc form of a cpio archive: records of a header in hexadecimal digits, a name and data. -/

namespace Enlil.Newc

/-- The value of a hexadecimal digit, of either case. -/
def digit (byte : UInt8) : Option Nat :=
  if 48 ≤ byte.toNat ∧ byte.toNat ≤ 57 then some (byte.toNat - 48)
  else if 97 ≤ byte.toNat ∧ byte.toNat ≤ 102 then some (byte.toNat - 87)
  else if 65 ≤ byte.toNat ∧ byte.toNat ≤ 70 then some (byte.toNat - 55)
  else none

/-- The number that digits stand for, the highest first. -/
def number (digits : List UInt8) : Option Nat :=
  digits.foldlM (fun value byte => (digit byte).map (16 * value + ·)) 0

theorem digit_lt {byte : UInt8} {value : Nat} (read : digit byte = some value) : value < 16 := by
  unfold digit at read
  split_ifs at read <;> simp only [Option.some.injEq] at read <;> omega

/-- The bytes from a place on. -/
def slice (bytes : List UInt8) (start count : Nat) : List UInt8 := (bytes.drop start).take count

theorem slice_append (before middle after : List UInt8) :
    slice (before ++ middle ++ after) before.length middle.length = middle := by
  simp [slice]

theorem slice_slice {bytes : List UInt8} {start count from_ within : Nat} (fits : from_ + within ≤ count) :
    slice (slice bytes start count) from_ within = slice bytes (start + from_) within := by
  simp only [slice, List.drop_take, List.take_take, List.drop_drop]
  congr 1
  omega

def headerLength : Nat := 110

/-- The digits every record starts with. -/
def magic : List UInt8 := [48, 55, 48, 55, 48, 49]

/-- The name of the record that ends an archive. -/
def trailerName : List UInt8 := [84, 82, 65, 73, 76, 69, 82, 33, 33, 33]

/-- The bytes that bring a length up to a multiple of four. -/
def padded (length : Nat) : Nat := (length + 3) / 4 * 4

/-- A record with a header that says what is in it. -/
structure Record where
  header : List UInt8
  name : List UInt8
  namePad : List UInt8
  mode : Nat
  data : List UInt8
  dataPad : List UInt8
  headerFull : header.length = headerLength
  headerMagic : slice header 0 6 = magic
  headerMode : number (slice header 14 8) = some mode
  headerFileSize : number (slice header 54 8) = some data.length
  headerNameSize : number (slice header 94 8) = some (name.length + 1)
  nameText : 0 ∉ name
  namePadded : headerLength + (name.length + 1) + namePad.length = padded (headerLength + (name.length + 1))
  dataPadded : data.length + dataPad.length = padded data.length

namespace Record

/-- Where the data of a record starts. -/
def dataStart (record : Record) : Nat := padded (headerLength + (record.name.length + 1))

def bytes (record : Record) : List UInt8 :=
  record.header ++ (record.name ++ [0] ++ record.namePad) ++ (record.data ++ record.dataPad)

theorem bytes_length (record : Record) : record.bytes.length = record.dataStart + padded record.data.length := by
  have name := record.namePadded
  have data := record.dataPadded
  have header := record.headerFull
  simp only [bytes, dataStart, List.length_append, List.length_singleton]
  omega

end Record

/-- Records, the one that ends them, and whatever follows. -/
structure Archive where
  records : List Record
  trailer : Record
  rest : List UInt8
  trailerNamed : trailer.name = trailerName
  named : ∀ record ∈ records, record.name ≠ trailerName

def Archive.bytes (archive : Archive) : List UInt8 :=
  archive.records.flatMap Record.bytes ++ archive.trailer.bytes ++ archive.rest

end Enlil.Newc
