import AetherEngine.Foundations.Frames

/-!
# Fixed-width binary layouts

A `Layout` writes a value as bytes and reads it back from the front of a byte
string.  Integers have a fixed width and are little endian, an option starts
with a one-byte tag, a sequence or a text with its eight-byte length.  Every
layout reads back what it wrote, as long as the written value stays below
`2 ^ 64` bytes, which keeps every length inside its field.

`crc32` is the reflected 32-bit cyclic redundancy check, computed bit by bit.
-/

namespace AetherEngine.Bincode

open AetherEngine.Frames

/-- A serializer and a reader that undoes it in front of any other bytes. -/
structure Layout (value : Type) where
  write : value → Bytes
  read : Bytes → Option (value × Bytes)
  write_pos : ∀ item, 0 < (write item).length
  read_write : ∀ item rest,
    (write item).length < 2 ^ 64 →
      read (write item ++ rest) = some (item, rest)

/-! ## Numbers -/

/-- Read a little-endian number of `width` bytes. -/
def readNat (width : Nat) (bytes : Bytes) : Option (Nat × Bytes) :=
  if bytes.length < width then
    none
  else
    some (ofLeBytes (bytes.take width), bytes.drop width)

theorem readNat_leBytes {width value : Nat} (fits : value < 256 ^ width)
    (rest : Bytes) :
    readNat width (leBytes width value ++ rest) = some (value, rest) := by
  have enough : ¬ (leBytes width value ++ rest).length < width := by
    simp
  have taken : (leBytes width value ++ rest).take width =
      leBytes width value := by
    rw [List.take_append_of_le_length (by simp),
      List.take_of_length_le (by simp)]
  have dropped : (leBytes width value ++ rest).drop width = rest := by
    rw [List.drop_append_of_le_length (by simp),
      List.drop_of_length_le (by simp), List.nil_append]
  rw [readNat, if_neg enough, taken, dropped,
    ofLeBytes_leBytes_of_lt fits]

def uint64 : Layout UInt64 where
  write number := leBytes 8 number.toNat
  read bytes := (readNat 8 bytes).map fun found =>
    (UInt64.ofNat found.1, found.2)
  write_pos number := by simp
  read_write number rest _ := by
    rw [readNat_leBytes number.toNat_lt]
    simp

def uint32 : Layout UInt32 where
  write number := leBytes 4 number.toNat
  read bytes := (readNat 4 bytes).map fun found =>
    (UInt32.ofNat found.1, found.2)
  write_pos number := by simp
  read_write number rest _ := by
    rw [readNat_leBytes number.toNat_lt]
    simp

def boolean : Layout Bool where
  write flag := [if flag then 1 else 0]
  read
    | 0 :: rest => some (false, rest)
    | 1 :: rest => some (true, rest)
    | _ => none
  write_pos flag := by simp
  read_write flag rest _ := by cases flag <;> rfl

def byte : Layout UInt8 where
  write item := [item]
  read
    | item :: rest => some (item, rest)
    | [] => none
  write_pos item := by simp
  read_write item rest _ := rfl

/-! ## Products, options and sequences -/

section Combinators

variable {first second : Type}

/-- The fields of a record, one after the other. -/
def both (left : Layout first) (right : Layout second) :
    Layout (first × second) where
  write pair := left.write pair.1 ++ right.write pair.2
  read bytes := do
    let (one, rest) ← left.read bytes
    let (two, rest) ← right.read rest
    return ((one, two), rest)
  write_pos pair := by
    have positive := left.write_pos pair.1
    rw [List.length_append]
    omega
  read_write pair rest short := by
    rw [List.length_append] at short
    rw [List.append_assoc, left.read_write pair.1 _ (by omega)]
    simp only [Option.bind_eq_bind, Option.bind_some]
    rw [right.read_write pair.2 rest (by omega)]
    rfl

/-- Read and write through another representation. -/
def through (layout : Layout first) (build : first → second)
    (fields : second → first)
    (build_fields : ∀ item, build (fields item) = item) :
    Layout second where
  write item := layout.write (fields item)
  read bytes := (layout.read bytes).map fun found =>
    (build found.1, found.2)
  write_pos item := layout.write_pos (fields item)
  read_write item rest short := by
    rw [layout.read_write (fields item) rest short]
    simp [build_fields]

def optionally (layout : Layout first) : Layout (Option first) where
  write
    | none => [0]
    | some item => 1 :: layout.write item
  read
    | 0 :: rest => some (none, rest)
    | 1 :: rest => (layout.read rest).map fun found =>
        (some found.1, found.2)
    | _ => none
  write_pos item := by cases item <;> simp
  read_write item rest short := by
    cases item with
    | none =>
        rfl
    | some item =>
        simp only [List.length_cons] at short
        simp only [List.cons_append]
        rw [layout.read_write item rest (by omega)]
        rfl

/-- Read a given number of items. -/
def readItems (layout : Layout first) :
    Nat → Bytes → Option (List first × Bytes)
  | 0, bytes => some ([], bytes)
  | count + 1, bytes => do
      let (item, rest) ← layout.read bytes
      let (items, rest) ← readItems layout count rest
      return (item :: items, rest)

private theorem length_le_flatMap_write (layout : Layout first)
    (items : List first) :
    items.length ≤ (items.flatMap layout.write).length := by
  induction items with
  | nil =>
      simp
  | cons item rest inductionHypothesis =>
      have positive := layout.write_pos item
      rw [List.flatMap_cons, List.length_append, List.length_cons]
      omega

private theorem readItems_write (layout : Layout first) (items : List first)
    (rest : Bytes) (short : (items.flatMap layout.write).length < 2 ^ 64) :
    readItems layout items.length (items.flatMap layout.write ++ rest) =
      some (items, rest) := by
  induction items with
  | nil =>
      rfl
  | cons item later inductionHypothesis =>
      rw [List.flatMap_cons, List.length_append] at short
      rw [List.length_cons, readItems, List.flatMap_cons,
        List.append_assoc, layout.read_write item _ (by omega)]
      simp only [Option.bind_eq_bind, Option.bind_some]
      rw [inductionHypothesis (by omega)]
      rfl

theorem readItems_of_end {layout : Layout first}
    (atEnd : layout.read [] = none) {count : Nat} (more : 0 < count) :
    readItems layout count [] = none := by
  cases count with
  | zero => omega
  | succ count => simp [readItems, atEnd]

/-- An eight-byte count in front of the items. -/
def listOf (layout : Layout first) : Layout (List first) where
  write items := leBytes 8 items.length ++ items.flatMap layout.write
  read bytes := do
    let (count, rest) ← readNat 8 bytes
    readItems layout count rest
  write_pos items := by simp
  read_write items rest short := by
    rw [List.length_append, leBytes_length] at short
    have counted := length_le_flatMap_write layout items
    have fits : items.length < 256 ^ 8 := by omega
    rw [List.append_assoc, readNat_leBytes fits]
    simp only [Option.bind_eq_bind, Option.bind_some]
    exact readItems_write layout items rest (by omega)

end Combinators

/-- Text is the sequence of its UTF-8 bytes. -/
def text : Layout String where
  write content := (listOf byte).write content.toUTF8.data.toList
  read bytes := do
    let (encoded, rest) ← (listOf byte).read bytes
    let content ← String.fromUTF8? ⟨encoded.toArray⟩
    return (content, rest)
  write_pos content := (listOf byte).write_pos _
  read_write content rest short := by
    rw [(listOf byte).read_write _ rest short]
    simp only [Option.bind_eq_bind, Option.bind_some]
    have valid : String.fromUTF8? content.toUTF8 = some content := by
      have checked : content.toByteArray.IsValidUTF8 :=
        content.isValidUTF8
      simp [String.fromUTF8?, checked, String.fromUTF8]
    have rebuilt :
        (⟨content.toUTF8.data.toList.toArray⟩ : ByteArray) =
          content.toUTF8 := by
      simp
    rw [rebuilt, valid]
    rfl

/-! ## Checksum -/

/-- One bit of the reflected division. -/
def crcBit (remainder : UInt32) : UInt32 :=
  if remainder &&& 1 = 1 then
    (remainder >>> 1) ^^^ 0xEDB88320
  else
    remainder >>> 1

def crcByte (remainder : UInt32) (next : UInt8) : UInt32 :=
  Nat.repeat crcBit 8 (remainder ^^^ next.toUInt32)

def crc32 (bytes : Bytes) : UInt32 :=
  bytes.foldl crcByte 0xFFFFFFFF ^^^ 0xFFFFFFFF

-- The check value of the algorithm: the digits one to nine.
example :
    crc32 [0x31, 0x32, 0x33, 0x34, 0x35, 0x36, 0x37, 0x38, 0x39] =
      0xCBF43926 := by
  decide +kernel

end AetherEngine.Bincode
