import AetherEngine.Consensus.Wal
import AetherEngine.Foundations.Bincode

/-!
# The record format on disk

The layouts of the log data as the serializer writes them: an enumeration is a
four-byte variant number followed by the variant's fields.  `bincodeCodec` is
the codec the log runs with; a payload is decoded from its front and bytes
behind the record are ignored.
-/

namespace AetherEngine.Consensus

open AetherEngine.Frames
open AetherEngine.Bincode

/-! ## Log data -/

def leaderIdLayout : Layout LeaderId :=
  through (both uint64 uint64)
    (fun fields => ⟨fields.1, fields.2⟩)
    (fun leaderId => (leaderId.term, leaderId.nodeId))
    (fun _ => rfl)

def logIdLayout : Layout LogId :=
  through (both leaderIdLayout uint64)
    (fun fields => ⟨fields.1, fields.2⟩)
    (fun logId => (logId.leaderId, logId.index))
    (fun _ => rfl)

def membershipLayout : Layout Membership :=
  through
    (both (listOf (listOf uint64)) (listOf (both uint64 text)))
    (fun fields => ⟨fields.1, fields.2⟩)
    (fun membership => (membership.configs, membership.nodes))
    (fun _ => rfl)

def voteLayout : Layout Vote :=
  through (both leaderIdLayout boolean)
    (fun fields => ⟨fields.1, fields.2⟩)
    (fun vote => (vote.leaderId, vote.committed))
    (fun _ => rfl)

/-- Put the variant number of an enumeration in front of its fields. -/
def variant (number : Nat) (fields : Bytes) : Bytes :=
  leBytes 4 number ++ fields

theorem variant_length (number : Nat) (fields : Bytes) :
    (variant number fields).length = 4 + fields.length := by
  simp [variant]

theorem readNat_variant (number : Nat) (known : number < 256 ^ 4)
    (fields rest : Bytes) :
    readNat 4 (variant number fields ++ rest) =
      some (number, fields ++ rest) := by
  rw [variant, List.append_assoc, readNat_leBytes known]

def entryPayloadLayout : Layout EntryPayload where
  write
    | .blank => variant 0 []
    | .normal payload => variant 1 ((listOf byte).write payload)
    | .membership membership => variant 2 (membershipLayout.write membership)
  read bytes := do
    let (number, rest) ← readNat 4 bytes
    match number with
    | 0 => return (.blank, rest)
    | 1 => (listOf byte).read rest |>.map fun found =>
        (.normal found.1, found.2)
    | 2 => membershipLayout.read rest |>.map fun found =>
        (.membership found.1, found.2)
    | _ => none
  write_pos payload := by
    cases payload <;> simp only [variant_length] <;> omega
  read_write payload rest short := by
    cases payload with
    | blank =>
        simp [readNat_variant]
    | normal payload =>
        simp only [variant_length] at short
        simp [readNat_variant, (listOf byte).read_write payload rest
          (by omega)]
    | membership membership =>
        simp only [variant_length] at short
        simp [readNat_variant, membershipLayout.read_write membership rest
          (by omega)]

def entryLayout : Layout Entry :=
  through (both logIdLayout entryPayloadLayout)
    (fun fields => ⟨fields.1, fields.2⟩)
    (fun entry => (entry.logId, entry.payload))
    (fun _ => rfl)

/-! ## Records -/

def walRecordLayout : Layout WalRecord where
  write
    | .entry entry => variant 0 (entryLayout.write entry)
    | .truncateFrom index => variant 1 (uint64.write index)
    | .purge logId => variant 2 (logIdLayout.write logId)
    | .committed pointer => variant 3 ((optionally logIdLayout).write pointer)
    | .checkpoint lastPurged committed =>
        variant 4 ((both (optionally logIdLayout)
          (optionally logIdLayout)).write (lastPurged, committed))
  read bytes := do
    let (number, rest) ← readNat 4 bytes
    match number with
    | 0 => entryLayout.read rest |>.map fun found =>
        (.entry found.1, found.2)
    | 1 => uint64.read rest |>.map fun found =>
        (.truncateFrom found.1, found.2)
    | 2 => logIdLayout.read rest |>.map fun found =>
        (.purge found.1, found.2)
    | 3 => (optionally logIdLayout).read rest |>.map fun found =>
        (.committed found.1, found.2)
    | 4 => (both (optionally logIdLayout) (optionally logIdLayout)).read rest
        |>.map fun found => (.checkpoint found.1.1 found.1.2, found.2)
    | _ => none
  write_pos record := by
    cases record <;> simp only [variant_length] <;> omega
  read_write record rest short := by
    cases record with
    | entry entry =>
        simp only [variant_length] at short
        simp [readNat_variant, entryLayout.read_write entry rest (by omega)]
    | truncateFrom index =>
        simp only [variant_length] at short
        simp [readNat_variant, uint64.read_write index rest (by omega)]
    | purge logId =>
        simp only [variant_length] at short
        simp [readNat_variant, logIdLayout.read_write logId rest (by omega)]
    | committed pointer =>
        simp only [variant_length] at short
        simp [readNat_variant,
          (optionally logIdLayout).read_write pointer rest (by omega)]
    | checkpoint lastPurged committed =>
        simp only [variant_length] at short
        simp [readNat_variant,
          (both (optionally logIdLayout) (optionally logIdLayout)).read_write
            (lastPurged, committed) rest (by omega)]

/-! ## Sizes -/

theorem logIdLayout_length (logId : LogId) :
    (logIdLayout.write logId).length = 24 := by
  simp [logIdLayout, leaderIdLayout, through, both, uint64]

theorem pointer_length_le (pointer : Option LogId) :
    ((optionally logIdLayout).write pointer).length ≤ 25 := by
  cases pointer with
  | none => simp [optionally]
  | some logId => simp [optionally, logIdLayout_length]

theorem walRecordLayout_purge_length (logId : LogId) :
    (walRecordLayout.write (.purge logId)).length = 28 := by
  simp only [walRecordLayout, variant_length, logIdLayout_length]

theorem walRecordLayout_normal_length (logId : LogId) (payload : Bytes) :
    (walRecordLayout.write (.entry ⟨logId, .normal payload⟩)).length =
      40 + payload.length := by
  have bytesLength :
      (payload.flatMap byte.write).length = payload.length := by
    induction payload with
    | nil => rfl
    | cons item rest inductionHypothesis =>
        rw [List.flatMap_cons, List.length_append, inductionHypothesis]
        simp [byte]
        omega
  simp only [walRecordLayout, variant_length, entryLayout, through, both,
    entryPayloadLayout, listOf, List.length_append, leBytes_length,
    logIdLayout_length, bytesLength]
  omega

/-- Everything but an entry is at most 54 bytes long. -/
theorem walRecordLayout_marker_length {record : WalRecord}
    (marker : record.isMarker = true) :
    (walRecordLayout.write record).length ≤ 54 := by
  cases record with
  | entry entry =>
      cases marker
  | truncateFrom index =>
      simp [walRecordLayout, variant_length, uint64]
  | purge logId =>
      rw [walRecordLayout_purge_length]
      omega
  | committed pointer =>
      have bound := pointer_length_le pointer
      simp only [walRecordLayout, variant_length]
      omega
  | checkpoint lastPurged committed =>
      have purgedBound := pointer_length_le lastPurged
      have committedBound := pointer_length_le committed
      simp only [walRecordLayout, variant_length, both, List.length_append]
      omega

/-- The codec of the log on disk. -/
def bincodeCodec : WalCodec where
  encode := walRecordLayout.write
  decode payload := (walRecordLayout.read payload).map Prod.fst
  checksum := crc32
  decode_encode record short := by
    have back := walRecordLayout.read_write record [] (short.trans (by decide))
    rw [List.append_nil] at back
    rw [back]
    rfl
  marker_length record marker := by
    have bound := walRecordLayout_marker_length marker
    omega

/-- The part of a record in front of an application payload announces a
payload that is not there, and does not decode. -/
theorem bincodeCodec_decode_take
    (logId : LogId) {payload : Bytes} (nonempty : 0 < payload.length)
    (short : payload.length < 256 ^ 8) :
    bincodeCodec.decode
      ((bincodeCodec.encode (.entry ⟨logId, .normal payload⟩)).take 40) =
        none := by
  have front :
      (bincodeCodec.encode (.entry ⟨logId, .normal payload⟩)).take 40 =
        variant 0 (logIdLayout.write logId ++
          variant 1 (leBytes 8 payload.length)) := by
    have shape :
        bincodeCodec.encode (.entry ⟨logId, .normal payload⟩) =
          variant 0 (logIdLayout.write logId ++
            variant 1 (leBytes 8 payload.length)) ++
              payload.flatMap byte.write := by
      simp [bincodeCodec, walRecordLayout, entryLayout, through, both,
        entryPayloadLayout, listOf, variant]
    have size :
        (variant 0 (logIdLayout.write logId ++
          variant 1 (leBytes 8 payload.length))).length = 40 := by
      simp [variant_length, logIdLayout_length]
    rw [shape, List.take_append_of_le_length (by omega),
      List.take_of_length_le (by omega)]
  have logIdRead :=
    logIdLayout.read_write logId (variant 1 (leBytes 8 payload.length))
      (by rw [logIdLayout_length]; omega)
  have countRead := readNat_leBytes short []
  rw [List.append_nil] at countRead
  have variantRead :=
    readNat_variant 1 (by omega) (leBytes 8 payload.length) []
  have recordRead :=
    readNat_variant 0 (by omega)
      (logIdLayout.write logId ++ variant 1 (leBytes 8 payload.length)) []
  simp only [List.append_nil] at variantRead recordRead
  have missing : readItems byte payload.length [] = none :=
    readItems_of_end rfl nonempty
  rw [front]
  simp [bincodeCodec, walRecordLayout, recordRead, entryLayout, through,
    both, logIdRead, entryPayloadLayout, variantRead, listOf, countRead,
    missing]

end AetherEngine.Consensus
