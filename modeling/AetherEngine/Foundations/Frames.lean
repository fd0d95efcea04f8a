import Mathlib.Data.List.Basic
import Mathlib.Data.Nat.ModEq
import Mathlib.Tactic.Ring

/-!
# Length-and-checksum framed record streams

A record is written as `[u32 length][u32 checksum][payload]`, both numbers
little endian.  The scan reads frames from the front until the stream ends or
a frame cannot be read, and reports the records, the offset behind the last
good frame and whether the stream ended on a frame boundary.

The length field has four bytes.  A payload of `2 ^ 32` bytes or more is
written with its length reduced, so the rules about whole frames ask for a
`Framable` record.
-/

namespace AetherEngine.Frames

universe u

abbrev Bytes := List UInt8

/-! ## Little-endian numbers -/

/-- The `width` low bytes of a number, least significant byte first. -/
def leBytes : (width value : Nat) → Bytes
  | 0, _ => []
  | width + 1, value =>
      UInt8.ofNat (value % 256) :: leBytes width (value / 256)

/-- The number written by some bytes, least significant byte first. -/
def ofLeBytes : Bytes → Nat
  | [] => 0
  | byte :: rest => byte.toNat + 256 * ofLeBytes rest

@[simp]
theorem leBytes_length (width value : Nat) :
    (leBytes width value).length = width := by
  induction width generalizing value with
  | zero =>
      rfl
  | succ width inductionHypothesis =>
      simp [leBytes, inductionHypothesis]

/-- Reading back a number gives it modulo the range of the field. -/
theorem ofLeBytes_leBytes (width value : Nat) :
    ofLeBytes (leBytes width value) = value % 256 ^ width := by
  induction width generalizing value with
  | zero =>
      simp [leBytes, ofLeBytes, Nat.mod_one]
  | succ width inductionHypothesis =>
      have lowByte : (UInt8.ofNat (value % 256)).toNat = value % 256 := by
        simp
      rw [leBytes, ofLeBytes, inductionHypothesis, lowByte, pow_succ,
        Nat.mul_comm (256 ^ width) 256, Nat.mod_mul]

theorem ofLeBytes_leBytes_of_lt
    {width value : Nat} (fits : value < 256 ^ width) :
    ofLeBytes (leBytes width value) = value := by
  rw [ofLeBytes_leBytes, Nat.mod_eq_of_lt fits]

/-! ## Frames -/

/-- A record serializer together with a payload checksum.  The round trip is
only asked for payloads whose length fits the four-byte length field. -/
structure FrameCodec (record : Type u) where
  encode : record → Bytes
  decode : Bytes → Option record
  checksum : Bytes → UInt32
  decode_encode : ∀ value,
    (encode value).length < 2 ^ 32 → decode (encode value) = some value

variable {record : Type u}

/-- The payload's length fits the length field of its frame. -/
def Framable (codec : FrameCodec record) (value : record) : Prop :=
  (codec.encode value).length < 2 ^ 32

def frameHeader : Nat := 8

/-- `[u32 length][u32 checksum][payload]` with a given checksum field. -/
def sealedFrame (crc : UInt32) (payload : Bytes) : Bytes :=
  leBytes 4 payload.length ++ (leBytes 4 crc.toNat ++ payload)

/-- The frame of a payload carries the payload's own checksum. -/
def frame (codec : FrameCodec record) (payload : Bytes) : Bytes :=
  sealedFrame (codec.checksum payload) payload

/-- The bytes of a sequence of records. -/
def frames (codec : FrameCodec record) (records : List record) : Bytes :=
  records.flatMap fun value => frame codec (codec.encode value)

/-- What the front of a stream holds. -/
inductive Reading (record : Type u) where
  | finished
  | damaged
  | record (value : record) (size : Nat)

/-- Read one frame.  Too few bytes for a header, too few for the payload, a
checksum mismatch and an undecodable payload all count as damage. -/
def readFrame (codec : FrameCodec record) (bytes : Bytes) :
    Reading record :=
  if bytes.length < frameHeader then
    if bytes.isEmpty then .finished else .damaged
  else
    let len := ofLeBytes (bytes.take 4)
    let crc := ofLeBytes ((bytes.drop 4).take 4)
    if bytes.length < frameHeader + len then
      .damaged
    else
      let payload := (bytes.drop frameHeader).take len
      if (codec.checksum payload).toNat ≠ crc then
        .damaged
      else
        match codec.decode payload with
        | none => .damaged
        | some value => .record value (frameHeader + len)

structure Scan (record : Type u) where
  records : List record
  goodOffset : Nat
  clean : Bool

/-- The scan loop.  Every iteration consumes at least a header, so a budget
above the number of bytes is never used up. -/
def scanFrom (codec : FrameCodec record) :
    (budget offset : Nat) → Bytes → Scan record
  | 0, offset, _ => ⟨[], offset, true⟩
  | budget + 1, offset, bytes =>
      match readFrame codec bytes with
      | .finished => ⟨[], offset, true⟩
      | .damaged => ⟨[], offset, false⟩
      | .record value size =>
          let later :=
            scanFrom codec budget (offset + size) (bytes.drop size)
          ⟨value :: later.records, later.goodOffset, later.clean⟩

def scan (codec : FrameCodec record) (bytes : Bytes) : Scan record :=
  scanFrom codec (bytes.length + 1) 0 bytes

/-! ## Reading whole frames -/

@[simp]
theorem sealedFrame_length (crc : UInt32) (payload : Bytes) :
    (sealedFrame crc payload).length = frameHeader + payload.length := by
  simp only [sealedFrame, List.length_append, leBytes_length, frameHeader]
  omega

@[simp]
theorem frame_length (codec : FrameCodec record) (payload : Bytes) :
    (frame codec payload).length = frameHeader + payload.length :=
  sealedFrame_length (codec.checksum payload) payload

@[simp]
theorem frames_nil (codec : FrameCodec record) :
    frames codec [] = [] :=
  rfl

@[simp]
theorem frames_cons (codec : FrameCodec record)
    (value : record) (rest : List record) :
    frames codec (value :: rest) =
      frame codec (codec.encode value) ++ frames codec rest :=
  rfl

@[simp]
theorem frames_append (codec : FrameCodec record)
    (first second : List record) :
    frames codec (first ++ second) =
      frames codec first ++ frames codec second := by
  simp [frames]

private theorem take_length_field (crc : UInt32) (payload rest : Bytes) :
    (sealedFrame crc payload ++ rest).take 4 =
      leBytes 4 payload.length := by
  rw [sealedFrame, List.append_assoc,
    List.take_append_of_le_length (by simp),
    List.take_of_length_le (by simp)]

private theorem take_checksum_field (crc : UInt32) (payload rest : Bytes) :
    ((sealedFrame crc payload ++ rest).drop 4).take 4 =
      leBytes 4 crc.toNat := by
  have skipped :
      (sealedFrame crc payload ++ rest).drop 4 =
        leBytes 4 crc.toNat ++ (payload ++ rest) := by
    rw [sealedFrame, List.append_assoc,
      List.drop_append_of_le_length (by simp),
      List.drop_of_length_le (by simp), List.nil_append, List.append_assoc]
  rw [skipped, List.take_append_of_le_length (by simp),
    List.take_of_length_le (by simp)]

private theorem drop_header (crc : UInt32) (payload rest : Bytes) :
    (sealedFrame crc payload ++ rest).drop frameHeader =
      payload ++ rest := by
  have regrouped :
      sealedFrame crc payload ++ rest =
        (leBytes 4 payload.length ++ leBytes 4 crc.toNat) ++
          (payload ++ rest) := by
    simp [sealedFrame, List.append_assoc]
  rw [regrouped, List.drop_append_of_le_length (by simp [frameHeader]),
    List.drop_of_length_le (by simp [frameHeader]), List.nil_append]

/-- Reading a frame checks its checksum field, then decodes its payload.  The
payload is what the length field, reduced to four bytes, announces. -/
theorem readFrame_sealedFrame
    (codec : FrameCodec record) (crc : UInt32) (payload rest : Bytes) :
    readFrame codec (sealedFrame crc payload ++ rest) =
      if (codec.checksum
          (payload.take (payload.length % 2 ^ 32))) ≠ crc then
        .damaged
      else
        match codec.decode (payload.take (payload.length % 2 ^ 32)) with
        | none => .damaged
        | some value =>
            .record value (frameHeader + payload.length % 2 ^ 32) := by
  have enough :
      ¬ (sealedFrame crc payload ++ rest).length < frameHeader := by
    simp only [List.length_append, sealedFrame_length]
    omega
  have len :
      ofLeBytes ((sealedFrame crc payload ++ rest).take 4) =
        payload.length % 2 ^ 32 := by
    rw [take_length_field, ofLeBytes_leBytes]
    norm_num
  have checksum :
      ofLeBytes (((sealedFrame crc payload ++ rest).drop 4).take 4) =
        crc.toNat := by
    rw [take_checksum_field]
    exact ofLeBytes_leBytes_of_lt crc.toNat_lt
  have reduced : payload.length % 2 ^ 32 ≤ payload.length :=
    Nat.mod_le _ _
  have whole :
      ¬ (sealedFrame crc payload ++ rest).length <
        frameHeader + payload.length % 2 ^ 32 := by
    simp only [List.length_append, sealedFrame_length]
    omega
  have piece :
      ((sealedFrame crc payload ++ rest).drop frameHeader).take
          (payload.length % 2 ^ 32) =
        payload.take (payload.length % 2 ^ 32) := by
    rw [drop_header, List.take_append_of_le_length reduced]
  have compared :
      ((codec.checksum (payload.take
          (payload.length % 2 ^ 32))).toNat ≠ crc.toNat) ↔
        (codec.checksum (payload.take
          (payload.length % 2 ^ 32)) ≠ crc) :=
    not_congr UInt32.toNat_inj
  simp only [readFrame, if_neg enough, len, checksum, if_neg whole, piece,
    compared]

/-- A whole frame is read back, whatever follows it. -/
theorem readFrame_frame
    (codec : FrameCodec record) {value : record}
    (framable : Framable codec value) (rest : Bytes) :
    readFrame codec (frame codec (codec.encode value) ++ rest) =
      .record value (frame codec (codec.encode value)).length := by
  have unreduced :
      (codec.encode value).length % 2 ^ 32 = (codec.encode value).length :=
    Nat.mod_eq_of_lt framable
  rw [frame_length, frame, readFrame_sealedFrame, unreduced,
    List.take_length]
  simp only [ne_eq, not_true_eq_false, if_false,
    codec.decode_encode value framable]

/-- A wrong checksum field is damage. -/
theorem readFrame_of_checksum_ne
    (codec : FrameCodec record) {crc : UInt32} {payload : Bytes}
    (short : payload.length < 2 ^ 32)
    (different : codec.checksum payload ≠ crc) (rest : Bytes) :
    readFrame codec (sealedFrame crc payload ++ rest) = .damaged := by
  rw [readFrame_sealedFrame, Nat.mod_eq_of_lt short, List.take_length,
    if_pos different]

/-- The length of an oversized payload is written reduced.  What is read back
is a piece of the payload, which is damage when it does not decode. -/
theorem readFrame_oversized
    (codec : FrameCodec record) {payload : Bytes}
    (undecodable :
      codec.decode (payload.take (payload.length % 2 ^ 32)) = none) :
    readFrame codec (frame codec payload) = .damaged := by
  have read :=
    readFrame_sealedFrame codec (codec.checksum payload) payload []
  rw [List.append_nil, undecodable] at read
  rw [frame, read]
  split <;> rfl

private theorem readFrame_nil (codec : FrameCodec record) :
    readFrame codec [] = .finished := by
  simp [readFrame, frameHeader]

/-- A frame that was cut short is damaged: either its header is incomplete,
or the length it announces is not there. -/
theorem readFrame_torn
    (codec : FrameCodec record) {value : record}
    (framable : Framable codec value) {cut : Nat}
    (started : 0 < cut)
    (unfinished : cut < (frame codec (codec.encode value)).length) :
    readFrame codec ((frame codec (codec.encode value)).take cut) =
      .damaged := by
  have cutLength :
      ((frame codec (codec.encode value)).take cut).length = cut := by
    rw [List.length_take]
    omega
  by_cases tornHeader : cut < frameHeader
  · have notEmpty :
        ((frame codec (codec.encode value)).take cut).isEmpty = false := by
      rw [List.isEmpty_eq_false_iff, ← List.length_pos_iff, cutLength]
      exact started
    simp [readFrame, cutLength, tornHeader, notEmpty]
  · have len :
        ofLeBytes (((frame codec (codec.encode value)).take cut).take 4) =
          (codec.encode value).length := by
      have field :=
        take_length_field (codec.checksum (codec.encode value))
          (codec.encode value) []
      rw [List.append_nil] at field
      rw [frame, List.take_take, Nat.min_eq_left, field]
      · exact ofLeBytes_leBytes_of_lt framable
      · simp only [frameHeader] at tornHeader
        omega
    have tornPayload :
        cut < frameHeader + (codec.encode value).length := by
      rwa [frame_length] at unfinished
    simp only [readFrame, cutLength, if_neg tornHeader, len,
      if_pos tornPayload]

/-! ## Scanning -/

private theorem size_of_readFrame
    {codec : FrameCodec record} {bytes : Bytes}
    {value : record} {size : Nat}
    (read : readFrame codec bytes = .record value size) :
    frameHeader ≤ size ∧ size ≤ bytes.length := by
  unfold readFrame at read
  split at read
  · split at read <;> cases read
  · simp only at read
    split at read
    · cases read
    · split at read
      · cases read
      · split at read
        · cases read
        · cases read
          constructor
          · omega
          · omega

/-- The budget does not matter once it exceeds the number of bytes. -/
theorem scanFrom_budget
    (codec : FrameCodec record) {budget other : Nat}
    (offset : Nat) {bytes : Bytes}
    (enough : bytes.length < budget) (alsoEnough : bytes.length < other) :
    scanFrom codec budget offset bytes =
      scanFrom codec other offset bytes := by
  induction budget generalizing other offset bytes with
  | zero =>
      omega
  | succ budget inductionHypothesis =>
      cases other with
      | zero =>
          omega
      | succ other =>
          simp only [scanFrom]
          cases read : readFrame codec bytes with
          | finished => rfl
          | damaged => rfl
          | record value size =>
              have sizes := size_of_readFrame read
              have shorter : (bytes.drop size).length < bytes.length := by
                rw [List.length_drop]
                simp only [frameHeader] at sizes
                omega
              simp only
              rw [@inductionHypothesis other (offset + size) _
                (by omega) (by omega)]

/-- Scanning at an offset only shifts the reported offset. -/
theorem scanFrom_offset
    (codec : FrameCodec record) (budget offset : Nat) (bytes : Bytes) :
    scanFrom codec budget offset bytes =
      { scanFrom codec budget 0 bytes with
        goodOffset := offset +
          (scanFrom codec budget 0 bytes).goodOffset } := by
  induction budget generalizing offset bytes with
  | zero =>
      simp [scanFrom]
  | succ budget inductionHypothesis =>
      simp only [scanFrom]
      cases readFrame codec bytes with
      | finished => simp
      | damaged => simp
      | record value size =>
          simp only
          rw [inductionHypothesis (offset + size),
            inductionHypothesis (0 + size)]
          simp [Nat.add_assoc]

private theorem scanFrom_eq_scan
    (codec : FrameCodec record) {budget : Nat} {bytes : Bytes}
    (enough : bytes.length < budget) :
    scanFrom codec budget 0 bytes = scan codec bytes :=
  scanFrom_budget codec 0 enough (Nat.lt_succ_self bytes.length)

private theorem scan_nil (codec : FrameCodec record) :
    scan codec [] = ⟨[], 0, true⟩ := by
  simp [scan, scanFrom, readFrame_nil]

theorem scan_of_damaged
    {codec : FrameCodec record} {bytes : Bytes}
    (damaged : readFrame codec bytes = .damaged) :
    scan codec bytes = ⟨[], 0, false⟩ := by
  simp [scan, scanFrom, damaged]

private theorem scan_frame_append
    (codec : FrameCodec record) {value : record}
    (framable : Framable codec value) (rest : Bytes) :
    scan codec (frame codec (codec.encode value) ++ rest) =
      ⟨value :: (scan codec rest).records,
        (frame codec (codec.encode value)).length +
          (scan codec rest).goodOffset,
        (scan codec rest).clean⟩ := by
  have dropped :
      (frame codec (codec.encode value) ++ rest).drop
          (frame codec (codec.encode value)).length = rest :=
    List.drop_left
  have longer :
      rest.length < (frame codec (codec.encode value) ++ rest).length := by
    simp only [List.length_append, frame_length, frameHeader]
    omega
  rw [scan, scanFrom]
  simp only [readFrame_frame codec framable, dropped]
  rw [scanFrom_offset, scanFrom_eq_scan codec longer, Nat.zero_add]

/-- Whole frames in front of any tail are all read, then the tail is. -/
theorem scan_frames_append
    (codec : FrameCodec record) {records : List record}
    (framable : ∀ value ∈ records, Framable codec value) (tail : Bytes) :
    scan codec (frames codec records ++ tail) =
      ⟨records ++ (scan codec tail).records,
        (frames codec records).length + (scan codec tail).goodOffset,
        (scan codec tail).clean⟩ := by
  induction records with
  | nil =>
      simp
  | cons value rest inductionHypothesis =>
      have restFramable : ∀ other ∈ rest, Framable codec other :=
        fun other member =>
          framable other (List.mem_cons_of_mem value member)
      rw [frames_cons, List.append_assoc,
        scan_frame_append codec (framable value List.mem_cons_self),
        inductionHypothesis restFramable]
      simp [Nat.add_assoc]

theorem scan_frames
    (codec : FrameCodec record) {records : List record}
    (framable : ∀ value ∈ records, Framable codec value) :
    scan codec (frames codec records) =
      ⟨records, (frames codec records).length, true⟩ := by
  have whole := scan_frames_append codec framable []
  simpa [scan_nil] using whole

/-- Whole frames in front of an unreadable tail: exactly these records are
recovered, and the good offset is where the tail begins. -/
theorem scan_frames_damaged
    (codec : FrameCodec record) {records : List record}
    (framable : ∀ value ∈ records, Framable codec value) {tail : Bytes}
    (damaged : readFrame codec tail = .damaged) :
    scan codec (frames codec records ++ tail) =
      ⟨records, (frames codec records).length, false⟩ := by
  rw [scan_frames_append codec framable, scan_of_damaged damaged]
  simp

/-! ## Cutting a stream -/

/-- Cutting a framed stream anywhere leaves whole frames of an initial segment
of the records, followed by nothing or by a torn frame.  The segment is the
longest one: the next frame does not fit in front of the cut. -/
theorem take_frames
    (codec : FrameCodec record) :
    ∀ {records : List record} (cut : Nat),
      (∀ value ∈ records, Framable codec value) →
      cut ≤ (frames codec records).length →
      ∃ kept lost tail,
        records = kept ++ lost ∧
        (frames codec records).take cut = frames codec kept ++ tail ∧
        (tail = [] ∨ readFrame codec tail = .damaged) ∧
        ∀ next more, lost = next :: more →
          cut < (frames codec (kept ++ [next])).length
  | [], cut, _, _ => by
      refine ⟨[], [], [], rfl, ?_, Or.inl rfl, ?_⟩
      · simp
      · intro next more impossible
        cases impossible
  | value :: rest, cut, framable, bound => by
      by_cases whole :
          (frame codec (codec.encode value)).length ≤ cut
      · have restFramable : ∀ other ∈ rest, Framable codec other :=
          fun other member =>
            framable other (List.mem_cons_of_mem value member)
        have restBound :
            cut - (frame codec (codec.encode value)).length ≤
              (frames codec rest).length := by
          rw [frames_cons, List.length_append] at bound
          omega
        obtain ⟨kept, lost, tail, split, cutBytes, ending, longest⟩ :=
          take_frames codec
            (cut - (frame codec (codec.encode value)).length)
            restFramable restBound
        refine ⟨value :: kept, lost, tail, ?_, ?_, ending, ?_⟩
        · rw [split, List.cons_append]
        · rw [frames_cons, List.take_append, cutBytes,
            List.take_of_length_le whole, frames_cons, List.append_assoc]
        · intro next more following
          have shorter := longest next more following
          rw [List.cons_append, frames_cons, List.length_append]
          omega
      · refine ⟨[], value :: rest,
          (frame codec (codec.encode value)).take cut, rfl, ?_, ?_, ?_⟩
        · rw [frames_cons, List.take_append_of_le_length (by omega),
            frames_nil, List.nil_append]
        · by_cases nothing : cut = 0
          · left
            simp [nothing]
          · right
            exact readFrame_torn codec
              (framable value List.mem_cons_self)
              (Nat.pos_of_ne_zero nothing) (by omega)
        · intro next more following
          injection following with first
          subst first
          simp only [List.nil_append, frames_cons, frames_nil,
            List.append_nil]
          omega

/-- A cut that spares the frames of an initial segment keeps all of its
records. -/
theorem take_frames_append
    (codec : FrameCodec record) {safe records : List record} {cut : Nat}
    (framable : ∀ value ∈ records, Framable codec value)
    (spared : (frames codec safe).length ≤ cut)
    (bound : cut ≤ (frames codec (safe ++ records)).length) :
    ∃ kept lost tail,
      records = kept ++ lost ∧
      (frames codec (safe ++ records)).take cut =
        frames codec (safe ++ kept) ++ tail ∧
      (tail = [] ∨ readFrame codec tail = .damaged) ∧
      ∀ next more, lost = next :: more →
        cut < (frames codec (safe ++ kept ++ [next])).length := by
  have restBound :
      cut - (frames codec safe).length ≤ (frames codec records).length := by
    rw [frames_append, List.length_append] at bound
    omega
  obtain ⟨kept, lost, tail, split, cutBytes, ending, longest⟩ :=
    take_frames codec (cut - (frames codec safe).length) framable restBound
  refine ⟨kept, lost, tail, split, ?_, ending, ?_⟩
  · rw [frames_append, List.take_append, cutBytes,
      List.take_of_length_le spared, frames_append, List.append_assoc]
  · intro next more following
    have shorter := longest next more following
    rw [List.append_assoc, frames_append, List.length_append]
    omega

end AetherEngine.Frames
