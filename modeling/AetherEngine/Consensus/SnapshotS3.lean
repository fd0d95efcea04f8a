import AetherEngine.Consensus.SnapshotFiles
import Mathlib.Data.String.Basic

/-!
# The snapshot bucket

Every built snapshot is also uploaded to a bucket, under a key that ends in
its log index, and never deleted.  A member that finds no snapshot in its own
directory fetches the newest one: it lists the keys below its location and
takes the greatest.  One listing is one page of at most a thousand keys, the
smallest ones.
-/

namespace AetherEngine.Consensus

open AetherEngine.Bincode
open AetherEngine.Files
open AetherEngine.Frames
open AetherEngine.Ranking

universe u

/-! ## The bucket -/

/-- The objects of a bucket by key. -/
abbrev Bucket := Std.ExtTreeMap String Bytes

/-- One call of `list_objects_v2`: the first thousand keys that start with the
given text. -/
def listObjects (bucket : Bucket) (start : String) : List String :=
  (bucket.keys.filter fun key =>
    start.toList.isPrefixOf key.toList).take 1000

/-- Where in the bucket the snapshots of a group are. -/
structure SnapshotS3 where
  location : String

namespace SnapshotS3

variable {codec : SnapshotCodec} (s3 : SnapshotS3)

def key (name : String) : String :=
  s3.location ++ "/" ++ name

def upload (bucket : Bucket) (name : String) (bytes : Bytes) : Bucket :=
  bucket.insert (s3.key name) bytes

/-- The object with the greatest key of the listing. -/
def latest (bucket : Bucket) : Option Bytes := do
  let newest ← (listObjects bucket (s3.location ++ "/")).argmax id
  bucket[newest]?

/-- The upload at the end of `build_snapshot`. -/
def uploadSnapshot (bucket : Bucket) (file : SnapshotFile codec) : Bucket :=
  s3.upload bucket (snapshotPath file.snapshot.index) file.bytes

end SnapshotS3

/-- `open_durable`: the local directory first; when it holds no snapshot, the
newest object of the bucket, which is then persisted locally. -/
def openDurable {state : Type u} (app : StateMachineApp state)
    (codec : SnapshotCodec) (order : IterationOrder String) (fresh : state)
    (files : Folder) (bucket : Option (SnapshotS3 × Bucket)) :
    DurableStore state codec :=
  let store : DurableStore state codec :=
    { memory := withSnapshotDir app codec order fresh files
      files := files
      calls := [] }
  match store.memory.snapshot with
  | some _ => store
  | none =>
      match (bucket.bind fun found => found.1.latest found.2).bind
          codec.decode with
      | some snapshot =>
          DurableStore.beginPersist
            { store with
              memory := (store.memory.installData app snapshot.data).installInfo
                snapshot }
      | none => store

/-- The upload with the greatest index, and of several with that index the
last. -/
def newestUpload {codec : SnapshotCodec} (uploads : List (SnapshotFile codec)) :
    Option (SnapshotFile codec) :=
  uploads.foldl
    (fun newest file =>
      if newest.all fun found => found.snapshot.index ≤ file.snapshot.index then
        some file
      else
        newest)
    none

private theorem loadLatest_empty (codec : SnapshotCodec)
    (order : IterationOrder String) : loadLatest codec order ∅ = none := by
  have noNames : order.arrange (∅ : Folder).keys = [] :=
    List.length_eq_zero_iff.mp (by simp)
  simp [loadLatest, noNames]

/-- A member without a local snapshot restores what it fetches. -/
theorem openDurable_of_latest {state : Type u} (app : StateMachineApp state)
    {codec : SnapshotCodec} (order : IterationOrder String) (fresh : state)
    {s3 : SnapshotS3} {bucket : Bucket}
    {newest : Option (SnapshotFile codec)}
    (fetched : s3.latest bucket = newest.map SnapshotFile.bytes) :
    (openDurable app codec order fresh ∅ (some (s3, bucket))).memory.snapshot =
      newest.map SnapshotFile.snapshot := by
  have empty : (withSnapshotDir app codec order fresh ∅).snapshot = none := by
    rw [withSnapshotDir, loadLatest_empty]
  cases newest with
  | none =>
      simp [openDurable, empty, fetched]
  | some file =>
      have read := codec.decode_encode file.serialized
      simp only [openDurable, empty, fetched, Option.bind_some,
        Option.map_some, read, DurableStore.beginPersist,
        StateMachineStore.installInfo]
      split <;> rfl

/-! ## Keys -/

private theorem snapshotPath_lt {left right : UInt64} (smaller : left < right) :
    snapshotPath left < snapshotPath right := by
  have leftFits : left.toNat < 10 ^ 20 :=
    Nat.lt_trans left.toNat_lt (by decide)
  have rightFits : right.toNat < 10 ^ 20 :=
    Nat.lt_trans right.toNat_lt (by decide)
  have digits :
      Decimal.padded 20 left.toNat < Decimal.padded 20 right.toNat :=
    (Decimal.padded_lt_padded_iff (by decide) leftFits rightFits).mpr smaller
  have sameLength :
      (Decimal.padded 20 left.toNat).length =
        (Decimal.padded 20 right.toNat).length := by
    rw [Decimal.length_padded (by decide) leftFits,
      Decimal.length_padded (by decide) rightFits]
  have ordered :=
    Decimal.append_lt_append digits sameLength ".bin".toList ".bin".toList
  rw [String.lt_iff, toList_snapshotPath, toList_snapshotPath]
  exact List.append_left_lt ordered

namespace SnapshotS3

variable {codec : SnapshotCodec} (s3 : SnapshotS3)

/-- The key of the snapshot at an index. -/
def objectKey (index : UInt64) : String :=
  s3.key (snapshotPath index)

/-- Greater indices have greater keys. -/
theorem objectKey_lt {left right : UInt64} (smaller : left < right) :
    s3.objectKey left < s3.objectKey right := by
  have names := snapshotPath_lt smaller
  rw [String.lt_iff] at names
  simp only [objectKey, key, String.lt_iff, String.toList_append]
  exact List.append_left_lt names

theorem objectKey_le_iff {left right : UInt64} :
    s3.objectKey left ≤ s3.objectKey right ↔ left ≤ right := by
  constructor
  · intro ordered
    rw [← UInt64.not_lt]
    intro greater
    exact absurd (s3.objectKey_lt greater) (not_lt.mpr ordered)
  · intro ordered
    rcases UInt64.lt_or_eq_of_le ordered with smaller | same
    · exact (s3.objectKey_lt smaller).le
    · rw [same]

private theorem objectKey_inj {left right : UInt64} :
    s3.objectKey left = s3.objectKey right ↔ left = right := by
  rw [le_antisymm_iff, objectKey_le_iff, objectKey_le_iff]
  exact ⟨fun both => UInt64.le_antisymm both.1 both.2,
    fun same => same ▸ ⟨UInt64.le_refl _, UInt64.le_refl _⟩⟩

/-- The key is below the location. -/
def isUnder (key : String) : Bool :=
  (s3.location ++ "/").toList.isPrefixOf key.toList

private theorem isUnder_objectKey (index : UInt64) :
    s3.isUnder (s3.objectKey index) = true := by
  have split : (s3.objectKey index).toList =
      (s3.location ++ "/").toList ++ (snapshotPath index).toList :=
    String.toList_append
  rw [isUnder, List.isPrefixOf_iff_prefix, split]
  exact List.prefix_append _ _

/-! ## What the bucket holds -/

variable (others : Bucket) (uploads : List (SnapshotFile codec))

/-- The bucket after some uploads. -/
def bucketAfter : Bucket :=
  uploads.foldl s3.uploadSnapshot others

theorem bucketAfter_concat (file : SnapshotFile codec) :
    s3.bucketAfter others (uploads ++ [file]) =
      (s3.bucketAfter others uploads).insert
        (s3.objectKey file.snapshot.index) file.bytes := by
  simp [bucketAfter, uploadSnapshot, upload, objectKey]

variable {others uploads}

/-- Every key below the location is that of an upload, whose bytes it
holds. -/
theorem getElem?_bucketAfter
    (apart : ∀ key ∈ others, s3.isUnder key = false) {key : String}
    {bytes : Bytes} (under : s3.isUnder key = true)
    (found : (s3.bucketAfter others uploads)[key]? = some bytes) :
    ∃ file ∈ uploads, s3.objectKey file.snapshot.index = key ∧
      file.bytes = bytes := by
  induction uploads using List.reverseRecOn with
  | nil =>
      have present : key ∈ others := by
        rw [Std.ExtTreeMap.mem_iff_isSome_getElem?]
        exact Option.isSome_of_eq_some found
      rw [apart key present] at under
      cases under
  | append_singleton earlier file inductionHypothesis =>
      rw [bucketAfter_concat, Tables.getElem?_insert] at found
      by_cases same : s3.objectKey file.snapshot.index = key
      · rw [if_pos same, Option.some.injEq] at found
        exact ⟨file, List.mem_append_right _ List.mem_cons_self, same, found⟩
      · rw [if_neg same] at found
        obtain ⟨origin, member, keyed, content⟩ := inductionHypothesis found
        exact ⟨origin, List.mem_append_left _ member, keyed, content⟩

private theorem objectKey_mem_bucketAfter {file : SnapshotFile codec}
    (member : file ∈ uploads) :
    s3.objectKey file.snapshot.index ∈ s3.bucketAfter others uploads := by
  induction uploads using List.reverseRecOn with
  | nil =>
      cases member
  | append_singleton earlier latest inductionHypothesis =>
      rw [bucketAfter_concat, Std.ExtTreeMap.mem_insert]
      rcases List.mem_append.mp member with before | same
      · exact .inr (inductionHypothesis before)
      · rw [List.mem_singleton.mp same]
        exact .inl (Std.ReflCmp.compare_self)

/-- The newest upload is at least as recent as all others, and the bucket
holds its bytes. -/
theorem newestUpload_spec (some_upload : uploads ≠ []) :
    ∃ newest ∈ uploads, newestUpload uploads = some newest ∧
      (∀ file ∈ uploads, file.snapshot.index ≤ newest.snapshot.index) ∧
      (s3.bucketAfter others uploads)[s3.objectKey newest.snapshot.index]? =
        some newest.bytes := by
  induction uploads using List.reverseRecOn with
  | nil =>
      exact absurd rfl some_upload
  | append_singleton earlier latest inductionHypothesis =>
      have unfolded : newestUpload (earlier ++ [latest]) =
          if (newestUpload earlier).all fun found =>
              found.snapshot.index ≤ latest.snapshot.index then
            some latest
          else
            newestUpload earlier := by
        rw [newestUpload, List.foldl_append]
        rfl
      rw [unfolded, bucketAfter_concat]
      by_cases first : earlier = []
      · subst first
        refine ⟨latest, List.mem_cons_self, rfl, ?_, ?_⟩
        · intro file member
          rw [List.nil_append, List.mem_singleton] at member
          rw [member]
          exact UInt64.le_refl _
        · rw [Tables.getElem?_insert, if_pos rfl]
      · obtain ⟨newest, member, isNewest, bound, stored⟩ :=
          inductionHypothesis first
        rw [isNewest, Option.all_some]
        by_cases overtaken : newest.snapshot.index ≤ latest.snapshot.index
        · refine ⟨latest, List.mem_append_right _ List.mem_cons_self, ?_, ?_, ?_⟩
          · rw [if_pos (decide_eq_true overtaken)]
          · intro file fileMember
            rcases List.mem_append.mp fileMember with before | same
            · exact UInt64.le_trans (bound file before) overtaken
            · rw [List.mem_singleton.mp same]
              exact UInt64.le_refl _
          · rw [Tables.getElem?_insert, if_pos rfl]
        · have older : latest.snapshot.index < newest.snapshot.index :=
            UInt64.not_le.mp overtaken
          refine ⟨newest, List.mem_append_left _ member, ?_, ?_, ?_⟩
          · rw [if_neg (by simpa using overtaken)]
          · intro file fileMember
            rcases List.mem_append.mp fileMember with before | same
            · exact bound file before
            · rw [List.mem_singleton.mp same]
              exact UInt64.le_of_lt older
          · rw [Tables.getElem?_insert, if_neg, stored]
            rw [objectKey_inj]
            intro same
            rw [same] at older
            exact absurd older (UInt64.lt_irrefl _)

/-! ## One page of keys -/

/-- The keys below the location. -/
def keysUnder (bucket : Bucket) : List String :=
  bucket.keys.filter s3.isUnder

theorem mem_keysUnder (apart : ∀ key ∈ others, s3.isUnder key = false)
    {key : String} :
    key ∈ s3.keysUnder (s3.bucketAfter others uploads) ↔
      ∃ file ∈ uploads, s3.objectKey file.snapshot.index = key := by
  rw [keysUnder, List.mem_filter, Std.ExtTreeMap.mem_keys]
  constructor
  · intro listed
    rcases listed with ⟨present, under⟩
    rw [Std.ExtTreeMap.mem_iff_isSome_getElem?, Option.isSome_iff_exists]
      at present
    obtain ⟨bytes, found⟩ := present
    obtain ⟨file, member, keyed, -⟩ := s3.getElem?_bucketAfter apart under found
    exact ⟨file, member, keyed⟩
  · intro membership
    rcases membership with ⟨file, member, rfl⟩
    exact ⟨s3.objectKey_mem_bucketAfter member, s3.isUnder_objectKey _⟩

private theorem keysUnder_ascending (bucket : Bucket) :
    (s3.keysUnder bucket).Pairwise (· < ·) := by
  have ascending : bucket.keys.Pairwise (· < ·) :=
    Std.ExtTreeMap.ordered_keys.imp compare_lt_iff_lt.mp
  exact ascending.filter _

/-- There are as many keys as indices. -/
theorem length_keysUnder (apart : ∀ key ∈ others, s3.isUnder key = false) :
    (s3.keysUnder (s3.bucketAfter others uploads)).length =
      (uploads.map fun file => file.snapshot.index).dedup.length := by
  have keysNodup : (s3.keysUnder (s3.bucketAfter others uploads)).Nodup :=
    (s3.keysUnder_ascending _).imp fun smaller => smaller.ne
  have indicesNodup :
      ((uploads.map fun file => file.snapshot.index).dedup.map
        s3.objectKey).Nodup :=
    (List.nodup_dedup _).map fun _ _ => s3.objectKey_inj.mp
  have permuted :
      (s3.keysUnder (s3.bucketAfter others uploads)).Perm
        ((uploads.map fun file => file.snapshot.index).dedup.map
          s3.objectKey) := by
    rw [List.perm_ext_iff_of_nodup keysNodup indicesNodup]
    intro key
    rw [s3.mem_keysUnder apart]
    simp only [List.mem_map, List.mem_dedup]
    constructor
    · intro membership
      rcases membership with ⟨file, member, keyed⟩
      exact ⟨file.snapshot.index, ⟨file, member, rfl⟩, keyed⟩
    · intro membership
      rcases membership with ⟨_, ⟨file, member, rfl⟩, keyed⟩
      exact ⟨file, member, keyed⟩
  rw [permuted.length_eq, List.length_map]

/-- A page that does not hold all of an ascending list misses its greatest
item. -/
theorem not_mem_take_of_ascending {keys : List String} {limit : Nat}
    {greatest : String} (ascending : keys.Pairwise (· < ·))
    (long : limit < keys.length) (bound : ∀ key ∈ keys, key ≤ greatest) :
    greatest ∉ keys.take limit := by
  intro onPage
  rw [← List.take_append_drop limit keys, List.pairwise_append] at ascending
  have next : keys[limit] ∈ keys.drop limit := by
    rw [List.drop_eq_getElem_cons long]
    exact List.mem_cons_self
  have smaller := ascending.2.2 greatest onPage keys[limit] next
  exact absurd (bound keys[limit] (List.getElem_mem long)) (not_le.mpr smaller)

/-- The newest upload is found exactly when its key is on the page. -/
theorem latest_eq_newest_iff_mem
    (apart : ∀ key ∈ others, s3.isUnder key = false)
    {newest : SnapshotFile codec}
    (bound : ∀ file ∈ uploads, file.snapshot.index ≤ newest.snapshot.index)
    (stored :
      (s3.bucketAfter others uploads)[s3.objectKey newest.snapshot.index]? =
        some newest.bytes) :
    s3.latest (s3.bucketAfter others uploads) = some newest.bytes ↔
      s3.objectKey newest.snapshot.index ∈
        (s3.keysUnder (s3.bucketAfter others uploads)).take 1000 := by
  have onPage : ∀ key ∈ (s3.keysUnder (s3.bucketAfter others uploads)).take 1000,
      ∃ file ∈ uploads, s3.objectKey file.snapshot.index = key :=
    fun key listed =>
      (s3.mem_keysUnder apart).mp (List.mem_of_mem_take listed)
  have page : listObjects (s3.bucketAfter others uploads) (s3.location ++ "/") =
      (s3.keysUnder (s3.bucketAfter others uploads)).take 1000 :=
    rfl
  constructor
  · intro fetched
    simp only [latest, page, Option.bind_eq_bind,
      Option.bind_eq_some_iff] at fetched
    obtain ⟨chosen, isGreatest, found⟩ := fetched
    have listed := List.argmax_mem isGreatest
    obtain ⟨file, fileMember, keyed⟩ := onPage chosen listed
    have under : s3.isUnder chosen = true := by
      rw [← keyed]
      exact s3.isUnder_objectKey _
    obtain ⟨origin, -, originKeyed, content⟩ :=
      s3.getElem?_bucketAfter apart under found
    -- The bytes of a snapshot name its index, so the key is the newest one's.
    have sameSnapshot : origin.snapshot = newest.snapshot := by
      have originRead := codec.decode_encode origin.serialized
      have newestRead := codec.decode_encode newest.serialized
      rw [content, newestRead, Option.some.injEq] at originRead
      exact originRead.symm
    rw [← sameSnapshot, originKeyed]
    exact listed
  · intro listed
    cases chosen : ((s3.keysUnder (s3.bucketAfter others uploads)).take
        1000).argmax id with
    | none =>
        rw [List.argmax_eq_none] at chosen
        rw [chosen] at listed
        cases listed
    | some greatest =>
        have atLeast : s3.objectKey newest.snapshot.index ≤ greatest :=
          List.le_of_mem_argmax listed chosen
        obtain ⟨file, fileMember, rfl⟩ :=
          onPage greatest (List.argmax_mem chosen)
        have atMost := s3.objectKey_le_iff.mpr (bound file fileMember)
        simp only [latest, page, chosen, Option.bind_eq_bind, Option.bind_some]
        rw [le_antisymm atMost atLeast]
        exact stored

/-- The key of the newest upload is on the page exactly when the page lists
every index. -/
theorem newest_onPage_iff (apart : ∀ key ∈ others, s3.isUnder key = false)
    {newest : SnapshotFile codec} (member : newest ∈ uploads)
    (bound : ∀ file ∈ uploads, file.snapshot.index ≤ newest.snapshot.index) :
    s3.objectKey newest.snapshot.index ∈
        (s3.keysUnder (s3.bucketAfter others uploads)).take 1000 ↔
      (uploads.map fun file => file.snapshot.index).dedup.length ≤ 1000 := by
  rw [← s3.length_keysUnder apart]
  constructor
  · intro onPage
    by_contra long
    have keysBound : ∀ key ∈ s3.keysUnder (s3.bucketAfter others uploads),
        key ≤ s3.objectKey newest.snapshot.index := by
      intro key listed
      obtain ⟨file, fileMember, rfl⟩ := (s3.mem_keysUnder apart).mp listed
      exact s3.objectKey_le_iff.mpr (bound file fileMember)
    exact not_mem_take_of_ascending (s3.keysUnder_ascending _)
      (Nat.lt_of_not_le long) keysBound onPage
  · intro short
    rw [List.take_of_length_le short, s3.mem_keysUnder apart]
    exact ⟨newest, member, rfl⟩

private theorem latest_nil (apart : ∀ key ∈ others, s3.isUnder key = false) :
    s3.latest (s3.bucketAfter others ([] : List (SnapshotFile codec))) =
      none := by
  have noKeys : s3.keysUnder (s3.bucketAfter others
      ([] : List (SnapshotFile codec))) = [] := by
    rw [List.eq_nil_iff_forall_not_mem]
    intro key listed
    obtain ⟨file, member, -⟩ := (s3.mem_keysUnder apart).mp listed
    cases member
  have page : listObjects (s3.bucketAfter others
        ([] : List (SnapshotFile codec))) (s3.location ++ "/") =
      (s3.keysUnder (s3.bucketAfter others
        ([] : List (SnapshotFile codec)))).take 1000 :=
    rfl
  simp [latest, page, noKeys]

/-- The newest upload is fetched exactly when no more indices were uploaded
than one page lists. -/
theorem latest_newest_iff (others : Bucket)
    (uploads : List (SnapshotFile codec))
    (apart : ∀ key ∈ others, s3.isUnder key = false) :
    s3.latest (s3.bucketAfter others uploads) =
        (newestUpload uploads).map SnapshotFile.bytes ↔
      (uploads.map fun file => file.snapshot.index).dedup.length ≤ 1000 := by
  by_cases none_uploaded : uploads = []
  · subst none_uploaded
    rw [s3.latest_nil apart]
    simp [newestUpload]
  · obtain ⟨newest, member, isNewest, bound, stored⟩ :=
      @newestUpload_spec codec s3 others uploads none_uploaded
    rw [isNewest, Option.map_some,
      s3.latest_eq_newest_iff_mem apart bound stored,
      s3.newest_onPage_iff apart member bound]

/-! ### A full page -/

private theorem registerSnapshot_serialized (index : UInt64) :
    bincodeSnapshots.encode (DurableStore.registerSnapshot index) =
      some (snapshotLayout.write (DurableStore.registerSnapshot index)) := by
  have short :
      (snapshotLayout.write (DurableStore.registerSnapshot index)).length <
        2 ^ 32 := by
    simp only [snapshotLayout, DurableStore.registerSnapshot, through, both,
      optionally, List.length_append, List.length_cons, logIdLayout_length]
    decide +kernel
  simp only [bincodeSnapshots, if_pos short]

/-- The snapshot of the register at an index, ready to be uploaded. -/
def registerFile (index : UInt64) : SnapshotFile bincodeSnapshots where
  snapshot := DurableStore.registerSnapshot index
  bytes := snapshotLayout.write (DurableStore.registerSnapshot index)
  serialized := registerSnapshot_serialized index

/-- The object of another group in the bucket. -/
def sharedBucket : Bucket :=
  (∅ : Bucket).insert "shard-1/snap-00000000000000000099.bin" [1]

private theorem sharedBucket_apart :
    ∀ key ∈ sharedBucket, SnapshotS3.isUnder ⟨"shard-0"⟩ key = false := by
  intro key present
  rw [sharedBucket, Std.ExtTreeMap.mem_insert] at present
  rcases present with same | missing
  · rw [← Std.LawfulEqCmp.compare_eq_iff_eq.mp same]
    decide +kernel
  · exact absurd missing Std.ExtTreeMap.not_mem_empty

theorem latest_newest_iff_twoUploads :
    SnapshotS3.latest ⟨"shard-0"⟩
        (SnapshotS3.bucketAfter ⟨"shard-0"⟩ sharedBucket
          [registerFile 7, registerFile 30, registerFile 8]) =
      some (registerFile 30).bytes :=
  (latest_newest_iff ⟨"shard-0"⟩ sharedBucket
    [registerFile 7, registerFile 30, registerFile 8]
    sharedBucket_apart).mpr (by decide +kernel)

/-- One upload for each index up to a thousand. -/
def thousandAndOne : List (SnapshotFile bincodeSnapshots) :=
  (List.range 1001).map fun index => registerFile (UInt64.ofNat index)

private theorem thousandAndOne_indices :
    (thousandAndOne.map fun file => file.snapshot.index).dedup.length =
      1001 := by
  have indices : (thousandAndOne.map fun file => file.snapshot.index) =
      (List.range 1001).map UInt64.ofNat := by
    rw [thousandAndOne, List.map_map]
    rfl
  have distinct : ((List.range 1001).map UInt64.ofNat).Nodup := by
    rw [List.nodup_map_iff_inj_on List.nodup_range]
    intro left leftBound right rightBound same
    rw [List.mem_range] at leftBound rightBound
    have sameValue := congrArg UInt64.toNat same
    have size : UInt64.size = 2 ^ 64 := rfl
    rwa [UInt64.toNat_ofNat_of_lt' (by omega),
      UInt64.toNat_ofNat_of_lt' (by omega)] at sameValue
  rw [indices, distinct.dedup, List.length_map, List.length_range]

/-- After a thousand and one snapshots the newest one is not fetched. -/
theorem thousand_and_first_not_fetched :
    SnapshotS3.latest ⟨"shard-0"⟩
        (SnapshotS3.bucketAfter ⟨"shard-0"⟩ ∅ thousandAndOne) ≠
      (newestUpload thousandAndOne).map SnapshotFile.bytes := by
  have uploaded : thousandAndOne ≠ [] := by
    rw [thousandAndOne, Ne, List.map_eq_nil_iff]
    exact List.range_eq_nil.not.mpr (by decide)
  have apart : ∀ key ∈ (∅ : Bucket),
      SnapshotS3.isUnder ⟨"shard-0"⟩ key = false := by
    intro key present
    exact absurd present Std.ExtTreeMap.not_mem_empty
  obtain ⟨newest, member, isNewest, bound, stored⟩ :=
    @newestUpload_spec _ ⟨"shard-0"⟩ ∅ thousandAndOne uploaded
  intro fetched
  rw [isNewest, Option.map_some,
    latest_eq_newest_iff_mem ⟨"shard-0"⟩ apart bound stored,
    newest_onPage_iff ⟨"shard-0"⟩ apart member bound,
    thousandAndOne_indices] at fetched
  omega

end SnapshotS3

end AetherEngine.Consensus
