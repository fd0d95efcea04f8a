import AetherEngine.Consensus.WalLogStore
import AetherEngine.Foundations.Files

/-!
# The vote file

`save_vote` writes a temporary file, syncs it and renames it over the vote
file; the vote in memory is replaced after that, and the call returns.  When
the store is opened, a vote file that does not decode counts as no vote.

`VoteStore` takes the calls apart into their file operations, with failures,
crashes between them and damage to the vote file.  The last acknowledged vote
is never forgotten exactly when no older vote is moved into place, and damage
leaves a vote that is recent enough.
-/

namespace AetherEngine.Consensus

open AetherEngine.Files
open AetherEngine.Frames
open AetherEngine.Runs

/-- The order of votes: by term, by node, and a committed vote after one that
is not. -/
def Vote.NotAfter (earlier later : Vote) : Prop :=
  earlier.leaderId.term < later.leaderId.term ∨
    earlier.leaderId.term = later.leaderId.term ∧
      (earlier.leaderId.nodeId < later.leaderId.nodeId ∨
        earlier.leaderId.nodeId = later.leaderId.nodeId ∧
          (earlier.committed = true → later.committed = true))

instance (earlier later : Vote) : Decidable (earlier.NotAfter later) :=
  inferInstanceAs (Decidable (_ ∨ _))

/-! ## Saving a vote, one file operation at a time -/

def votePath : String :=
  "vote.bin"

def voteTemporary : String :=
  "vote.tmp"

/-- The next thing a call of `save_vote` does. -/
inductive SavePhase where
  | creating
  | writing
  | syncing
  | moving
  | returning
deriving DecidableEq

/-- The files, the vote in memory, the call under way and the last vote whose
call returned without an error. -/
structure VoteStore where
  files : Folder := ∅
  vote : Option Vote := none
  saving : Option (Vote × SavePhase) := none
  acknowledged : Option Vote := none

/-- A failed write leaves some bytes in the temporary file. -/
inductive VoteStep where
  | save (vote : Vote)
  | advance
  | fail (left : Bytes)
  | restart (torn : String → Option Bytes)
  | damage (bytes : Bytes)

namespace VoteStore

variable (codec : StoreCodec)

/-- The bytes of the vote file. -/
def voteFile (files : Folder) : Option Bytes :=
  files[votePath]?.map File.bytes

/-- The next file operation of the call succeeds.  The vote in memory is set
when the file is in place. -/
def advance (store : VoteStore) : VoteStore :=
  match store.saving with
  | none => store
  | some (vote, .creating) =>
      { store with
        files := write store.files voteTemporary []
        saving := some (vote, .writing) }
  | some (vote, .writing) =>
      { store with
        files := write store.files voteTemporary (codec.encodeVote vote)
        saving := some (vote, .syncing) }
  | some (vote, .syncing) =>
      { store with
        files := sync store.files voteTemporary
        saving := some (vote, .moving) }
  | some (vote, .moving) =>
      { store with
        files := rename store.files voteTemporary votePath
        saving := some (vote, .returning) }
  | some (vote, .returning) =>
      { store with
        vote := some vote
        saving := none
        acknowledged := some vote }

/-- The next file operation fails and the call returns the error.  Syncing the
directory after the rename may fail without one. -/
def fail (store : VoteStore) (left : Bytes) : VoteStore :=
  match store.saving with
  | none => store
  | some (_, .writing) =>
      { store with
        files := write store.files voteTemporary left
        saving := none }
  | some (_, .returning) => store
  | some _ => { store with saving := none }

/-- One step.  The calls of `save_vote` come one after the other. -/
def step (store : VoteStore) : VoteStep → VoteStore
  | .save vote =>
      match store.saving with
      | none => { store with saving := some (vote, .creating) }
      | some _ => store
  | .advance => store.advance codec
  | .fail left => store.fail left
  | .restart torn =>
      let files := crash torn store.files
      { store with
        files := files
        vote := readVoteFile codec (voteFile files)
        saving := none }
  | .damage bytes =>
      { store with
        files := store.files.alter votePath fun file =>
          file.map fun file => { file with bytes := bytes } }

/-- After a restart at this moment, `read_vote` returns a vote that is not
older than the last acknowledged one. -/
def Remembers (store : VoteStore) : Prop :=
  ∀ last, store.acknowledged = some last → ∀ torn, ∃ vote,
    (store.step codec (.restart torn)).vote = some vote ∧ last.NotAfter vote

/-- The vote file decodes to a vote that is not older. -/
def HoldsVote (last : Vote) (files : Folder) : Prop :=
  ∃ vote ∈ readVoteFile codec (voteFile files), last.NotAfter vote

instance (last : Vote) (files : Folder) :
    Decidable (HoldsVote codec last files) :=
  inferInstanceAs (Decidable (∃ vote ∈ readVoteFile codec (voteFile files), _))

/-- A vote moved into place is not older than the last acknowledged one, the
file still holds it when the call returns, and damage leaves a vote that is
not older than the last acknowledged one. -/
def StepSafe (store : VoteStore) : VoteStep → Prop
  | .advance =>
      match store.saving with
      | some (vote, .moving) =>
          ∀ last ∈ store.acknowledged, last.NotAfter vote
      | some (vote, .returning) => HoldsVote codec vote store.files
      | _ => True
  | .damage bytes =>
      ∀ last ∈ store.acknowledged, ∃ vote ∈ codec.decodeVote bytes,
        last.NotAfter vote
  | _ => True

/-! ## The files between the steps -/

/-- What every step keeps: the vote file is on disk, and the temporary file
holds the vote that is being saved. -/
structure Staged (store : VoteStore) : Prop where
  onDisk : ∀ file, store.files[votePath]? = some file → file.synced = true
  written : ∀ vote, store.saving = some (vote, .syncing) →
    store.files[voteTemporary]? = some ⟨codec.encodeVote vote, false⟩
  synced : ∀ vote, store.saving = some (vote, .moving) →
    store.files[voteTemporary]? = some ⟨codec.encodeVote vote, true⟩

theorem voteTemporary_ne_votePath : voteTemporary ≠ votePath := by
  decide

theorem getElem?_write_votePath (files : Folder) (bytes : Bytes) :
    (write files voteTemporary bytes)[votePath]? = files[votePath]? := by
  rw [getElem?_write, if_neg voteTemporary_ne_votePath]

private theorem getElem?_sync_votePath (files : Folder) :
    (sync files voteTemporary)[votePath]? = files[votePath]? := by
  rw [getElem?_sync, if_neg voteTemporary_ne_votePath]

variable {codec} {store : VoteStore}

private theorem Staged.voteFile_crash (staged : store.Staged codec)
    (torn : String → Option Bytes) :
    voteFile (crash torn store.files) = voteFile store.files := by
  unfold voteFile
  cases found : store.files[votePath]? with
  | none =>
      rw [getElem?_crash, found]
      rfl
  | some file =>
      rw [getElem?_crash_of_synced found (staged.onDisk file found)]

/-- Since the vote file is on disk, a restart reads what it holds. -/
theorem Staged.remembers_iff (staged : store.Staged codec) :
    store.Remembers codec ↔
      ∀ last, store.acknowledged = some last →
        HoldsVote codec last store.files := by
  have restarted : ∀ torn, (store.step codec (.restart torn)).vote =
      readVoteFile codec (voteFile store.files) := by
    intro torn
    rw [← staged.voteFile_crash torn]
    rfl
  constructor
  · intro remembers last acknowledged
    obtain ⟨vote, read, notAfter⟩ :=
      remembers last acknowledged (fun _ => none)
    rw [restarted] at read
    exact ⟨vote, read, notAfter⟩
  · intro holds last acknowledged torn
    obtain ⟨vote, read, notAfter⟩ := holds last acknowledged
    exact ⟨vote, (restarted torn).trans read, notAfter⟩

private theorem staged_start : Staged codec {} where
  onDisk := by simp
  written := by simp
  synced := by simp

theorem Staged.advance (staged : store.Staged codec) :
    (store.advance codec).Staged codec := by
  cases saving : store.saving with
  | none =>
      simp only [VoteStore.advance, saving]
      exact staged
  | some call =>
      obtain ⟨vote, phase⟩ := call
      cases phase with
      | creating =>
          simp only [VoteStore.advance, saving]
          refine ⟨?_, fun _ other => (nomatch other),
            fun _ other => (nomatch other)⟩
          intro file found
          rw [getElem?_write_votePath] at found
          exact staged.onDisk file found
      | writing =>
          simp only [VoteStore.advance, saving]
          refine ⟨?_, ?_, fun _ other => (nomatch other)⟩
          · intro file found
            rw [getElem?_write_votePath] at found
            exact staged.onDisk file found
          · intro _ impossible
            cases impossible
            rw [getElem?_write, if_pos rfl]
      | syncing =>
          simp only [VoteStore.advance, saving]
          refine ⟨?_, fun _ other => (nomatch other), ?_⟩
          · intro file found
            rw [getElem?_sync_votePath] at found
            exact staged.onDisk file found
          · intro _ impossible
            cases impossible
            rw [getElem?_sync, if_pos rfl, staged.written vote saving]
            rfl
      | moving =>
          simp only [VoteStore.advance, saving]
          refine ⟨?_, fun _ other => (nomatch other),
            fun _ other => (nomatch other)⟩
          intro file found
          rw [getElem?_rename (staged.synced vote saving), if_pos rfl,
            Option.some.injEq] at found
          rw [← found]
      | returning =>
          simp only [VoteStore.advance, saving]
          exact ⟨staged.onDisk, fun _ other => (nomatch other),
            fun _ other => (nomatch other)⟩

theorem Staged.fail (staged : store.Staged codec) (left : Bytes) :
    (store.fail left).Staged codec := by
  cases saving : store.saving with
  | none =>
      simp only [VoteStore.fail, saving]
      exact staged
  | some call =>
      obtain ⟨vote, phase⟩ := call
      cases phase with
      | writing =>
          simp only [VoteStore.fail, saving]
          refine ⟨?_, fun _ other => (nomatch other),
            fun _ other => (nomatch other)⟩
          intro file found
          rw [getElem?_write_votePath] at found
          exact staged.onDisk file found
      | returning =>
          simp only [VoteStore.fail, saving]
          exact staged
      | _ =>
          simp only [VoteStore.fail, saving]
          exact ⟨staged.onDisk, fun _ other => (nomatch other),
            fun _ other => (nomatch other)⟩

theorem getElem?_damage (files : Folder) (bytes : Bytes) (name : String) :
    (files.alter votePath fun file =>
        file.map fun file => { file with bytes := bytes })[name]? =
      if votePath = name then
        files[votePath]?.map fun file => { file with bytes := bytes }
      else
        files[name]? :=
  Tables.getElem?_alter files votePath name _

theorem Staged.step (staged : store.Staged codec) (next : VoteStep) :
    (store.step codec next).Staged codec := by
  cases next with
  | save vote =>
      cases saving : store.saving with
      | none =>
          simp only [VoteStore.step, saving]
          exact ⟨staged.onDisk, fun _ other => (nomatch other),
            fun _ other => (nomatch other)⟩
      | some call =>
          simp only [VoteStore.step, saving]
          exact staged
  | advance => exact staged.advance
  | fail left => exact staged.fail left
  | restart torn =>
      refine ⟨?_, fun _ other => (nomatch other),
        fun _ other => (nomatch other)⟩
      intro file found
      obtain ⟨before, present⟩ := getElem?_of_crash found
      have isSynced := staged.onDisk before present
      have same : some before = some file :=
        (getElem?_crash_of_synced present isSynced torn).symm.trans found
      cases same
      exact isSynced
  | damage bytes =>
      refine ⟨?_, ?_, ?_⟩
      · intro file found
        simp only [VoteStore.step] at found
        rw [getElem?_damage, if_pos rfl, Option.map_eq_some_iff] at found
        obtain ⟨before, present, rfl⟩ := found
        exact staged.onDisk before present
      · intro vote saving
        simp only [VoteStore.step]
        rw [getElem?_damage, if_neg (Ne.symm voteTemporary_ne_votePath)]
        exact staged.written vote saving
      · intro vote saving
        simp only [VoteStore.step]
        rw [getElem?_damage, if_neg (Ne.symm voteTemporary_ne_votePath)]
        exact staged.synced vote saving

/-! ## What one step needs -/

/-- A step that changes neither the vote file nor the acknowledged vote
forgets nothing. -/
theorem remembers_of_same {later : VoteStore} (staged : store.Staged codec)
    (laterStaged : later.Staged codec)
    (sameFile : voteFile later.files = voteFile store.files)
    (sameVote : later.acknowledged = store.acknowledged)
    (remembers : store.Remembers codec) : later.Remembers codec := by
  rw [laterStaged.remembers_iff, sameVote]
  rw [staged.remembers_iff] at remembers
  intro last acknowledged
  unfold HoldsVote
  rw [sameFile]
  exact remembers last acknowledged

theorem voteFile_write (files : Folder) (bytes : Bytes) :
    voteFile (write files voteTemporary bytes) = voteFile files := by
  rw [voteFile, getElem?_write_votePath, voteFile]

private theorem voteFile_sync (files : Folder) :
    voteFile (sync files voteTemporary) = voteFile files := by
  rw [voteFile, getElem?_sync_votePath, voteFile]

private theorem Staged.advance_remembers_iff (staged : store.Staged codec)
    (remembers : store.Remembers codec) :
    (store.advance codec).Remembers codec ↔
      store.StepSafe codec .advance := by
  have laterStaged := staged.advance
  have same := remembers_of_same staged laterStaged
  cases saving : store.saving with
  | none =>
      simp only [VoteStore.advance, StepSafe, saving, iff_true]
      exact remembers
  | some call =>
      obtain ⟨vote, phase⟩ := call
      cases phase with
      | creating =>
          simp only [StepSafe, saving, iff_true]
          refine same ?_ ?_ remembers
          · simp only [VoteStore.advance, saving, voteFile_write]
          · simp only [VoteStore.advance, saving]
      | writing =>
          simp only [StepSafe, saving, iff_true]
          refine same ?_ ?_ remembers
          · simp only [VoteStore.advance, saving, voteFile_write]
          · simp only [VoteStore.advance, saving]
      | syncing =>
          simp only [StepSafe, saving, iff_true]
          refine same ?_ ?_ remembers
          · simp only [VoteStore.advance, saving, voteFile_sync]
          · simp only [VoteStore.advance, saving]
      | moving =>
          have moved : readVoteFile codec
              (voteFile (rename store.files voteTemporary votePath)) =
                some vote := by
            rw [voteFile, getElem?_rename (staged.synced vote saving),
              if_pos rfl]
            exact codec.decodeVote_encodeVote vote
          rw [laterStaged.remembers_iff]
          simp only [VoteStore.advance, StepSafe, saving, HoldsVote, moved,
            Option.mem_def, Option.some.injEq, exists_eq_left']
      | returning =>
          rw [laterStaged.remembers_iff]
          simp only [VoteStore.advance, StepSafe, saving, Option.some.injEq,
            forall_eq']

private theorem Staged.step_remembers_iff (staged : store.Staged codec)
    (remembers : store.Remembers codec) (next : VoteStep) :
    (store.step codec next).Remembers codec ↔ store.StepSafe codec next := by
  have laterStaged := staged.step next
  have same := remembers_of_same staged laterStaged
  cases next with
  | save vote =>
      simp only [StepSafe, iff_true]
      cases saving : store.saving with
      | none =>
          refine same ?_ ?_ remembers
          · simp only [VoteStore.step, saving]
          · simp only [VoteStore.step, saving]
      | some call =>
          simp only [VoteStore.step, saving]
          exact remembers
  | advance => exact staged.advance_remembers_iff remembers
  | fail left =>
      simp only [StepSafe, iff_true]
      refine same ?_ ?_ remembers
      · simp only [VoteStore.step, VoteStore.fail]
        split
        · rfl
        · exact voteFile_write store.files left
        · rfl
        · rfl
      · simp only [VoteStore.step, VoteStore.fail]
        split <;> rfl
  | restart torn =>
      simp only [StepSafe, iff_true]
      exact same (staged.voteFile_crash torn) rfl remembers
  | damage bytes =>
      rw [laterStaged.remembers_iff]
      rw [staged.remembers_iff] at remembers
      have damaged : ∀ last, store.acknowledged = some last →
          readVoteFile codec (voteFile (store.step codec (.damage bytes)).files) =
            codec.decodeVote bytes := by
        intro last acknowledged
        obtain ⟨vote, read, -⟩ := remembers last acknowledged
        rw [readVoteFile, voteFile, Option.mem_def, Option.bind_eq_some_iff]
          at read
        obtain ⟨content, present, -⟩ := read
        rw [Option.map_eq_some_iff] at present
        obtain ⟨file, found, -⟩ := present
        simp only [VoteStore.step, voteFile]
        rw [getElem?_damage, if_pos rfl, found]
        rfl
      constructor
      · intro holds last acknowledged
        have held := holds last acknowledged
        rwa [HoldsVote, damaged last acknowledged] at held
      · intro safe last acknowledged
        rw [HoldsVote, damaged last acknowledged]
        exact safe last acknowledged

/-- No acknowledged vote is forgotten in a run exactly when every step is
safe. -/
theorem remembers_throughout_iff (codec : StoreCodec) (run : List VoteStep) :
    Throughout (step codec) (Remembers codec) {} run ↔
      EachStep (step codec) (StepSafe codec) {} run := by
  have kept : ∀ (current : VoteStore) next, current.Staged codec → True →
      (current.step codec next).Staged codec :=
    fun _ next staged _ => staged.step next
  have oneStep : ∀ (current : VoteStore) next, current.Staged codec → True →
      current.Remembers codec →
        ((current.step codec next).Remembers codec ∧ True ↔
          current.StepSafe codec next) := by
    intro current next staged _ remembers
    rw [and_true]
    exact staged.step_remembers_iff remembers next
  have begins : Remembers codec {} := by
    intro last acknowledged
    cases acknowledged
  have unguarded : EachStep (step codec) (fun _ _ => True) {} run :=
    eachStep_of_forall_mem (fun _ _ _ => trivial)
  have both := throughout_and_eachStep_iff kept oneStep staged_start
    (fun next (_ : next ∈ run) => trivial) begins
  exact ⟨fun always => both.mp ⟨always, unguarded⟩,
    fun guarded => (both.mpr guarded).1⟩

/-! ## Whole calls -/

/-- A call without a failure or a crash. -/
def saveWhole (vote : Vote) : List VoteStep :=
  .save vote :: List.replicate 5 .advance

/-- A whole call does to the file and the memory what `WalLogStore.saveVote`
does in one go. -/
theorem saveWhole_refines (idle : store.saving = none) (wal : Wal)
    (vote : Vote) :
    let later := Runs.final (step codec) store (saveWhole vote)
    let saved := WalLogStore.saveVote codec
      ⟨wal, voteFile store.files, store.vote⟩ vote
    voteFile later.files = saved.voteFile ∧ later.vote = saved.vote ∧
      later.acknowledged = some vote ∧ later.saving = none := by
  have staging : (sync (write (write store.files voteTemporary [])
      voteTemporary (codec.encodeVote vote)) voteTemporary)[voteTemporary]? =
        some ⟨codec.encodeVote vote, true⟩ := by
    rw [getElem?_sync, if_pos rfl, getElem?_write, if_pos rfl]
    rfl
  simp only [saveWhole, List.replicate, Runs.final_cons, Runs.final_nil, step,
    idle, VoteStore.advance, WalLogStore.saveVote, and_true]
  rw [voteFile, getElem?_rename staging, if_pos rfl]
  rfl

/-- A restart reads the vote as `WalLogStore.openStore` does. -/
theorem restart_refines (torn : String → Option Bytes) (dir : Directory) :
    (store.step codec (.restart torn)).vote =
      (WalLogStore.openStore codec dir
        (voteFile (crash torn store.files))).readVote :=
  rfl

/-- A vote is saved, then a bad sector leaves nothing of the vote file. -/
def damagedVote : List VoteStep :=
  saveWhole ⟨⟨3, 1⟩, false⟩ ++ [.damage []]

/-- The acknowledged vote is read back as no vote. -/
theorem damaged_vote_forgotten :
    ¬ Throughout (step Twin.bincodeStore) (Remembers Twin.bincodeStore) {}
      damagedVote := by
  intro always
  obtain ⟨vote, read, -⟩ :=
    final_of_throughout always ⟨⟨3, 1⟩, false⟩ (by decide +kernel)
      (fun _ => none)
  have forgotten :
      ((Runs.final (step Twin.bincodeStore) {} damagedVote).step Twin.bincodeStore
        (.restart fun _ => none)).vote = none := by
    decide +kernel
  rw [forgotten] at read
  cases read

end VoteStore

end AetherEngine.Consensus
