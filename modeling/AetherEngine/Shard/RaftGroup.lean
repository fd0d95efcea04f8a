import AetherEngine.Foundations.ReplicatedLog
import AetherEngine.Foundations.Traces
import AetherEngine.Shard.Pipeline
import AetherEngine.Shard.ShardApp

/-!
# A Raft group ingests

Every member of a Raft-managed shard runs the ingestion loop and the eviction
watcher, and both act while the member believes that it leads.  What they write
goes through the group's log, which every member applies to its own store.

Members may believe at the same time that they lead, a write may be committed
after its writer has given it up, views change between any two documents, and
members are restarted and installed from snapshots in any order.
-/

namespace AetherEngine.Shard

open AetherEngine.Common
open AetherEngine.Frames
open AetherEngine.Ranking
open AetherEngine.ReplicatedLog
open AetherEngine.Traces

variable {real : Type}

/-! ## Members -/

/-- Where the ingestion loop stands. -/
inductive LeaderLoop (real : Type) where
  /-- Waiting to lead. -/
  | standby
  | polling
  /-- Sorting out a snapshot of the source, with the documents kept so far. -/
  | filtering (rest owned : Batch real)
  /-- Waiting for a write. -/
  | writing (number : Nat)

/-- Where the eviction watcher stands. -/
inductive Watcher where
  | idle
  /-- With a copy of the placement table. -/
  | looking (group : UInt32) (table : List UInt32)
  | sweeping (rest : List EvictVShard)
  | writing (number : Nat) (rest : List EvictVShard)

structure GroupMember (rules : TextRules) (vectors : VectorSide real) where
  copy : Copy (HeldStore rules vectors)
  ownership : Ownership
  loop : LeaderLoop real
  watcher : Watcher

/-- What a member does by itself. -/
inductive MemberEvent (real : Type) where
  /-- The member believes that it leads. -/
  | lead
  | standDown
  | fetch (outcome : Except String (Batch real))
  /-- The next document is kept or dropped. -/
  | consider
  /-- Nothing of the snapshot is kept. -/
  | drop
  /-- The write is refused. -/
  | refused
  /-- The watcher copies the table. -/
  | tick
  /-- The watcher decides what to evict. -/
  | look
  | sweepOver
  | evictionRefused
  /-- The placement view is fetched anew. -/
  | replaceView (table : List UInt32)

namespace HeldStore

variable {rules : TextRules} {vectors : VectorSide real}

/-- Replace all documents; the store never panics. -/
def replaceAll (passes : Nat → Passes) (docs : List (FlightDocument real))
    (held : HeldStore rules vectors) : HeldStore rules vectors where
  store := (held.store.replaceAll rules passes docs).get (by
    obtain ⟨after, replaced, -⟩ :=
      ShardStore.holds_replaceAll rules passes held.store docs
    rw [replaced, Option.isSome_some])
  holds := by
    obtain ⟨after, replaced, holds⟩ :=
      ShardStore.holds_replaceAll rules passes held.store docs
    simp only [replaced, Option.get_some]
    exact ⟨_, holds⟩

/-- Carry a committed command out. -/
def perform (passes : Nat → Passes) (command : ShardCommand real)
    (held : HeldStore rules vectors) : HeldStore rules vectors :=
  match command.kind with
  | some (.batch request) => held.insertAll passes request.documents
  | some (.evict request) =>
      held.evictVshard passes request.vshard request.v
  | none => held

end HeldStore

namespace GroupMember

variable {rules : TextRules} {vectors : VectorSide real}

def fresh (ownership : Ownership) : GroupMember rules vectors where
  copy := ⟨.new, 0⟩
  ownership := ownership
  loop := .standby
  watcher := .idle

/-- The part of the ingestion loop that needs nobody else. -/
def ingest (member : GroupMember rules vectors) :
    MemberEvent real → Option (GroupMember rules vectors)
  | .lead =>
      match member.loop with
      | .standby => some { member with loop := .polling }
      | _ => none
  | .standDown =>
      match member.loop with
      | .polling => some { member with loop := .standby }
      | _ => none
  | .fetch outcome =>
      match member.loop with
      | .polling =>
          match outcome with
          | .ok (doc :: rest) =>
              some { member with loop := .filtering (doc :: rest) [] }
          -- an empty snapshot and a failed fetch leave nothing to do
          | _ => some member
      | _ => none
  | .consider =>
      match member.loop with
      | .filtering (doc :: rest) owned =>
          if member.ownership.owns doc.icao24 then
            some { member with loop := .filtering rest (owned ++ [doc]) }
          else
            some { member with loop := .filtering rest owned }
      | _ => none
  | .drop =>
      match member.loop with
      | .filtering [] [] => some { member with loop := .polling }
      | _ => none
  | .refused =>
      match member.loop with
      | .writing _ => some { member with loop := .standby }
      | _ => none
  | _ => none

/-- The part of the eviction watcher that needs nobody else. -/
def watch (member : GroupMember rules vectors) :
    MemberEvent real → Option (GroupMember rules vectors)
  | .tick =>
      match member.watcher, member.ownership with
      | .idle, .mapped group table =>
          some { member with watcher := .looking group table }
      -- a node with a fixed slice runs no watcher
      | _, _ => none
  | .look =>
      match member.watcher with
      | .looking group table =>
          some
            { member with
              watcher := .sweeping
                (evictions group table member.copy.state.store.documents) }
      | _ => none
  | .sweepOver =>
      match member.watcher with
      | .sweeping [] => some { member with watcher := .idle }
      | _ => none
  | .evictionRefused =>
      match member.watcher with
      | .writing _ _ => some { member with watcher := .idle }
      | _ => none
  | _ => none

def act (member : GroupMember rules vectors) (event : MemberEvent real) :
    Option (GroupMember rules vectors) :=
  match event with
  | .tick | .look | .sweepOver | .evictionRefused => member.watch event
  | .replaceView table =>
      some { member with ownership := member.ownership.refresh table }
  | _ => member.ingest event

/-- Every step of a member by itself, with its guard. -/
inductive Moves (before : GroupMember rules vectors) :
    MemberEvent real → GroupMember rules vectors → Prop where
  | lead (waiting : before.loop = .standby) :
      Moves before .lead { before with loop := .polling }
  | standDown (polling : before.loop = .polling) :
      Moves before .standDown { before with loop := .standby }
  | fetchBatch (doc : FlightDocument real) (rest : Batch real)
      (polling : before.loop = .polling) :
      Moves before (.fetch (.ok (doc :: rest)))
        { before with loop := .filtering (doc :: rest) [] }
  | fetchNothing (outcome : Except String (Batch real)) :
      Moves before (.fetch outcome) before
  | keep (doc : FlightDocument real) (rest owned : Batch real)
      (filtering : before.loop = .filtering (doc :: rest) owned)
      (owns : before.ownership.owns doc.icao24 = true) :
      Moves before .consider
        { before with loop := .filtering rest (owned ++ [doc]) }
  | skip (doc : FlightDocument real) (rest owned : Batch real)
      (filtering : before.loop = .filtering (doc :: rest) owned) :
      Moves before .consider { before with loop := .filtering rest owned }
  | drop (filtering : before.loop = .filtering [] []) :
      Moves before .drop { before with loop := .polling }
  | refused (number : Nat) (writing : before.loop = .writing number) :
      Moves before .refused { before with loop := .standby }
  | tick (group : UInt32) (table : List UInt32)
      (idle : before.watcher = .idle)
      (mapped : before.ownership = .mapped group table) :
      Moves before .tick { before with watcher := .looking group table }
  | look (group : UInt32) (table : List UInt32)
      (looking : before.watcher = .looking group table) :
      Moves before .look
        { before with
          watcher := .sweeping
            (evictions group table before.copy.state.store.documents) }
  | sweepOver (sweeping : before.watcher = .sweeping []) :
      Moves before .sweepOver { before with watcher := .idle }
  | evictionRefused (number : Nat) (rest : List EvictVShard)
      (writing : before.watcher = .writing number rest) :
      Moves before .evictionRefused { before with watcher := .idle }
  | replaceView (table : List UInt32) :
      Moves before (.replaceView table)
        { before with ownership := before.ownership.refresh table }

private theorem moves_of_ingest {before after : GroupMember rules vectors}
    {event : MemberEvent real} (acted : before.ingest event = some after) :
    before.Moves event after := by
  unfold ingest at acted
  split at acted
  case h_1 =>
    split at acted
    next waiting =>
      cases acted
      exact .lead waiting
    · cases acted
  case h_2 =>
    split at acted
    next polling =>
      cases acted
      exact .standDown polling
    · cases acted
  case h_3 outcome =>
    split at acted
    next polling =>
      split at acted
      · cases acted
        exact .fetchBatch _ _ polling
      · cases acted
        exact .fetchNothing _
    · cases acted
  case h_4 =>
    split at acted
    next doc rest owned filtering =>
      split at acted
      next owns =>
        cases acted
        exact .keep _ _ _ filtering owns
      · cases acted
        exact .skip _ _ _ filtering
    · cases acted
  case h_5 =>
    split at acted
    next filtering =>
      cases acted
      exact .drop filtering
    · cases acted
  case h_6 =>
    split at acted
    next number writing =>
      cases acted
      exact .refused _ writing
    · cases acted
  case h_7 =>
    cases acted

private theorem moves_of_watch {before after : GroupMember rules vectors}
    {event : MemberEvent real} (acted : before.watch event = some after) :
    before.Moves event after := by
  unfold watch at acted
  split at acted
  case h_1 =>
    split at acted
    next group table idle mapped =>
      cases acted
      exact .tick _ _ idle mapped
    · cases acted
  case h_2 =>
    split at acted
    next group table looking =>
      cases acted
      exact .look _ _ looking
    · cases acted
  case h_3 =>
    split at acted
    next sweeping =>
      cases acted
      exact .sweepOver sweeping
    · cases acted
  case h_4 =>
    split at acted
    next number rest writing =>
      cases acted
      exact .evictionRefused _ _ writing
    · cases acted
  case h_5 =>
    cases acted

private theorem moves_of_act {before after : GroupMember rules vectors}
    {event : MemberEvent real} (acted : before.act event = some after) :
    before.Moves event after := by
  cases event with
  | tick | look | sweepOver | evictionRefused =>
      exact moves_of_watch acted
  | replaceView table =>
      cases acted
      exact .replaceView table
  | _ =>
      exact moves_of_ingest acted

/-- Only the group's steps change a member's replica. -/
theorem Moves.copy {before after : GroupMember rules vectors}
    {event : MemberEvent real} (moves : before.Moves event after) :
    after.copy = before.copy := by
  cases moves with
  | _ => rfl

end GroupMember

/-! ## The group -/

structure RaftGroup (rules : TextRules) (vectors : VectorSide real)
    (Member : Type) where
  ledger : Ledger (ShardCommand real)
  member : Member → GroupMember rules vectors
  snapshots : List (Copy (HeldStore rules vectors))

inductive RaftGroupEvent (real Member : Type) where
  | acts (member : Member) (event : MemberEvent real)
  /-- The ingestion loop hands its batch to the group. -/
  | propose (member : Member)
  /-- The loop's write is committed and applied. -/
  | written (member : Member)
  /-- The watcher hands its next eviction to the group. -/
  | proposeEviction (member : Member)
  | evicted (member : Member)
  | commit (number : Nat)
  | applyNext (member : Member) (passes : Nat → Passes)
  /-- A snapshot is built; nothing is applied between its two reads. -/
  | snapshot (member : Member)
  | install (member : Member) (taken : Nat) (passes : Nat → Passes)
  /-- The member's process starts anew and settles which slice it keeps. -/
  | restart (member : Member) (ownership : Ownership)

/-- A batch as it is written. -/
def batchCommand (docs : Batch real) : ShardCommand real :=
  ⟨some (.batch ⟨docs, 0⟩)⟩

def evictCommand (request : EvictVShard) : ShardCommand real :=
  ⟨some (.evict request)⟩

namespace RaftGroup

variable {rules : TextRules} {vectors : VectorSide real}
variable {Member : Type} [DecidableEq Member]

def begin (ownership : Member → Ownership) :
    RaftGroup rules vectors Member where
  ledger := .empty
  member member := .fresh (ownership member)
  snapshots := []

def setMember (group : RaftGroup rules vectors Member) (member : Member)
    (after : GroupMember rules vectors) : RaftGroup rules vectors Member :=
  { group with
    member := fun other => if other = member then after else group.member other }

/-- The group is handed a command. -/
def handIn (group : RaftGroup rules vectors Member)
    (command : ShardCommand real) : RaftGroup rules vectors Member :=
  { group with ledger := group.ledger.propose command }

/-- The proposal is in the part of the log that the member has applied. -/
def Applied (group : RaftGroup rules vectors Member) (member : Member)
    (number : Nat) : Prop :=
  number ∈ group.ledger.owners.take (group.member member).copy.position

instance instDecidableApplied (group : RaftGroup rules vectors Member)
    (member : Member) (number : Nat) :
    Decidable (group.Applied member number) :=
  inferInstanceAs (Decidable (_ ∈ _))

def step (group : RaftGroup rules vectors Member) :
    RaftGroupEvent real Member → Option (RaftGroup rules vectors Member)
  | .acts member event => do
      let after ← (group.member member).act event
      some (group.setMember member after)
  | .propose member =>
      match (group.member member).loop with
      | .filtering [] (doc :: rest) =>
          some ((group.setMember member
            { group.member member with
              loop := .writing group.ledger.proposals.length }).handIn
                (batchCommand (doc :: rest)))
      | _ => none
  | .written member =>
      match (group.member member).loop with
      | .writing number =>
          if group.Applied member number then
            some (group.setMember member
              { group.member member with loop := .polling })
          else
            none
      | _ => none
  | .proposeEviction member =>
      match (group.member member).watcher with
      | .sweeping (request :: rest) =>
          some ((group.setMember member
            { group.member member with
              watcher := .writing group.ledger.proposals.length rest }).handIn
                (evictCommand request))
      | _ => none
  | .evicted member =>
      match (group.member member).watcher with
      | .writing number rest =>
          if group.Applied member number then
            some (group.setMember member
              { group.member member with watcher := .sweeping rest })
          else
            none
      | _ => none
  | .commit number =>
      if waits : number ∈ group.ledger.submitted then
        some { group with ledger := group.ledger.commit number waits }
      else
        none
  | .applyNext member passes =>
      let copy := (group.member member).copy
      match group.ledger.log[copy.position]? with
      | some command =>
          some (group.setMember member
            { group.member member with
              copy := ⟨copy.state.perform passes command, copy.position + 1⟩ })
      | none => none
  | .snapshot member =>
      some
        { group with
          snapshots := group.snapshots ++ [(group.member member).copy] }
  | .install member taken passes =>
      match group.snapshots[taken]? with
      | some snapshot =>
          some (group.setMember member
            { group.member member with
              copy :=
                ⟨(group.member member).copy.state.replaceAll passes
                  snapshot.state.store.documents, snapshot.position⟩ })
      | none => none
  | .restart member ownership =>
      some (group.setMember member (.fresh ownership))

/-! ## What one step can do -/

/-- Every step of the group, with its guard. -/
inductive Moves (before : RaftGroup rules vectors Member) :
    RaftGroupEvent real Member → RaftGroup rules vectors Member → Prop where
  | acts (member : Member) (event : MemberEvent real)
      (after : GroupMember rules vectors)
      (moved : (before.member member).Moves event after) :
      Moves before (.acts member event) (before.setMember member after)
  | propose (member : Member) (doc : FlightDocument real) (rest : Batch real)
      (filtered : (before.member member).loop = .filtering [] (doc :: rest)) :
      Moves before (.propose member)
        ((before.setMember member
          { before.member member with
            loop := .writing before.ledger.proposals.length }).handIn
              (batchCommand (doc :: rest)))
  | written (member : Member) (number : Nat)
      (writing : (before.member member).loop = .writing number)
      (applied : before.Applied member number) :
      Moves before (.written member)
        (before.setMember member
          { before.member member with loop := .polling })
  | proposeEviction (member : Member) (request : EvictVShard)
      (rest : List EvictVShard)
      (sweeping : (before.member member).watcher =
        .sweeping (request :: rest)) :
      Moves before (.proposeEviction member)
        ((before.setMember member
          { before.member member with
            watcher := .writing before.ledger.proposals.length rest }).handIn
              (evictCommand request))
  | evicted (member : Member) (number : Nat) (rest : List EvictVShard)
      (writing : (before.member member).watcher = .writing number rest)
      (applied : before.Applied member number) :
      Moves before (.evicted member)
        (before.setMember member
          { before.member member with watcher := .sweeping rest })
  | commit (number : Nat) (waits : number ∈ before.ledger.submitted) :
      Moves before (.commit number)
        { before with ledger := before.ledger.commit number waits }
  | applyNext (member : Member) (passes : Nat → Passes)
      (command : ShardCommand real)
      (next : before.ledger.log[(before.member member).copy.position]? =
        some command) :
      Moves before (.applyNext member passes)
        (before.setMember member
          { before.member member with
            copy :=
              ⟨(before.member member).copy.state.perform passes command,
                (before.member member).copy.position + 1⟩ })
  | snapshot (member : Member) :
      Moves before (.snapshot member)
        { before with
          snapshots := before.snapshots ++ [(before.member member).copy] }
  | install (member : Member) (taken : Nat) (passes : Nat → Passes)
      (snapshot : Copy (HeldStore rules vectors))
      (held : snapshot ∈ before.snapshots) :
      Moves before (.install member taken passes)
        (before.setMember member
          { before.member member with
            copy :=
              ⟨(before.member member).copy.state.replaceAll passes
                snapshot.state.store.documents, snapshot.position⟩ })
  | restart (member : Member) (ownership : Ownership) :
      Moves before (.restart member ownership)
        (before.setMember member (.fresh ownership))

theorem moves_of_step {before after : RaftGroup rules vectors Member}
    {event : RaftGroupEvent real Member}
    (stepped : before.step event = some after) :
    before.Moves event after := by
  unfold step at stepped
  split at stepped
  case h_1 member event =>
    obtain ⟨next, acted, same⟩ := Option.bind_eq_some_iff.mp stepped
    cases same
    exact .acts _ _ _ (GroupMember.moves_of_act acted)
  case h_2 member =>
    split at stepped
    next doc rest filtered =>
      cases stepped
      exact .propose _ _ _ filtered
    · cases stepped
  case h_3 member =>
    split at stepped
    next number writing =>
      split at stepped
      next applied =>
        cases stepped
        exact .written _ _ writing applied
      · cases stepped
    · cases stepped
  case h_4 member =>
    split at stepped
    next request rest sweeping =>
      cases stepped
      exact .proposeEviction _ _ _ sweeping
    · cases stepped
  case h_5 member =>
    split at stepped
    next number rest writing =>
      split at stepped
      next applied =>
        cases stepped
        exact .evicted _ _ _ writing applied
      · cases stepped
    · cases stepped
  case h_6 number =>
    split at stepped
    next waits =>
      cases stepped
      exact .commit _ waits
    · cases stepped
  case h_7 member passes =>
    dsimp only at stepped
    split at stepped
    next command next =>
      cases stepped
      exact .applyNext _ _ _ next
    · cases stepped
  case h_8 member =>
    cases stepped
    exact .snapshot _
  case h_9 member taken passes =>
    split at stepped
    next snapshot found =>
      cases stepped
      exact .install _ _ _ _ (List.mem_of_getElem? found)
    · cases stepped
  case h_10 member ownership =>
    cases stepped
    exact .restart _ _

end RaftGroup

end AetherEngine.Shard
