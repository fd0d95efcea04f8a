import AetherEngine.Coordinator.Control
import AetherEngine.Coordinator.Service
import AetherEngine.Foundations.Traces

/-!
# The operator's requests

An operator drains a node or reassigns a virtual shard at any coordinator of
the state group.  The coordinator authorizes and checks the request and
proposes its command to the group; where it does not lead the group, it forwards
the request with the operator's credential to the one that does.  Calls are
handled, entries committed and applied, coordinators restarted in any order.
-/

namespace AetherEngine.Coordinator

open AetherEngine.Common
open AetherEngine.Consensus
open AetherEngine.Frames
open AetherEngine.Traces

/-! ## Requests -/

inductive OperatorRequest where
  | drainNode (nodeId : String)
  | reassignVShard (vshard group : UInt32)
deriving DecidableEq, Repr

/-- The reply to either request. -/
structure OperatorResponse where
  ok : Bool
  message : String
deriving DecidableEq, Repr

namespace OperatorRequest

def command : OperatorRequest → Command
  | drainNode nodeId => .drainNode nodeId
  | reassignVShard vshard group => .reassignVShard vshard group

def payload (request : OperatorRequest) : Bytes :=
  commandLayout.write request.command

/-- The check against a coordinator's own registry. -/
def check (registry : Registry) : OperatorRequest → Except String Unit
  | drainNode nodeId =>
      if registry.knowsNode nodeId then
        .ok ()
      else
        .error ("unknown node '" ++ nodeId ++ "'")
  | reassignVShard vshard group => registry.validateReassign vshard group

def refused (message : String) : OperatorResponse :=
  { ok := false, message := message }

def accepted : OperatorRequest → OperatorResponse
  | drainNode nodeId =>
      { ok := true
        message := "'" ++ nodeId ++
          "' marked draining; its group leader will remove it" }
  | reassignVShard vshard group =>
      { ok := true
        message := "vshard " ++ toString vshard ++ " -> group " ++
          toString group }

/-- Without a state group the request is carried out on the registry. -/
def handleDirectly (auth : Auth) (registry : Registry)
    (authorization : Option String) (request : OperatorRequest) :
    Registry × Except Status OperatorResponse :=
  match auth.require authorization .operator with
  | .error status => (registry, .error status)
  | .ok () =>
      match request with
      | drainNode nodeId =>
          match registry.markDraining nodeId with
          | (after, true) => (after, .ok request.accepted)
          | (after, false) =>
              (after, .ok (refused ("unknown node '" ++ nodeId ++ "'")))
      | reassignVShard vshard group =>
          match registry.reassignVshard vshard group with
          | (after, .ok ()) => (after, .ok request.accepted)
          | (after, .error message) => (after, .ok (refused message))

/-- What a handler in a state group does first. -/
inductive Opening where
  | answers (outcome : Except Status OperatorResponse)
  | proposes

/-- Authorize and check; a request that passes is proposed to the group. -/
def opening (auth : Auth) (registry : Registry)
    (authorization : Option String) (request : OperatorRequest) : Opening :=
  match auth.require authorization .operator with
  | .error status => .answers (.error status)
  | .ok () =>
      match request.check registry with
      | .error message => .answers (.ok (refused message))
      | .ok () => .proposes

/-- A request is proposed when its credential and its check allow it. -/
theorem opening_eq_proposes_iff {auth : Auth} {registry : Registry}
    {authorization : Option String} {request : OperatorRequest} :
    request.opening auth registry authorization = .proposes ↔
      auth.require authorization .operator = .ok () ∧
        request.check registry = .ok () := by
  unfold opening
  cases auth.require authorization .operator with
  | error status =>
      simp
  | ok =>
      cases request.check registry with
      | error message => simp
      | ok => simp

theorem decodeCommand_payload {request : OperatorRequest}
    (short : request.payload.length < 2 ^ 32) :
    decodeCommand request.payload = some request.command := by
  have read := commandLayout.read_write request.command []
    (short.trans (by decide))
  rw [List.append_nil] at read
  rw [decodeCommand, payload, read, Option.map_some]

/-- Both ways of handling a request authorize and check it alike: one that
would be proposed is carried out, any other leaves the registry alone and is
answered the same. -/
theorem handleDirectly_of_opening {auth : Auth} {registry : Registry}
    {authorization : Option String} {request : OperatorRequest}
    (short : request.payload.length < 2 ^ 32) :
    (∀ outcome,
      request.opening auth registry authorization = .answers outcome →
        request.handleDirectly auth registry authorization =
          (registry, outcome)) ∧
      (request.opening auth registry authorization = .proposes →
        request.handleDirectly auth registry authorization =
          ((ControlApp.apply registry request.payload).1,
            .ok request.accepted)) := by
  unfold opening handleDirectly
  rw [ControlApp.apply, decodeCommand_payload short]
  cases auth.require authorization .operator with
  | error status =>
      simp
  | ok =>
      cases request with
      | drainNode nodeId =>
          dsimp only [check, Registry.markDraining, command,
            Registry.applyDrainMarker]
          by_cases known : registry.knowsNode nodeId = true
          · simp [if_pos known]
          · simp [if_neg known]
      | reassignVShard vshard group =>
          dsimp only [check, Registry.reassignVshard, command]
          cases registry.validateReassign vshard group with
          | error message => simp
          | ok => simp

end OperatorRequest

/-! ## Calls on a state group -/

/-- A request at one of the coordinators. -/
structure OperatorCall (Member : Type) where
  coordinator : Member
  authorization : Option String
  request : OperatorRequest

/-- Where the handler of a call stands. -/
inductive CallPhase where
  | arrived
  /-- The consensus group has the command. -/
  | proposing
  /-- The command is this entry of the log. -/
  | committed (position : Nat)
  /-- The request was forwarded; the handler waits for that call. -/
  | forwarded (next : Nat)
  | answered (outcome : Except Status OperatorResponse)
  /-- The connection broke before an answer. -/
  | lost

/-- The coordinators of a state group, the committed log and the calls.  The
consensus protocol is what keeps the one log; a proposal it has may be committed
long after the handler gave up. -/
structure ControlGroup (Member : Type) where
  log : List Bytes
  replica : Member → Replica
  snapshots : List Replica
  calls : List (OperatorCall Member)
  phase : Nat → CallPhase
  /-- The calls whose command the consensus group may still commit. -/
  submitted : List Nat

inductive ControlEvent (Member : Type) where
  /-- An operator calls a coordinator. -/
  | call (coordinator : Member) (authorization : Option String)
      (request : OperatorRequest)
  /-- A handler authorizes, checks and proposes. -/
  | handle (number : Nat)
  | commit (number : Nat)
  /-- The coordinator that proposed has applied the entry. -/
  | acknowledge (number : Nat)
  /-- Another coordinator leads the group; the handler forwards the request. -/
  | forward (number : Nat) (leader : Member)
  /-- The leader cannot be reached. -/
  | unreachable (number : Nat) (leader : Member) (reason : String)
  /-- The group cannot commit. -/
  | unavailable (number : Nat) (reason : String)
  /-- The handler passes on what the leader answered. -/
  | relay (number : Nat)
  /-- The leader's answer does not arrive. -/
  | relayFails (number : Nat) (status : Status)
  | lose (number : Nat)
  | view (coordinator : Member) (op : RegistryOp)
  | applyNext (coordinator : Member)
  /-- A snapshot is built; nothing is applied between its two reads. -/
  | snapshot (coordinator : Member)
  | install (coordinator : Member) (taken : Nat)
  | restart (coordinator : Member)

namespace OperatorRequest

/-- The registry shows the request's effect, unless an entry of the log behind
it reassigns the virtual shard again. -/
def InForce (registry : Registry) (behind : List Bytes) :
    OperatorRequest → Prop
  | drainNode nodeId => nodeId ∈ registry.draining
  | reassignVShard vshard group =>
      (∀ payload ∈ behind, ∀ other,
        decodeCommand payload ≠ some (.reassignVShard vshard other)) →
      registry.vshards[vshard.toNat]? = some group

private theorem command_injective : Function.Injective command := by
  intro left right same
  cases left with
  | drainNode nodeId =>
      cases right with
      | drainNode other => simpa [command] using same
      | reassignVShard vshard group => cases same
  | reassignVShard vshard group =>
      cases right with
      | drainNode nodeId => cases same
      | reassignVShard vshard' group' => simpa [command] using same

end OperatorRequest

namespace Intent

variable {shardCount v : UInt32} {intent : Intent}

private theorem after_of_lt {log : List Bytes} {position later : Nat}
    (below : position < later) :
    after shardCount v log later =
      ((log.take later).drop (position + 1)).foldl (afterPayload shardCount)
        (after shardCount v log (position + 1)) := by
  have whole := List.take_append_drop (position + 1) (log.take later)
  rw [List.take_take, min_eq_left (Nat.succ_le_of_lt below)] at whole
  rw [after, after, ← List.foldl_append, whole]

/-- A node that drains goes on draining. -/
theorem mem_draining_foldl {nodeId : String}
    (draining : nodeId ∈ intent.draining) (payloads : List Bytes) :
    nodeId ∈ (payloads.foldl (afterPayload shardCount) intent).draining := by
  induction payloads generalizing intent with
  | nil =>
      exact draining
  | cons payload rest inductionHypothesis =>
      apply inductionHypothesis
      rw [afterPayload]
      cases decodeCommand payload with
      | none =>
          exact draining
      | some command =>
          cases command with
          | drainNode other =>
              simp [perform, draining]
          | reassignVShard vshard group =>
              dsimp only [Option.elim_some, perform]
              split
              · exact draining
              · exact draining

/-- A virtual shard stays where it is until an entry reassigns it. -/
theorem vshards_foldl {vshard : UInt32} {payloads : List Bytes}
    (untouched : ∀ payload ∈ payloads, ∀ group,
      decodeCommand payload ≠ some (.reassignVShard vshard group)) :
    (payloads.foldl (afterPayload shardCount)
        intent).vshards[vshard.toNat]? = intent.vshards[vshard.toNat]? := by
  induction payloads generalizing intent with
  | nil =>
      rfl
  | cons payload rest inductionHypothesis =>
      rw [List.forall_mem_cons] at untouched
      rw [List.foldl_cons, inductionHypothesis untouched.2, afterPayload]
      cases decoded : decodeCommand payload with
      | none =>
          rfl
      | some command =>
          cases command with
          | drainNode other =>
              rfl
          | reassignVShard other group =>
              have different : other.toNat ≠ vshard.toNat := by
                intro same
                rw [UInt32.toNat_inj] at same
                exact untouched.1 group (same ▸ decoded)
              dsimp only [Option.elim_some, perform]
              split
              · exact List.getElem?_set_ne different
              · rfl

end Intent

/-- What a list holds at a position it holds there when it has grown. -/
theorem getElem?_of_initial {α : Type} {items longer : List α}
    (grown : items <+: longer) {position : Nat} {item : α}
    (found : items[position]? = some item) :
    longer[position]? = some item := by
  obtain ⟨more, rfl⟩ := grown
  obtain ⟨inside, -⟩ := List.getElem?_eq_some_iff.mp found
  rw [List.getElem?_append_left inside, found]

theorem Reached.mono {shardCount v : UInt32} {log longer : List Bytes}
    {replica : Replica} (reached : Reached shardCount v log replica)
    (grown : log <+: longer) : Reached shardCount v longer replica := by
  induction reached with
  | created isNew =>
      exact .created isNew
  | view before isView inductionHypothesis =>
      exact .view inductionHypothesis isView
  | applied before committed inductionHypothesis =>
      exact .applied inductionHypothesis (getElem?_of_initial grown committed)
  | restored before atCut short reachedLonger atCutLonger =>
      exact .restored reachedLonger atCutLonger short

instance instDecidableIsView (op : RegistryOp) : Decidable op.IsView :=
  match op with
  | .registerAt _ _ => .isTrue trivial
  | .heartbeat _ _ _ => .isTrue trivial
  | .reportRaftLeader _ _ _ => .isTrue trivial
  | .reapDead _ _ _ => .isTrue trivial
  | .promoteOrphanedShards _ => .isTrue trivial
  | .markDraining _ => .isFalse id

namespace ControlGroup

variable {Member : Type} [DecidableEq Member]

/-- Every coordinator starts with its own new registry. -/
def begin (fresh : Member → Registry) : ControlGroup Member where
  log := []
  replica member := ⟨fresh member, 0⟩
  snapshots := []
  calls := []
  phase _ := .arrived
  submitted := []

def setPhase (group : ControlGroup Member) (number : Nat)
    (phase : CallPhase) : ControlGroup Member :=
  { group with
    phase := fun other => if other = number then phase else group.phase other }

def setReplica (group : ControlGroup Member) (member : Member)
    (replica : Replica) : ControlGroup Member :=
  { group with
    replica := fun other =>
      if other = member then replica else group.replica other }

/-- The handlers at a coordinator end with it. -/
def loseCallsAt (group : ControlGroup Member) (member : Member) :
    ControlGroup Member :=
  { group with
    phase := fun number =>
      match group.calls[number]?, group.phase number with
      | _, .answered outcome => .answered outcome
      | some call, phase => if call.coordinator = member then .lost else phase
      | none, phase => phase }

def enter (group : ControlGroup Member) (call : OperatorCall Member) :
    ControlGroup Member :=
  { group with calls := group.calls ++ [call] }

/-- The group commits the command of a call; its handler, if it still waits,
learns the entry's place. -/
def append (group : ControlGroup Member) (number : Nat)
    (request : OperatorRequest) : ControlGroup Member where
  log := group.log ++ [request.payload]
  replica := group.replica
  snapshots := group.snapshots
  calls := group.calls
  phase other :=
    match group.phase other with
    | .proposing =>
        if other = number then .committed group.log.length else .proposing
    | phase => phase
  submitted := group.submitted.erase number

def step (auth : Member → Auth) (address : Member → String)
    (fresh : Member → Registry) (group : ControlGroup Member) :
    ControlEvent Member → Option (ControlGroup Member)
  | .call coordinator authorization request =>
      -- A message that arrives has at most four megabytes.
      if request.payload.length < 2 ^ 32 then
        some (group.enter ⟨coordinator, authorization, request⟩)
      else
        none
  | .handle number =>
      match group.calls[number]?, group.phase number with
      | some call, .arrived =>
          match call.request.opening (auth call.coordinator)
              (group.replica call.coordinator).registry
              call.authorization with
          | .answers outcome => some (group.setPhase number (.answered outcome))
          | .proposes =>
              some
                { group.setPhase number .proposing with
                  submitted := group.submitted ++ [number] }
      | _, _ => none
  | .commit number =>
      match group.calls[number]? with
      | some call =>
          if number ∈ group.submitted then
            some (group.append number call.request)
          else
            none
      | none => none
  | .acknowledge number =>
      match group.calls[number]?, group.phase number with
      | some call, .committed position =>
          if position < (group.replica call.coordinator).position then
            some (group.setPhase number
              (.answered (.ok call.request.accepted)))
          else
            none
      | _, _ => none
  | .forward number leader =>
      match group.calls[number]?, group.phase number with
      | some call, .proposing =>
          if leader = call.coordinator then
            none
          else
            some ((group.setPhase number
              (.forwarded group.calls.length)).enter
                { call with coordinator := leader })
      | _, _ => none
  | .unreachable number leader reason =>
      match group.phase number with
      | .proposing =>
          some (group.setPhase number (.answered (.error (.unavailable
            ("control leader at " ++ address leader ++ " unreachable: " ++
              reason)))))
      | _ => none
  | .unavailable number reason =>
      match group.phase number with
      | .proposing =>
          some (group.setPhase number (.answered (.error (.unavailable
            ("control group cannot commit: " ++ reason)))))
      | _ => none
  | .relay number =>
      match group.phase number with
      | .forwarded next =>
          match group.phase next with
          | .answered outcome =>
              some (group.setPhase number (.answered outcome))
          | _ => none
      | _ => none
  | .relayFails number status =>
      match group.phase number with
      | .forwarded _ =>
          some (group.setPhase number (.answered (.error status)))
      | _ => none
  | .lose number =>
      match group.calls[number]?, group.phase number with
      | none, _ | _, .answered _ => none
      | some _, _ => some (group.setPhase number .lost)
  | .view coordinator op =>
      if op.IsView then
        let replica := group.replica coordinator
        some (group.setReplica coordinator
          { replica with registry := op.step replica.registry })
      else
        none
  | .applyNext coordinator =>
      let replica := group.replica coordinator
      match group.log[replica.position]? with
      | some payload =>
          some (group.setReplica coordinator
            { registry := (ControlApp.apply replica.registry payload).1
              position := replica.position + 1 })
      | none => none
  | .snapshot coordinator =>
      let replica := group.replica coordinator
      if (ControlApp.snapshotBytes replica.registry).length < 2 ^ 32 then
        some { group with snapshots := group.snapshots ++ [replica] }
      else
        none
  | .install coordinator taken =>
      match group.snapshots[taken]? with
      | some snapshot =>
          some (group.setReplica coordinator
            { registry := (ControlApp.restore
                (group.replica coordinator).registry
                (ControlApp.snapshotBytes snapshot.registry)).1
              position := snapshot.position })
      | none => none
  | .restart coordinator =>
      some ((group.loseCallsAt coordinator).setReplica coordinator
        ⟨fresh coordinator, 0⟩)

/-! ## What one step can do -/

/-- Every step of the group, with its guard. -/
inductive Moves (auth : Member → Auth) (fresh : Member → Registry)
    (before : ControlGroup Member) :
    ControlEvent Member → ControlGroup Member → Prop where
  | call (coordinator : Member) (authorization : Option String)
      (request : OperatorRequest)
      (short : request.payload.length < 2 ^ 32) :
      Moves auth fresh before (.call coordinator authorization request)
        (before.enter ⟨coordinator, authorization, request⟩)
  | refuse (number : Nat) (call : OperatorCall Member)
      (outcome : Except Status OperatorResponse)
      (asked : before.calls[number]? = some call)
      (opens : call.request.opening (auth call.coordinator)
        (before.replica call.coordinator).registry call.authorization =
          .answers outcome) :
      Moves auth fresh before (.handle number)
        (before.setPhase number (.answered outcome))
  | propose (number : Nat) (call : OperatorCall Member)
      (asked : before.calls[number]? = some call)
      (arrived : before.phase number = .arrived)
      (opens : call.request.opening (auth call.coordinator)
        (before.replica call.coordinator).registry call.authorization =
          .proposes) :
      Moves auth fresh before (.handle number)
        { before.setPhase number .proposing with
          submitted := before.submitted ++ [number] }
  | commit (number : Nat) (call : OperatorCall Member)
      (asked : before.calls[number]? = some call)
      (waiting : number ∈ before.submitted) :
      Moves auth fresh before (.commit number)
        (before.append number call.request)
  | acknowledge (number position : Nat) (call : OperatorCall Member)
      (asked : before.calls[number]? = some call)
      (committed : before.phase number = .committed position)
      (applied : position < (before.replica call.coordinator).position) :
      Moves auth fresh before (.acknowledge number)
        (before.setPhase number (.answered (.ok call.request.accepted)))
  | forward (number : Nat) (leader : Member) (call : OperatorCall Member)
      (asked : before.calls[number]? = some call)
      (proposing : before.phase number = .proposing) :
      Moves auth fresh before (.forward number leader)
        ((before.setPhase number (.forwarded before.calls.length)).enter
          { call with coordinator := leader })
  | abandon (event : ControlEvent Member) (number : Nat) (status : Status)
      (waiting : before.phase number ≠ .arrived) :
      Moves auth fresh before event
        (before.setPhase number (.answered (.error status)))
  | relay (number next : Nat) (outcome : Except Status OperatorResponse)
      (forwarded : before.phase number = .forwarded next)
      (answered : before.phase next = .answered outcome) :
      Moves auth fresh before (.relay number)
        (before.setPhase number (.answered outcome))
  | lose (number : Nat) (call : OperatorCall Member)
      (asked : before.calls[number]? = some call) :
      Moves auth fresh before (.lose number) (before.setPhase number .lost)
  | view (coordinator : Member) (op : RegistryOp) (isView : op.IsView) :
      Moves auth fresh before (.view coordinator op)
        (before.setReplica coordinator
          { registry := op.step (before.replica coordinator).registry
            position := (before.replica coordinator).position })
  | applyNext (coordinator : Member) (payload : Bytes)
      (next : before.log[(before.replica coordinator).position]? =
        some payload) :
      Moves auth fresh before (.applyNext coordinator)
        (before.setReplica coordinator
          { registry := (ControlApp.apply
              (before.replica coordinator).registry payload).1
            position := (before.replica coordinator).position + 1 })
  | snapshot (coordinator : Member)
      (short : (ControlApp.snapshotBytes
        (before.replica coordinator).registry).length < 2 ^ 32) :
      Moves auth fresh before (.snapshot coordinator)
        { before with
          snapshots := before.snapshots ++ [before.replica coordinator] }
  | install (coordinator : Member) (taken : Nat) (snapshot : Replica)
      (member : snapshot ∈ before.snapshots) :
      Moves auth fresh before (.install coordinator taken)
        (before.setReplica coordinator
          { registry := (ControlApp.restore
              (before.replica coordinator).registry
              (ControlApp.snapshotBytes snapshot.registry)).1
            position := snapshot.position })
  | restart (coordinator : Member) :
      Moves auth fresh before (.restart coordinator)
        ((before.loseCallsAt coordinator).setReplica coordinator
          ⟨fresh coordinator, 0⟩)

section Steps

variable {auth : Member → Auth} {address : Member → String}
variable {fresh : Member → Registry} {before after : ControlGroup Member}

private theorem moves_of_handle {number : Nat}
    (stepped : before.step auth address fresh (.handle number) =
      some after) :
    before.Moves auth fresh (.handle number) after := by
  rw [step] at stepped
  split at stepped
  next call asked arrived =>
    split at stepped
    next outcome opens =>
      cases stepped
      exact .refuse _ _ _ asked opens
    next opens =>
      cases stepped
      exact .propose _ _ asked arrived opens
  · cases stepped

private theorem moves_of_commit {number : Nat}
    (stepped : before.step auth address fresh (.commit number) =
      some after) :
    before.Moves auth fresh (.commit number) after := by
  rw [step] at stepped
  split at stepped
  next call asked =>
    split at stepped
    next waiting =>
      cases stepped
      exact .commit _ _ asked waiting
    · cases stepped
  · cases stepped

private theorem moves_of_acknowledge {number : Nat}
    (stepped : before.step auth address fresh (.acknowledge number) =
      some after) :
    before.Moves auth fresh (.acknowledge number) after := by
  rw [step] at stepped
  split at stepped
  next call position asked committed =>
    split at stepped
    next applied =>
      cases stepped
      exact .acknowledge _ _ _ asked committed applied
    · cases stepped
  · cases stepped

private theorem moves_of_forward {number : Nat} {leader : Member}
    (stepped : before.step auth address fresh (.forward number leader) =
      some after) :
    before.Moves auth fresh (.forward number leader) after := by
  rw [step] at stepped
  split at stepped
  next call asked proposing =>
    split at stepped
    · cases stepped
    · cases stepped
      exact .forward _ _ _ asked proposing
  · cases stepped

private theorem moves_of_relay {number : Nat}
    (stepped : before.step auth address fresh (.relay number) =
      some after) :
    before.Moves auth fresh (.relay number) after := by
  rw [step] at stepped
  split at stepped
  next next forwarded =>
    split at stepped
    next outcome answered =>
      cases stepped
      exact .relay _ _ _ forwarded answered
    · cases stepped
  · cases stepped

/-- A handler gives up waiting for the group or for another coordinator. -/
private theorem moves_of_abandon {event : ControlEvent Member}
    {number : Nat} {status : Status}
    (waiting : before.phase number = .proposing ∨
      ∃ next, before.phase number = .forwarded next)
    (result : before.setPhase number (.answered (.error status)) = after) :
    before.Moves auth fresh event after := by
  subst result
  apply Moves.abandon
  rcases waiting with proposing | ⟨next, forwarded⟩
  · simp [proposing]
  · simp [forwarded]

private theorem moves_of_lose {number : Nat}
    (stepped : before.step auth address fresh (.lose number) = some after) :
    before.Moves auth fresh (.lose number) after := by
  rw [step] at stepped
  split at stepped
  · cases stepped
  · cases stepped
  next call asked _ =>
    cases stepped
    exact .lose _ _ asked

/-- Every step is one of the moves. -/
theorem moves_of_step {event : ControlEvent Member}
    (stepped : before.step auth address fresh event = some after) :
    before.Moves auth fresh event after := by
  cases event with
  | call coordinator authorization request =>
      obtain ⟨short, result⟩ := Option.ite_none_right_eq_some.mp stepped
      cases result
      exact .call _ _ _ short
  | handle number =>
      exact moves_of_handle stepped
  | commit number =>
      exact moves_of_commit stepped
  | acknowledge number =>
      exact moves_of_acknowledge stepped
  | forward number leader =>
      exact moves_of_forward stepped
  | unreachable number leader reason =>
      rw [step] at stepped
      split at stepped
      next proposing =>
        exact moves_of_abandon (.inl proposing) (Option.some_inj.mp stepped)
      · cases stepped
  | unavailable number reason =>
      rw [step] at stepped
      split at stepped
      next proposing =>
        exact moves_of_abandon (.inl proposing) (Option.some_inj.mp stepped)
      · cases stepped
  | relay number =>
      exact moves_of_relay stepped
  | relayFails number status =>
      rw [step] at stepped
      split at stepped
      next next forwarded =>
        exact moves_of_abandon (.inr ⟨next, forwarded⟩)
          (Option.some_inj.mp stepped)
      · cases stepped
  | lose number =>
      exact moves_of_lose stepped
  | view coordinator op =>
      obtain ⟨isView, result⟩ := Option.ite_none_right_eq_some.mp stepped
      cases result
      exact .view _ _ isView
  | applyNext coordinator =>
      rw [step] at stepped
      split at stepped
      next payload next =>
        cases stepped
        exact .applyNext _ _ next
      · cases stepped
  | snapshot coordinator =>
      obtain ⟨short, result⟩ := Option.ite_none_right_eq_some.mp stepped
      cases result
      exact .snapshot _ short
  | install coordinator taken =>
      rw [step] at stepped
      split at stepped
      next snapshot found =>
        cases stepped
        exact .install _ _ _ (List.mem_of_getElem? found)
      · cases stepped
  | restart coordinator =>
      cases stepped
      exact .restart _

end Steps

/-- The calls and the log only grow. -/
theorem grows_of_moves {auth : Member → Auth} {fresh : Member → Registry}
    {before after : ControlGroup Member} {event : ControlEvent Member}
    (moves : before.Moves auth fresh event after) :
    before.calls <+: after.calls ∧ before.log <+: after.log := by
  cases moves with
  | call | forward =>
      exact ⟨List.prefix_append _ _, List.prefix_rfl⟩
  | commit =>
      exact ⟨List.prefix_rfl, List.prefix_append _ _⟩
  | _ =>
      exact ⟨List.prefix_rfl, List.prefix_rfl⟩

/-! ## The replicas follow the log -/

/-- Every replica and every snapshot is one of the group's log. -/
structure FollowsItsLog (shardCount v : UInt32)
    (group : ControlGroup Member) : Prop where
  reached : ∀ member, Reached shardCount v group.log (group.replica member)
  taken : ∀ snapshot ∈ group.snapshots,
    Reached shardCount v group.log snapshot ∧
      (ControlApp.snapshotBytes snapshot.registry).length < 2 ^ 32

section Invariants

variable {auth : Member → Auth} {address : Member → String}
variable {fresh : Member → Registry} {shardCount v : UInt32}
variable {before after group : ControlGroup Member}
variable {event : ControlEvent Member} {events : List (ControlEvent Member)}

theorem FollowsItsLog.setReplica
    (follows : before.FollowsItsLog shardCount v) {member : Member}
    {replica : Replica} (reached : Reached shardCount v before.log replica) :
    (before.setReplica member replica).FollowsItsLog shardCount v where
  reached other := by
    dsimp only [ControlGroup.setReplica]
    split
    · exact reached
    · exact follows.reached other
  taken := follows.taken

theorem FollowsItsLog.moves
    (isNew : ∀ member, ∃ timeout,
      newCoordinator shardCount v timeout = some (fresh member))
    (follows : before.FollowsItsLog shardCount v)
    (moves : before.Moves auth fresh event after) :
    after.FollowsItsLog shardCount v := by
  cases moves with
  | call | refuse | propose | acknowledge | forward | abandon | relay | lose =>
      exact ⟨follows.reached, follows.taken⟩
  | commit number call asked waiting =>
      have grown := List.prefix_append before.log [call.request.payload]
      refine ⟨fun member => (follows.reached member).mono grown, ?_⟩
      intro snapshot member
      obtain ⟨reached, short⟩ := follows.taken snapshot member
      exact ⟨reached.mono grown, short⟩
  | view coordinator op isView =>
      exact follows.setReplica (.view (follows.reached coordinator) isView)
  | applyNext coordinator payload next =>
      exact follows.setReplica (.applied (follows.reached coordinator) next)
  | snapshot coordinator short =>
      refine ⟨follows.reached, ?_⟩
      intro snapshot member
      rcases List.mem_append.mp member with earlier | isNow
      · exact follows.taken snapshot earlier
      · rw [List.mem_singleton] at isNow
        rw [isNow]
        exact ⟨follows.reached coordinator, short⟩
  | install coordinator taken snapshot member =>
      obtain ⟨reached, short⟩ := follows.taken snapshot member
      exact follows.setReplica (.restored (follows.reached coordinator)
        reached (short.trans (by decide)))
  | restart coordinator =>
      obtain ⟨timeout, created⟩ := isNew coordinator
      have lost : (before.loseCallsAt coordinator).FollowsItsLog
          shardCount v := ⟨follows.reached, follows.taken⟩
      exact lost.setReplica (.created created)

theorem followsItsLog
    (isNew : ∀ member, ∃ timeout,
      newCoordinator shardCount v timeout = some (fresh member))
    (leads : Leads (step auth address fresh) (begin fresh) events group) :
    group.FollowsItsLog shardCount v := by
  refine Leads.invariant
    (fun _ group => group.FollowsItsLog shardCount v) ?_ ?_ leads
  · refine ⟨fun member => ?_, by simp [begin]⟩
    obtain ⟨timeout, created⟩ := isNew member
    exact .created created
  · intro _ current next reached follows stepped
    exact follows.moves isNew (moves_of_step stepped)

/-! ## What the handlers know -/

/-- The request of a call. -/
def requested (group : ControlGroup Member) (number : Nat) :
    Option OperatorRequest :=
  (group.calls[number]?).map OperatorCall.request

omit [DecidableEq Member] in
theorem requested_of_prefix (calls : before.calls <+: after.calls)
    {number : Nat} {request : OperatorRequest}
    (asked : before.requested number = some request) :
    after.requested number = some request := by
  obtain ⟨call, found, same⟩ := Option.map_eq_some_iff.mp asked
  rw [requested, getElem?_of_initial calls found, Option.map_some, same]

/-- What a handler knows when it stands there. -/
def Justified (group : ControlGroup Member) (number : Nat) :
    CallPhase → Prop
  | .committed position => ∃ request, group.requested number = some request ∧
      group.log[position]? = some request.payload
  | .forwarded next => ∃ request, group.requested number = some request ∧
      group.requested next = some request
  | .answered (.ok response) => response.ok = true →
      ∃ (request : OperatorRequest) (position : Nat),
        group.requested number = some request ∧
        response = request.accepted ∧
        group.log[position]? = some request.payload
  | _ => True

omit [DecidableEq Member] in
theorem Justified.grows {number : Nat} {phase : CallPhase}
    (justified : before.Justified number phase)
    (calls : before.calls <+: after.calls) (log : before.log <+: after.log) :
    after.Justified number phase := by
  unfold Justified at justified ⊢
  split at justified
  · obtain ⟨request, asked, logged⟩ := justified
    exact ⟨request, requested_of_prefix calls asked,
      getElem?_of_initial log logged⟩
  · obtain ⟨request, asked, passed⟩ := justified
    exact ⟨request, requested_of_prefix calls asked,
      requested_of_prefix calls passed⟩
  · intro isOk
    obtain ⟨request, position, asked, same, logged⟩ := justified isOk
    exact ⟨request, position, requested_of_prefix calls asked, same,
      getElem?_of_initial log logged⟩
  · trivial

/-- Every handler's knowledge is justified. -/
def AllJustified (group : ControlGroup Member) : Prop :=
  ∀ number, group.Justified number (group.phase number)

omit [DecidableEq Member] in
theorem AllJustified.setPhase (justified : before.AllJustified) {number : Nat}
    {phase : CallPhase} (now : before.Justified number phase) :
    (before.setPhase number phase).AllJustified := by
  intro other
  dsimp only [ControlGroup.setPhase]
  split
  next same =>
    subst same
    exact now
  · exact justified other

omit [DecidableEq Member] in
/-- A refusal at the first step accepts nothing. -/
theorem justified_of_opening {registry : Registry} {number : Nat}
    {auth : Auth} {authorization : Option String} {request : OperatorRequest}
    {outcome : Except Status OperatorResponse}
    (opens : request.opening auth registry authorization =
      .answers outcome) :
    before.Justified number (.answered outcome) := by
  unfold OperatorRequest.opening at opens
  split at opens
  · cases opens
    trivial
  · split at opens
    · cases opens
      intro isOk
      cases isOk
    · cases opens

theorem AllJustified.moves (justified : before.AllJustified)
    (moves : before.Moves auth fresh event after) : after.AllJustified := by
  have grown := grows_of_moves moves
  cases moves with
  | call =>
      exact fun number => (justified number).grows grown.1 grown.2
  | refuse number call outcome asked opens =>
      exact justified.setPhase (justified_of_opening opens)
  | propose number call asked arrived opens =>
      have proposed : (before.setPhase number .proposing).AllJustified :=
        justified.setPhase trivial
      exact proposed
  | commit number call asked waiting =>
      intro other
      have known := (justified other).grows grown.1 grown.2
      dsimp only [append]
      cases current : before.phase other with
      | proposing =>
          dsimp only
          split
          next same =>
            refine ⟨call.request, ?_, by simp⟩
            rw [requested, same, asked, Option.map_some]
          · trivial
      | _ =>
          rw [current] at known
          exact known
  | acknowledge number position call asked committed applied =>
      obtain ⟨request, known, logged⟩ := committed ▸ justified number
      refine justified.setPhase ?_
      have same : request = call.request := by
        rw [requested, asked, Option.map_some, Option.some.injEq] at known
        exact known.symm
      exact fun _ => ⟨request, position, known, by rw [same], logged⟩
  | forward number leader call asked proposing =>
      have grownAll : (before.enter
          { call with coordinator := leader }).AllJustified :=
        fun other => (justified other).grows grown.1 grown.2
      refine grownAll.setPhase ⟨call.request, ?_, ?_⟩
      · refine requested_of_prefix grown.1 ?_
        rw [requested, asked, Option.map_some]
      · simp [requested, enter]
  | abandon | lose =>
      exact justified.setPhase trivial
  | relay number next outcome forwarded answered =>
      obtain ⟨request, asked, passed⟩ := forwarded ▸ justified number
      have known := answered ▸ justified next
      refine justified.setPhase ?_
      cases outcome with
      | error status =>
          trivial
      | ok response =>
          intro isOk
          obtain ⟨other, position, otherPassed, same, logged⟩ := known isOk
          rw [passed, Option.some.injEq] at otherPassed
          rw [← otherPassed] at same logged
          exact ⟨request, position, asked, same, logged⟩
  | view | applyNext | snapshot | install =>
      exact justified
  | restart coordinator =>
      intro number
      have known := justified number
      dsimp only [setReplica, loseCallsAt]
      split
      next current =>
        rw [current] at known
        exact known
      · split
        · trivial
        · exact known
      · exact known

private theorem allJustified
    (leads : Leads (step auth address fresh) (begin fresh) events group) :
    group.AllJustified := by
  refine Leads.invariant (fun _ group => group.AllJustified) ?_ ?_ leads
  · exact fun _ => trivial
  · intro _ current next reached justified stepped
    exact justified.moves (moves_of_step stepped)

/-! ## Where the entries come from -/

/-- Every call has the credential and the request of an operator's call. -/
def AllAsked (events : List (ControlEvent Member))
    (group : ControlGroup Member) : Prop :=
  ∀ call ∈ group.calls, call.request.payload.length < 2 ^ 32 ∧
    ∃ coordinator,
      .call coordinator call.authorization call.request ∈ events

theorem AllAsked.moves (asked : before.AllAsked events)
    (moves : before.Moves auth fresh event after) :
    after.AllAsked (events ++ [event]) := by
  have kept : before.AllAsked (events ++ [event]) := by
    intro call member
    obtain ⟨short, coordinator, called⟩ := asked call member
    exact ⟨short, coordinator, List.mem_append_left _ called⟩
  cases moves with
  | call coordinator authorization request short =>
      intro call member
      rcases List.mem_append.mp member with earlier | isNew
      · exact kept call earlier
      · rw [List.mem_singleton] at isNew
        subst isNew
        exact ⟨short, coordinator, by simp⟩
  | forward number leader call found proposing =>
      intro other member
      rcases List.mem_append.mp member with earlier | isNew
      · exact kept other earlier
      · rw [List.mem_singleton] at isNew
        subst isNew
        exact kept call (List.mem_of_getElem? found)
  | _ =>
      exact kept

theorem allAsked
    (leads : Leads (step auth address fresh) (begin fresh) events group) :
    group.AllAsked events := by
  refine Leads.invariant (fun events group => group.AllAsked events) ?_ ?_
    leads
  · exact fun call member => absurd member List.not_mem_nil
  · intro events current next reached asked stepped
    exact asked.moves (moves_of_step stepped)

/-- The handler of the call was run when its credential had the operator's scope
at its coordinator and its request passed the check there. -/
def Cleared (auth : Member → Auth) (address : Member → String)
    (fresh : Member → Registry) (events : List (ControlEvent Member))
    (group : ControlGroup Member) (number : Nat) : Prop :=
  ∃ call earlier later moment, group.calls[number]? = some call ∧
    events = earlier ++ .handle number :: later ∧
    Leads (step auth address fresh) (begin fresh) earlier moment ∧
    (auth call.coordinator).require call.authorization .operator = .ok () ∧
    call.request.check (moment.replica call.coordinator).registry = .ok ()

theorem Cleared.grows {number : Nat}
    (cleared : before.Cleared auth address fresh events number)
    (calls : before.calls <+: after.calls) (event : ControlEvent Member) :
    after.Cleared auth address fresh (events ++ [event]) number := by
  obtain ⟨call, earlier, later, moment, found, shape, reached, allowed,
    checked⟩ := cleared
  refine ⟨call, earlier, later ++ [event], moment,
    getElem?_of_initial calls found, ?_, reached, allowed, checked⟩
  rw [shape, List.append_assoc, List.cons_append]

/-- The calls that own the entries: each call owns at most one, of its own
command, and none that is still to be committed. -/
structure Attributed (auth : Member → Auth) (address : Member → String)
    (fresh : Member → Registry) (events : List (ControlEvent Member))
    (group : ControlGroup Member) (owners : List Nat) : Prop where
  once : (owners ++ group.submitted).Nodup
  logged : List.Forall₂
    (fun number payload => ∃ request, group.requested number = some request ∧
      payload = request.payload) owners group.log
  cleared : ∀ number ∈ owners ++ group.submitted,
    group.Cleared auth address fresh events number
  handled : ∀ number ∈ owners ++ group.submitted,
    group.phase number ≠ .arrived

/-- A step that neither proposes nor commits. -/
theorem Attributed.grows {owners : List Nat}
    (attributed : before.Attributed auth address fresh events owners)
    (calls : before.calls <+: after.calls) (log : after.log = before.log)
    (submitted : after.submitted = before.submitted)
    (handled : ∀ number, before.phase number ≠ .arrived →
      after.phase number ≠ .arrived) (event : ControlEvent Member) :
    after.Attributed auth address fresh (events ++ [event]) owners where
  once := submitted ▸ attributed.once
  logged := by
    rw [log]
    refine attributed.logged.imp ?_
    rintro number payload ⟨request, asked, same⟩
    exact ⟨request, requested_of_prefix calls asked, same⟩
  cleared number member :=
    (attributed.cleared number (submitted ▸ member)).grows calls event
  handled number member :=
    handled number (attributed.handled number (submitted ▸ member))

omit [DecidableEq Member] in
private theorem setPhase_ne_arrived {number other : Nat} {phase : CallPhase}
    (known : phase ≠ .arrived) (handled : before.phase other ≠ .arrived) :
    (before.setPhase number phase).phase other ≠ .arrived := by
  dsimp only [setPhase]
  split
  · exact known
  · exact handled

theorem Attributed.moves {owners : List Nat}
    (leads : Leads (step auth address fresh) (begin fresh) events before)
    (attributed : before.Attributed auth address fresh events owners)
    (moves : before.Moves auth fresh event after) :
    ∃ owners, after.Attributed auth address fresh (events ++ [event])
      owners := by
  have grown := grows_of_moves moves
  cases moves with
  | call | view | applyNext | snapshot | install =>
      exact ⟨owners, attributed.grows grown.1 rfl rfl (fun _ => id) _⟩
  | refuse | acknowledge | forward | abandon | relay | lose =>
      exact ⟨owners, attributed.grows grown.1 rfl rfl
        (fun _ => setPhase_ne_arrived nofun) _⟩
  | propose number call asked arrived opens =>
      rw [OperatorRequest.opening_eq_proposes_iff] at opens
      have handled : ∀ other, before.phase other ≠ .arrived →
          (before.setPhase number .proposing).phase other ≠ .arrived :=
        fun _ => setPhase_ne_arrived nofun
      have unknown : number ∉ owners ++ before.submitted :=
        fun member => attributed.handled number member arrived
      have now : before.Cleared auth address fresh
          (events ++ [.handle number]) number :=
        ⟨call, events, [], before, asked, rfl, leads, opens.1, opens.2⟩
      refine ⟨owners, ?_, attributed.logged, ?_, ?_⟩
      · rw [← List.append_assoc, ← List.concat_eq_append]
        exact attributed.once.concat unknown
      · intro other member
        rw [← List.append_assoc, List.mem_append, List.mem_singleton] at member
        rcases member with earlier | rfl
        · exact (attributed.cleared other earlier).grows grown.1 _
        · exact now
      · intro other member
        rw [← List.append_assoc, List.mem_append, List.mem_singleton] at member
        rcases member with earlier | rfl
        · exact handled other (attributed.handled other earlier)
        · simp [setPhase]
  | commit number call asked waiting =>
      have moved : (owners ++ before.submitted).Perm
          (owners ++ [number] ++ before.submitted.erase number) := by
        rw [List.append_assoc]
        exact (List.perm_cons_erase waiting).append_left owners
      refine ⟨owners ++ [number], ?_, ?_, ?_, ?_⟩
      · exact moved.nodup_iff.mp attributed.once
      · have owned : before.requested number = some call.request := by
          rw [requested, asked, Option.map_some]
        exact List.rel_append attributed.logged
          (.cons ⟨call.request, owned, rfl⟩ .nil)
      · intro other member
        exact (attributed.cleared other (moved.mem_iff.mpr member)).grows
          grown.1 _
      · intro other member
        have handled := attributed.handled other (moved.mem_iff.mpr member)
        dsimp only [append]
        cases current : before.phase other with
        | arrived => exact absurd current handled
        | proposing =>
            dsimp only
            split
            · simp
            · simp
        | _ => simp
  | restart coordinator =>
      refine ⟨owners, attributed.grows grown.1 rfl rfl ?_ _⟩
      intro number handled
      dsimp only [setReplica, loseCallsAt]
      split
      · simp
      · split
        · simp
        · exact handled
      · exact handled

private theorem exists_attributed
    (leads : Leads (step auth address fresh) (begin fresh) events group) :
    ∃ owners, group.Attributed auth address fresh events owners := by
  have always := Leads.invariant
    (fun events group =>
      Leads (step auth address fresh) (begin fresh) events group ∧
        ∃ owners, group.Attributed auth address fresh events owners)
    ?_ ?_ leads
  · exact always.2
  · refine ⟨leads_nil.mpr rfl, [], List.nodup_nil, .nil, ?_, ?_⟩
    · exact fun number member => absurd member List.not_mem_nil
    · exact fun number member => absurd member List.not_mem_nil
  · rintro events current next reached ⟨leads, owners, attributed⟩ stepped
    refine ⟨?_, attributed.moves leads (moves_of_step stepped)⟩
    rw [leads_append]
    exact ⟨current, leads, by simpa using stepped⟩

/-- Every entry of the log is the command of a call of its own, made with a
credential that had the operator's scope at the coordinator that proposed it,
where the command passed the check; without such a credential no replica's
intent ever changes. -/
theorem log_holds_authorized_commands (auth : Member → Auth)
    (address : Member → String) (fresh : Member → Registry)
    (shardCount v : UInt32)
    (isNew : ∀ member, ∃ timeout,
      newCoordinator shardCount v timeout = some (fresh member))
    (events : List (ControlEvent Member)) (group : ControlGroup Member)
    (leads : Leads (step auth address fresh) (begin fresh) events group) :
    (∃ owners : List Nat, owners.Nodup ∧
      List.Forall₂
        (fun number payload => ∃ request,
          group.requested number = some request ∧ payload = request.payload)
        owners group.log ∧
      ∀ number ∈ owners, group.Cleared auth address fresh events number) ∧
    (∀ call ∈ group.calls, ∃ coordinator,
      .call coordinator call.authorization call.request ∈ events) ∧
    ((∀ coordinator authorization request,
        .call coordinator authorization request ∈ events →
        ∀ member, (auth member).require authorization .operator ≠ .ok ()) →
      group.log = [] ∧ ∀ member,
        (group.replica member).registry.intent =
          Intent.initial shardCount v) := by
  obtain ⟨owners, attributed⟩ := exists_attributed leads
  have asked := allAsked leads
  refine ⟨⟨owners, (List.nodup_append.mp attributed.once).1,
    attributed.logged, ?_⟩, fun call member => (asked call member).2, ?_⟩
  · intro number member
    exact attributed.cleared number (List.mem_append_left _ member)
  · intro unauthorized
    have noOwners : owners = [] := by
      rw [List.eq_nil_iff_forall_not_mem]
      intro number member
      obtain ⟨call, -, -, -, found, -, -, allowed, -⟩ :=
        attributed.cleared number (List.mem_append_left _ member)
      obtain ⟨-, coordinator, called⟩ :=
        asked call (List.mem_of_getElem? found)
      exact unauthorized _ _ _ called call.coordinator allowed
    have noLog : group.log = [] := by
      have sameLength := attributed.logged.length_eq
      rw [noOwners] at sameLength
      exact List.length_eq_zero_iff.mp sameLength.symm
    refine ⟨noLog, fun member => ?_⟩
    have reached := (followsItsLog isNew leads).reached member
    rw [(followsLog_of_reached reached).intent, noLog]
    simp [Intent.after]

/-! ### A forwarded reassignment -/

end Invariants

namespace Forwarded

/-- Both coordinators know the operator's token. -/
def auth (_ : Bool) : Auth where
  tokens := (∅ : Std.ExtTreeMap String Scope).insert "admin" .operator
  enabled := true

def address (leads : Bool) : String :=
  if leads then "http://c1" else "http://c2"

def fresh (_ : Bool) : Registry :=
  TwoCoordinators.fresh

/-- A follower takes the call and forwards it. -/
def run : List (ControlEvent Bool) :=
  [.call false (some "Bearer admin") (.reassignVShard 2 1), .handle 0,
    .forward 0 true, .handle 1, .commit 1, .applyNext true, .acknowledge 1,
    .relay 0, .applyNext false]

def finish : ControlGroup Bool :=
  (replay (step auth address fresh) (begin fresh) run).getD (begin fresh)

theorem leads_finish :
    Leads (step auth address fresh) (begin fresh) run finish :=
  rfl

theorem fresh_isNew (member : Bool) :
    ∃ timeout, newCoordinator 2 4 timeout = some (fresh member) :=
  ⟨15000, TwoCoordinators.fresh_isNew⟩

theorem log_holds_authorized_commands_forwarded :
    ∃ owners : List Nat, owners.Nodup ∧
      List.Forall₂
        (fun number payload => ∃ request,
          finish.requested number = some request ∧ payload = request.payload)
        owners finish.log ∧
      ∀ number ∈ owners, finish.Cleared auth address fresh run number :=
  (log_holds_authorized_commands auth address fresh 2 4 fresh_isNew run finish
    leads_finish).1

end Forwarded

section Invariants

variable {auth : Member → Auth} {address : Member → String}
variable {fresh : Member → Registry} {shardCount v : UInt32}
variable {group : ControlGroup Member} {events : List (ControlEvent Member)}

/-! ## Acknowledged requests -/

/-- A request that passed the check at a replica of the group names a virtual
shard and a group of the cluster. -/
theorem inRange_of_cleared
    (isNew : ∀ member, ∃ timeout,
      newCoordinator shardCount v timeout = some (fresh member))
    {number : Nat} {vshard target : UInt32}
    (cleared : group.Cleared auth address fresh events number)
    (asked : group.requested number = some (.reassignVShard vshard target)) :
    vshard.toNat < v.toNat ∧ target < shardCount := by
  obtain ⟨call, earlier, later, moment, found, -, leads, -, checked⟩ := cleared
  rw [requested, found, Option.map_some, Option.some.injEq] at asked
  have reached := (followsItsLog isNew leads).reached call.coordinator
  have follows := followsLog_of_reached reached
  rw [asked, OperatorRequest.check, Registry.validateReassign_eq_ok_iff,
    follows.configured, follows.vshards, Intent.length_after] at checked
  exact checked

/-- An entry with the request's command is owned by a call with the same
request. -/
theorem exists_owner
    (leads : Leads (step auth address fresh) (begin fresh) events group)
    {number position : Nat} {request : OperatorRequest}
    (asked : group.requested number = some request)
    (logged : group.log[position]? = some request.payload) :
    ∃ owner, group.requested owner = some request ∧
      group.Cleared auth address fresh events owner := by
  have short : ∀ {other : Nat} {known : OperatorRequest},
      group.requested other = some known → known.payload.length < 2 ^ 32 := by
    intro other known isAsked
    obtain ⟨call, found, rfl⟩ := Option.map_eq_some_iff.mp isAsked
    exact (allAsked leads call (List.mem_of_getElem? found)).1
  obtain ⟨owners, attributed⟩ := exists_attributed leads
  obtain ⟨inside, here⟩ := List.getElem?_eq_some_iff.mp logged
  have owned := attributed.logged.length_eq ▸ inside
  obtain ⟨known, ownerAsked, same⟩ := attributed.logged.get owned inside
  have member : owners[position] ∈ owners ++ group.submitted :=
    List.mem_append_left _ (List.getElem_mem owned)
  refine ⟨owners[position], ?_, attributed.cleared _ member⟩
  rw [List.get_eq_getElem] at ownerAsked
  rw [List.get_eq_getElem, here] at same
  have sameCommand : request.command = known.command := by
    rw [← Option.some.injEq, ← OperatorRequest.decodeCommand_payload
      (short asked), same,
      OperatorRequest.decodeCommand_payload (short ownerAsked)]
  rw [ownerAsked, OperatorRequest.command_injective sameCommand]

/-- Once an operator is told that a request was accepted, its command is in the
log for good: however it got there, every replica that has applied the entry
shows the request's effect until a later entry reassigns the same virtual
shard. -/
theorem acknowledged_request_stays_in_force (auth : Member → Auth)
    (address : Member → String) (fresh : Member → Registry)
    (shardCount v : UInt32)
    (isNew : ∀ member, ∃ timeout,
      newCoordinator shardCount v timeout = some (fresh member))
    (events : List (ControlEvent Member)) (group : ControlGroup Member)
    (leads : Leads (step auth address fresh) (begin fresh) events group)
    (number : Nat) (response : OperatorResponse)
    (answered : group.phase number = .answered (.ok response))
    (isOk : response.ok = true) :
    ∃ (request : OperatorRequest) (position : Nat),
      group.requested number = some request ∧
      response = request.accepted ∧
      group.log[position]? = some request.payload ∧
      ∀ member, position < (group.replica member).position →
        request.InForce (group.replica member).registry
          ((group.log.take (group.replica member).position).drop
            (position + 1)) := by
  obtain ⟨request, position, asked, same, logged⟩ :=
    (answered ▸ allJustified leads number) isOk
  refine ⟨request, position, asked, same, logged, ?_⟩
  intro member passed
  have reached := (followsItsLog isNew leads).reached member
  have follows := followsLog_of_reached reached
  obtain ⟨owner, ownerAsked, cleared⟩ := exists_owner leads asked logged
  obtain ⟨call, found, isRequest⟩ := Option.map_eq_some_iff.mp asked
  have short := (allAsked leads call (List.mem_of_getElem? found)).1
  rw [isRequest] at short
  have intent := follows.intent
  rw [Intent.after_of_lt passed, Intent.after_succ shardCount v logged,
    Intent.afterPayload, OperatorRequest.decodeCommand_payload short,
    Option.elim_some] at intent
  cases request with
  | drainNode nodeId =>
      have draining :
          nodeId ∈ (group.replica member).registry.intent.draining := by
        rw [intent]
        apply Intent.mem_draining_foldl
        simp [OperatorRequest.command, Intent.perform]
      exact draining
  | reassignVShard vshard target =>
      intro untouched
      have inRange := inRange_of_cleared isNew cleared ownerAsked
      have shown : (group.replica member).registry.intent.vshards[
          vshard.toNat]? = some target := by
        have length := Intent.length_after shardCount v group.log position
        rw [intent, Intent.vshards_foldl untouched, OperatorRequest.command,
          Intent.perform, length, if_pos inRange, List.getElem?_set_self]
        rw [length]
        exact inRange.1
      exact shown

end Invariants

theorem acknowledged_request_stays_in_force_forwarded :
    ∃ (request : OperatorRequest) (position : Nat),
      Forwarded.finish.requested 0 = some request ∧
      (OperatorRequest.reassignVShard 2 1).accepted = request.accepted ∧
      Forwarded.finish.log[position]? = some request.payload ∧
      ∀ member, position < (Forwarded.finish.replica member).position →
        request.InForce (Forwarded.finish.replica member).registry
          ((Forwarded.finish.log.take
            (Forwarded.finish.replica member).position).drop
              (position + 1)) :=
  acknowledged_request_stays_in_force Forwarded.auth Forwarded.address
    Forwarded.fresh 2 4 Forwarded.fresh_isNew Forwarded.run Forwarded.finish
    Forwarded.leads_finish 0 _ rfl rfl

end ControlGroup

end AetherEngine.Coordinator
