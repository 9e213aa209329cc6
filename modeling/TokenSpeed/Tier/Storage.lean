import TokenSpeed.Coordinator.Storage

/-!
# L3 storage tickets

`StorageTransferManager` of `cache/tier/storage_manager.{h,cpp}`. The map of operations is the list of
its tickets in the order of their ids; the set of negative keys is the queue that bounds it. The
counters of dropped backups are left out.
-/

namespace TokenSpeed

/-- `StorageKind` of a ticket; a cancellation has none. -/
inductive StorageKind where
  | query
  | get
  | put
  deriving DecidableEq, Repr

structure StoragePressure where
  queuedOperations : Int
  queuedBytes : Int
  oldestOperationUs : Int
  deriving DecidableEq, Repr

/-- The limits of `StorageConfig` the tickets are under. -/
structure StorageConfig where
  maxOperations : Nat
  maxKeysPerOperation : Nat
  maxHostBlocks : Nat
  metadataEntries : Nat
  pressureHigh : StoragePressure
  pressureLow : StoragePressure
  deriving DecidableEq, Repr

/-- `StorageOperation`: what a worker is handed. -/
inductive StorageOperation where
  | query (opId : Nat) (keys : List CacheKey)
  | get (opId : Nat) (keys : List CacheKey) (hostBlocks : List Nat)
  | put (opId : Nat) (keys : List CacheKey) (hostBlocks : List Nat)
  | cancel (opId : Nat)
  deriving DecidableEq, Repr

def StorageOperation.ticket? : StorageOperation → Option Nat
  | .query opId _ | .get opId _ _ | .put opId _ _ => some opId
  | .cancel _ => none

structure StorageDone where
  opId : Nat
  success : List Nat
  retired : Bool
  objectFailures : List Nat
  deriving DecidableEq, Repr

structure StorageTicket where
  kind : StorageKind
  keys : List CacheKey
  blocks : List CacheBlockLocation := []
  success : List Nat := []
  tailPrior : ContentHash := []
  tail : Option TailPublication := none
  completed : Bool := false
  detached : Bool := false
  quarantined : Bool := false

/-- `StorageTransferManager`, with the coordinator it refers to. -/
structure StorageTransferManager where
  coordinator : CacheCoordinator
  config : StorageConfig
  operations : List (Nat × StorageTicket) := []
  backupCandidates : List CacheKey := []
  negative : List CacheKey := []
  commands : List StorageOperation := []
  nextId : Nat := 1
  pressureGateClosed : Bool := false

namespace StorageTransferManager

variable (m : StorageTransferManager)

def uint64Max : Nat := 18446744073709551615

def takeId : Result (Nat × StorageTransferManager) := do
  assert (m.nextId != uint64Max) "L3 operation ids exhausted"
  pure (m.nextId, { m with nextId := m.nextId + 1 })

def numHeldBlocks : Nat := (m.operations.map fun x => x.2.blocks.length).sum

def numQuarantined : Nat := m.operations.countP fun x => x.2.quarantined

def canStart : Bool :=
  !m.pressureGateClosed && decide (m.operations.length < m.config.maxOperations) && m.numQuarantined == 0

def availableHostCredits : Nat := m.config.maxHostBlocks - m.numHeldBlocks

def find (id : Nat) : Option StorageTicket := (m.operations.find? fun x => x.1 == id).map (·.2)

variable (retired : Bool) (pressure : StoragePressure) (id : Nat) (ticket : StorageTicket) (event : StorageDone)

def setTicket : StorageTransferManager :=
  { m with operations := m.operations.map fun x => if x.1 == id then (id, ticket) else x }

def eraseTicket : Result StorageTransferManager := do
  let c ← ticket.blocks.foldlM CacheCoordinator.dropHost m.coordinator
  pure { m with coordinator := c, operations := m.operations.filter fun x => !(x.1 == id) }

def start (command : StorageOperation) : StorageTransferManager :=
  { m with operations := m.operations ++ [(id, ticket)], commands := m.commands ++ [command] }

/-! ## Pressure -/

def StoragePressure.nonnegative : Bool :=
  decide (0 ≤ pressure.queuedOperations) && decide (0 ≤ pressure.queuedBytes) &&
    decide (0 ≤ pressure.oldestOperationUs)

def gateAfter : Bool :=
  if m.pressureGateClosed then
    let low := m.config.pressureLow
    !(decide (pressure.queuedOperations ≤ low.queuedOperations) && decide (pressure.queuedBytes ≤ low.queuedBytes) &&
      decide (pressure.oldestOperationUs ≤ low.oldestOperationUs))
  else
    let high := m.config.pressureHigh
    decide (high.queuedOperations ≤ pressure.queuedOperations) || decide (high.queuedBytes ≤ pressure.queuedBytes) ||
      decide (high.oldestOperationUs ≤ pressure.oldestOperationUs)

def updatePressure : Result StorageTransferManager := do
  assert (StoragePressure.nonnegative pressure) "L3 pressure observations cannot be negative"
  pure
    { m with
      pressureGateClosed := m.gateAfter pressure
      backupCandidates := if m.gateAfter pressure then [] else m.backupCandidates }

/-! ## Reads -/

/-- `StartQuery`; id 0 means that none was started. -/
def startQuery (keys : List CacheKey) : Result (Nat × StorageTransferManager) :=
  if keys.isEmpty || !m.canStart || m.availableHostCredits == 0 || decide
    (m.config.maxKeysPerOperation < keys.length) then
    pure (0, m)
  else do
    let (id, m) ← m.takeId
    pure (id, m.start id { kind := .query, keys := keys } (.query id keys))

def isCompleted : Bool :=
  match m.find id with
  | none => true
  | some ticket => ticket.completed

def isQuery : Bool := (m.find id).any fun ticket => ticket.kind == .query

def queryHits : List CacheKey :=
  (ticket.keys.zip ticket.success).filterMap fun row =>
    if row.2 != 0 && decide (row.1 ∉ m.negative) then some row.1 else none

def resolveBlocks (c : CacheCoordinator) (keys : List CacheKey) (blocks : List CacheBlockLocation) :
    Result (List Nat) :=
  (keys.zip blocks).mapM fun row =>
    GroupAllocator.resolveCacheBlockId (c.spec row.1.groupId).cacheBlocksPerLcmBlock row.2

def startRead (prompt : PromptPrefix) (hits : List CacheKey) : Result (Nat × StorageTransferManager) :=
  if !m.canStart || hits.isEmpty then pure (0, m)
  else do
    let (reservation, c) ← m.coordinator.reserveStoragePrefix prompt hits m.availableHostCredits
    let m := { m with coordinator := c }
    if reservation.keys.isEmpty then pure (0, m)
    else do
      let (id, m) ← m.takeId
      let hostBlocks ← resolveBlocks c reservation.keys reservation.blocks
      pure (id, m.start id
        { kind := .get
          keys := reservation.keys
          blocks := reservation.blocks
          tailPrior := reservation.tailPrior
          tail := reservation.tail }
        (.get id reservation.keys hostBlocks))

/-! ## Completion -/

def rememberNegative (key : CacheKey) : StorageTransferManager :=
  if key ∈ m.negative then m
  else
    let queue := m.negative ++ [key]
    { m with negative := queue.drop (queue.length - m.config.metadataEntries) }

structure StorageRow where
  key : CacheKey
  block : CacheBlockLocation
  success : Nat
  objectFailure : Nat

def noteFailure (detached : Bool) (row : StorageRow) : StorageTransferManager :=
  if !detached && row.objectFailure != 0 then m.rememberNegative row.key else m

def landRow (detached : Bool) (row : StorageRow) : Result (CacheBlockLocation × StorageTransferManager) :=
  let m := m.noteFailure detached row
  if retired && !detached && row.success != 0 then do
    let (block, c) ← m.coordinator.cacheHostBlock row.block row.key
    pure (block, { m with coordinator := c })
  else pure (row.block, m)

def landRows (retired detached : Bool) :
    List StorageRow → StorageTransferManager → Result (List CacheBlockLocation × StorageTransferManager)
  | [], m => pure ([], m)
  | row :: rest, m => do
    let (block, m) ← m.landRow retired detached row
    let (blocks, m) ← landRows retired detached rest m
    pure (block :: blocks, m)

def rowsOf : List StorageRow :=
  ((ticket.keys.zip ticket.blocks).zip (event.success.zip event.objectFailures)).map fun row =>
    ⟨row.1.1, row.1.2, row.2.1, row.2.2⟩

def validFacts (kind : StorageKind) (success objectFailure : Nat) : Bool :=
  decide (success ≤ 1) && decide (objectFailure ≤ 1) && !(success != 0 && objectFailure != 0) &&
    !(kind != .get && objectFailure != 0)

def landTail : Result StorageTransferManager :=
  match ticket.tail with
  | none => pure m
  | some tail =>
    if retired && !ticket.detached then do
      let c ← m.coordinator.cacheHostTail ticket.tailPrior tail
      pure { m with coordinator := c }
    else pure m

def landGet : Result (List CacheBlockLocation × StorageTransferManager) :=
  if ticket.kind = .get then do
    let (blocks, m) ← landRows event.retired ticket.detached (rowsOf ticket event) m
    let m ← m.landTail event.retired ticket
    pure (blocks, m)
  else pure (ticket.blocks, m)

def settleTicket (retired : Bool) : Result StorageTransferManager :=
  let m := m.setTicket id ticket
  if retired && (ticket.detached || ticket.kind == .put) then m.eraseTicket id ticket else pure m

def complete : Result StorageTransferManager :=
  match m.find event.opId with
  | none => pure m
  | some ticket =>
    if ticket.completed then pure m
    else do
      assert (event.success.length == ticket.keys.length && event.objectFailures.length == event.success.length)
        "L3 completion size differs from its immutable operation"
      assert ((event.success.zip event.objectFailures).all fun row => validFacts ticket.kind row.1 row.2)
        "Invalid L3 object completion facts"
      let (blocks, m) ← m.landGet ticket event
      m.settleTicket event.opId
        { ticket with
          blocks := blocks
          success := event.success
          completed := true
          quarantined := !event.retired }
        event.retired

/-- `Detach`: a completed ticket leaves, a command still in the outbox is withdrawn with its ticket,
anything else is asked to stop. -/
def detach : Result StorageTransferManager :=
  match m.find id with
  | none => pure m
  | some ticket =>
    if ticket.detached then pure m
    else if ticket.quarantined then pure (m.setTicket id { ticket with detached := true })
    else if ticket.completed then m.eraseTicket id ticket
    else if m.commands.any fun op => op.ticket? == some id then do
      let m ← m.eraseTicket id ticket
      pure { m with commands := m.commands.eraseP fun op => op.ticket? == some id }
    else
      pure
        { m.setTicket id { ticket with detached := true } with
          commands := m.commands ++ [.cancel id] }

/-! ## Backups -/

/-- One key of `QueueBackups`. -/
def queueBackup (queue : List CacheKey) (key : CacheKey) : List CacheKey :=
  (if queue.length = m.config.metadataEntries then queue.tail else queue) ++ [key]

def queueBackups (keys : List CacheKey) : StorageTransferManager :=
  if m.config.maxOperations < 2 ∨ m.config.maxHostBlocks < 2 then m
  else if m.pressureGateClosed then m
  else { m with backupCandidates := keys.foldl m.queueBackup m.backupCandidates }

def puts : List (Nat × StorageTicket) := m.operations.filter fun x => x.2.kind == .put

def backupLimit : Nat :=
  let backupBlocks := (m.puts.map fun x => x.2.blocks.length).sum
  min (min m.availableHostCredits (m.config.maxHostBlocks / 2 - backupBlocks)) m.config.maxKeysPerOperation

/-- What the loop of `StartBackups` collects. -/
structure BackupBatch where
  coord : CacheCoordinator
  keys : List CacheKey := []
  blocks : List CacheBlockLocation := []

/-- The loop of `StartBackups`: the candidates left over and the batch. -/
def collectBackups (limit : Nat) : List CacheKey → List CacheKey → BackupBatch → Result (List CacheKey × BackupBatch)
  | [], _, batch => pure ([], batch)
  | key :: rest, pending, batch =>
    if limit ≤ batch.blocks.length then pure (key :: rest, batch)
    else if key ∈ pending then collectBackups limit rest pending batch
    else do
      let (found, c) ← batch.coord.acquireHostCachedBlock key
      match found with
      | none => collectBackups limit rest (key :: pending) { batch with coord := c }
      | some l =>
        collectBackups limit rest (key :: pending)
          { coord := c, keys := batch.keys ++ [key], blocks := batch.blocks ++ [l] }

def startBackups : Result StorageTransferManager :=
  if !m.canStart || decide (m.config.maxOperations / 2 ≤ m.puts.length) || m.backupLimit == 0 then pure m
  else do
    let (rest, batch) ← collectBackups m.backupLimit m.backupCandidates (m.puts.flatMap fun x => x.2.keys)
      { coord := m.coordinator }
    let m := { m with coordinator := batch.coord, backupCandidates := rest }
    if batch.blocks.isEmpty then pure m
    else do
      let hostBlocks ← resolveBlocks batch.coord batch.keys batch.blocks
      let (id, m) ← m.takeId
      pure (m.start id { kind := .put, keys := batch.keys, blocks := batch.blocks } (.put id batch.keys hostBlocks))

def dropBackups : StorageTransferManager := { m with backupCandidates := [] }

def clearMetadata : Result StorageTransferManager := do
  assert m.operations.isEmpty "cannot clear L3 metadata while operations hold resources"
  pure { m.dropBackups with negative := [] }

def takeCommands : List StorageOperation × StorageTransferManager := (m.commands, { m with commands := [] })

end StorageTransferManager

/-! ## Runs -/

/-- A call on the manager. `prepareStorage` is a sequence of queries, reads and detaches. -/
inductive StorageEvent where
  | startQuery (keys : List CacheKey)
  | startRead (prompt : PromptPrefix) (hits : List CacheKey)
  | startBackups
  | queueBackups (keys : List CacheKey)
  | dropBackups
  | clearMetadata
  | takeCommands
  | detach (id : Nat)
  | done (event : StorageDone)
  | pressure (observed : StoragePressure)

structure StorageRun where
  manager : StorageTransferManager
  handed : List StorageOperation := []

namespace StorageRun

def call (m : StorageTransferManager) : StorageEvent → Result StorageTransferManager
  | .startQuery keys => do
    let (_, m) ← m.startQuery keys
    pure m
  | .startRead prompt hits => do
    let (_, m) ← m.startRead prompt hits
    pure m
  | .startBackups => m.startBackups
  | .queueBackups keys => pure (m.queueBackups keys)
  | .dropBackups => pure m.dropBackups
  | .clearMetadata => m.clearMetadata
  | .takeCommands => pure m.takeCommands.2
  | .detach id => m.detach id
  | .done event => m.complete event
  | .pressure observed => m.updatePressure observed

def handedBy (m : StorageTransferManager) : StorageEvent → List StorageOperation
  | .takeCommands => m.takeCommands.1
  | _ => []

def step (s : StorageRun) (event : StorageEvent) : Result StorageRun := do
  let m ← call s.manager event
  pure { manager := m, handed := s.handed ++ handedBy s.manager event }

def Step (s s' : StorageRun) : Prop := ∃ event, step s event = .ok s'

def Runs : StorageRun → StorageRun → Prop := Relation.ReflTransGen Step

end StorageRun

/-! ## What a call may do to a ticket -/

def MayRelease (s : StorageRun) (event : StorageEvent) (id : Nat) (ticket : StorageTicket) : Prop :=
  (∃ e, event = .done e ∧ e.opId = id ∧ e.retired = true) ∨
    (event = .detach id ∧ ticket.completed = true ∧ ticket.quarantined = false) ∨
    (event = .detach id ∧ (∃ op ∈ s.manager.commands, op.ticket? = some id) ∧ ∀ op ∈ s.handed, op.ticket? ≠ some id)

/-- Row `i` of a ticket has not been reported successful by a retired completion. -/
def StorageTicket.Pending (ticket : StorageTicket) (i : Nat) : Prop :=
  ticket.completed = false ∨ ticket.quarantined = true ∨ ticket.success.getD i 0 = 0

/-- The completion that lands row `i` of a ticket. -/
def Lands (event : StorageEvent) (id : Nat) (ticket : StorageTicket) (i : Nat) : Prop :=
  ∃ e, event = .done e ∧ e.opId = id ∧ ticket.completed = false ∧ e.retired = true ∧ ticket.detached = false ∧
    0 < e.success.getD i 0

def HostIndexed (s : StorageRun) (l : CacheBlockLocation) : Prop :=
  ∃ i < s.manager.coordinator.groups.length, (s.manager.coordinator.hostEntries i).containsBlock l = true

structure TicketsKept (s : StorageRun) (event : StorageEvent) (s' : StorageRun) : Prop where
  config : s'.manager.config = s.manager.config
  get : ∀ id ticket, s.manager.find id = some ticket → ticket.kind = .get →
    (∃ ticket', s'.manager.find id = some ticket' ∧ ticket'.blocks = ticket.blocks) ∨ MayRelease s event id ticket
  indexed : ∀ id ticket, s.manager.find id = some ticket → ticket.kind = .get →
    ∀ i l, ticket.blocks[i]? = some l → ticket.Pending i → HostIndexed s' l → Lands event id ticket i
  quarantined : ∀ id ticket, s.manager.find id = some ticket → ticket.quarantined = true →
    ∃ ticket', s'.manager.find id = some ticket' ∧ ticket'.blocks = ticket.blocks ∧ ticket'.quarantined = true

end TokenSpeed
