import Ugdr.Control.Messages
import Ugdr.Control.ObjectRegistry
import Mathlib.Data.Finset.Basic
import Mathlib.Logic.Function.Basic

/-! # The control services

`DeviceContextService`, `PdMrCqService` and `QpService` as one state with the
request handlers of all three. A request answers with a response and leaves a new
state; everything the daemon asks of the outside world is in `Environment`.
-/

namespace Ugdr.Control

open Wire Queue

structure ContextRecord where
  deviceIdentity : Nat
  childCount : Nat := 0

structure PdRecord where
  contextIdentity : Nat
  mrIdentities : Finset Nat := ∅
  localKeyIndex : Nat → Option Nat := fun _ => none
  remoteKeyIndex : Nat → Option Nat := fun _ => none
  qpCount : Nat := 0

structure MrRecord where
  contextIdentity : Nat
  pdIdentity : Nat
  gpuUuid : Bytes
  clientAddress : Nat
  allocationSize : Nat
  allocationOffset : Nat
  daemonAddress : Nat
  length : Nat
  access : UInt32
  lkey : Nat
  rkey : Nat
  workRequestReferences : Nat := 0
  mapping : CudaIpcMapping

structure CqRecord where
  contextIdentity : Nat
  cqe : Nat
  qpReferences : Nat := 0
  completions : QueueDescriptor

structure QueueMetadata where
  maxWr : Nat
  maxSge : Nat

structure QpRecord where
  ownerSession : OwnerSessionId
  contextIdentity : Nat
  pdIdentity : Nat
  sendCqIdentity : Nat
  recvCqIdentity : Nat
  sq : QueueMetadata
  rq : QueueMetadata
  qpType : Nat
  sqSigAll : Nat
  state : Nat := qpStateReset
  accessFlags : Nat := 0
  qpNum : Nat := 0
  peerQpNum : Nat := 0
  peerIdentity : Nat := 0
  timeout : Nat := 0
  retryCount : Nat := 0
  rnrRetry : Nat := 0
  minRnrTimer : Nat := 0
  sendQueue : QueueDescriptor
  receiveQueue : QueueDescriptor

/-- `QpService` with the members it inherits. -/
structure QpService where
  catalog : List DeviceDescriptor
  contexts : GenerationRegistry ContextRecord .context := {}
  pds : GenerationRegistry PdRecord .pd := {}
  mrs : GenerationRegistry MrRecord .mr := {}
  cqs : GenerationRegistry CqRecord .cq := {}
  nextKey : Nat := 1
  qps : GenerationRegistry QpRecord .qp := {}
  qpNumIndex : Nat → Option Nat := fun _ => none
  nextQpNum : Nat := 1

/-- What the daemon gets to hear from outside while it handles one request. -/
structure Environment where
  rings : RingSystemCalls
  openMemory : ExportedCudaMemory → Except Errno CudaIpcMapping
  closeMemory : CudaIpcMapping → Status
  /-- How many insertions into hash tables succeed before one throws. -/
  tableInsertions : Nat

abbrev Handler := QpService → OwnerSessionId → ControlRequest → Environment →
  ControlResponse × QpService

namespace QpService

def create (catalog : List DeviceDescriptor) : QpService := { catalog }

def resolveContext (service : QpService) (session identity : Nat) : Option ContextRecord :=
  service.contexts.resolve session identity

def resolvePd (service : QpService) (session identity : Nat) : Option PdRecord :=
  service.pds.resolve session identity

def resolveCq (service : QpService) (session identity : Nat) : Option CqRecord :=
  service.cqs.resolve session identity

/-- `++context->child_count` and `--context->child_count` through the pointer that
`resolve_context` returned. -/
def adjustChildCount (service : QpService) (session identity : Nat) (change : Nat → Nat) :
    QpService :=
  { service with
    contexts := service.contexts.modify session identity fun context =>
      { context with childCount := change context.childCount } }

def adjustQpCount (service : QpService) (session identity : Nat) (change : Nat → Nat) :
    QpService :=
  { service with
    pds := service.pds.modify session identity fun pd =>
      { pd with qpCount := change pd.qpCount } }

def adjustQpReferences (service : QpService) (session identity : Nat)
    (change : Nat → Nat) : QpService :=
  { service with
    cqs := service.cqs.modify session identity fun cq =>
      { cq with qpReferences := change cq.qpReferences } }

/-! ## Devices and contexts -/

def handleListDevices : Handler := fun service _ request _ =>
  if request.objectIdentity ≠ 0 then
    (responseFor request (some .einval), service)
  else
    match encodeDeviceList service.catalog with
    | .error status => (responseFor request (some status), service)
    | .ok payload => ({ responseFor request none with payload := payload }, service)

def handleCreateContext : Handler := fun service session request _ =>
  if service.catalog.any (fun device => device.identity = request.objectIdentity) = false then
    (responseFor request (some .einval), service)
  else
    match service.contexts.insert session { deviceIdentity := request.objectIdentity } with
    | (none, contexts) => (responseFor request (some .enospc), { service with contexts })
    | (some identity, contexts) =>
        ({ responseFor request none with objectIdentity := identity },
          { service with contexts })

def handleDestroyContext : Handler := fun service session request _ =>
  match service.contexts.resolve session request.objectIdentity with
  | none => (responseFor request (some .einval), service)
  | some context =>
      if context.childCount ≠ 0 then
        (responseFor request (some .ebusy), service)
      else
        let (status, contexts) := service.contexts.erase session request.objectIdentity
        (responseFor request status, { service with contexts })

/-- `DeviceContextService::handle`. -/
def handleDeviceContext : Handler := fun service session request environment =>
  if emptyShape request = false then
    (responseFor request (some .einval), service)
  else
    match ControlMethod.ofCode request.method with
    | some .listDevices => handleListDevices service session request environment
    | some .createContext => handleCreateContext service session request environment
    | some .destroyContext => handleDestroyContext service session request environment
    | _ => (responseFor request (some .eopnotsupp), service)

/-! ## Protection domains, memory regions and completion queues -/

def accessLocalWrite : UInt32 := (1 : UInt32) <<< 0

def accessRemoteWrite : UInt32 := (1 : UInt32) <<< 1

def validAccess (access : UInt32) : Bool :=
  access &&& ~~~(accessLocalWrite ||| accessRemoteWrite) = 0 ∧
    (access &&& accessRemoteWrite = 0 ∨ access &&& accessLocalWrite ≠ 0)

/-- A new pair of keys and the next free key. -/
def allocateKeys (nextKey : Nat) : Option ((Nat × Nat) × Nat) :=
  if nextKey = 0 ∨ 2 ^ 32 - 1 - 1 < nextKey then
    none
  else
    some ((nextKey, nextKey + 1), nextKey + 2)

def handleCreatePd : Handler := fun service session request _ =>
  if emptyShape request = false then
    (responseFor request (some .einval), service)
  else
    match service.resolveContext session request.objectIdentity with
    | none => (responseFor request (some .einval), service)
    | some _ =>
        match service.pds.insert session { contextIdentity := request.objectIdentity } with
        | (none, pds) => (responseFor request (some .enospc), { service with pds })
        | (some identity, pds) =>
            ({ responseFor request none with objectIdentity := identity },
              { service with pds }.adjustChildCount session request.objectIdentity (· + 1))

def handleDestroyPd : Handler := fun service session request _ =>
  if emptyShape request = false then
    (responseFor request (some .einval), service)
  else
    match service.pds.resolve session request.objectIdentity with
    | none => (responseFor request (some .einval), service)
    | some pd =>
        if pd.mrIdentities ≠ ∅ ∨ pd.qpCount ≠ 0 then
          (responseFor request (some .ebusy), service)
        else
          match service.resolveContext session pd.contextIdentity with
          | none => (responseFor request (some .einval), service)
          | some context =>
              if context.childCount = 0 then
                (responseFor request (some .einval), service)
              else
                match service.pds.erase session request.objectIdentity with
                | (some status, pds) =>
                    (responseFor request (some status), { service with pds })
                | (none, pds) =>
                    (responseFor request none,
                      { service with pds }.adjustChildCount session pd.contextIdentity
                        (· - 1))

/-- `unordered_map::emplace`: an existing entry stays. -/
def emplace (index : Nat → Option Nat) (key value : Nat) : Bool × (Nat → Option Nat) :=
  match index key with
  | some _ => (false, index)
  | none => (true, Function.update index key (some value))

/-- The three insertions inside the `try` block of `handle_register_mr`, up to the
one that throws; the first component tells whether all three took place. -/
def relateMr (tableInsertions : Nat) (pd : PdRecord) (identity lkey rkey : Nat) :
    Bool × PdRecord :=
  if tableInsertions = 0 then
    (false, pd)
  else
    let relationAdded : Bool := identity ∉ pd.mrIdentities
    let related := { pd with mrIdentities := insert identity pd.mrIdentities }
    if tableInsertions = 1 then
      (false, related)
    else
      let (localAdded, localKeyIndex) := emplace related.localKeyIndex lkey identity
      let indexed := { related with localKeyIndex }
      if tableInsertions = 2 then
        (false, indexed)
      else
        let (remoteAdded, remoteKeyIndex) := emplace indexed.remoteKeyIndex rkey identity
        (relationAdded ∧ localAdded ∧ remoteAdded, { indexed with remoteKeyIndex })

/-- Remove an MR from the set and the two indexes of its PD. -/
def unrelateMr (pd : PdRecord) (identity lkey rkey : Nat) : PdRecord :=
  { pd with
    mrIdentities := pd.mrIdentities.erase identity
    localKeyIndex := Function.update pd.localKeyIndex lkey none
    remoteKeyIndex := Function.update pd.remoteKeyIndex rkey none }

def newMrRecord (request : ControlRequest) (pd : PdRecord) (memory : ExportedCudaMemory)
    (mapping : CudaIpcMapping) (lkey rkey : Nat) : MrRecord :=
  { contextIdentity := pd.contextIdentity
    pdIdentity := request.objectIdentity
    gpuUuid := memory.gpuUuid
    clientAddress := memory.clientAddress
    allocationSize := memory.allocationSize
    allocationOffset := memory.allocationOffset
    daemonAddress := mapping.daemonBaseAddress + memory.allocationOffset
    length := memory.length
    access := request.access
    lkey := lkey
    rkey := rkey
    mapping := mapping }

/-- The part of `handle_register_mr` that follows the allocation of the keys. -/
def registerMapped (service : QpService) (session : OwnerSessionId)
    (request : ControlRequest) (environment : Environment) (pd : PdRecord)
    (memory : ExportedCudaMemory) (mapping : CudaIpcMapping) (lkey rkey : Nat) :
    ControlResponse × QpService :=
  match encodeMrRegistrationResult
      { clientAddress := memory.clientAddress, length := memory.length, lkey, rkey } with
  | .error status => (responseFor request (some status), service)
  | .ok payload =>
      match service.mrs.insert session
          (newMrRecord request pd memory mapping lkey rkey) with
      | (none, mrs) => (responseFor request (some .enospc), { service with mrs })
      | (some identity, mrs) =>
          let (added, related) := relateMr environment.tableInsertions pd identity lkey rkey
          if added then
            ({ responseFor request none with objectIdentity := identity, payload := payload },
              { service with
                mrs := mrs
                pds := service.pds.modify session request.objectIdentity fun _ => related })
          else
            (responseFor request (some .enomem),
              { service with
                mrs := (mrs.erase session identity).2
                pds := service.pds.modify session request.objectIdentity fun _ =>
                  unrelateMr related identity lkey rkey })

def handleRegisterMr : Handler := fun service session request environment =>
  if request.fdIndices ≠ [] ∨ request.fileDescriptors ≠ [] ∨
      validAccess request.access = false then
    (responseFor request (some .einval), service)
  else
    match service.pds.resolve session request.objectIdentity with
    | none => (responseFor request (some .einval), service)
    | some pd =>
        match decodeMrRegistration request.payload request.length with
        | .error status => (responseFor request (some status), service)
        | .ok memory =>
            match environment.openMemory memory with
            | .error status => (responseFor request (some status), service)
            | .ok mapping =>
                if mapping.daemonBaseAddress = 0 ∨ mapping.gpuUuid ≠ memory.gpuUuid ∨
                    2 ^ 64 - 1 - memory.allocationOffset < mapping.daemonBaseAddress then
                  (responseFor request (some .eproto), service)
                else
                  match allocateKeys service.nextKey with
                  | none => (responseFor request (some .enospc), service)
                  | some ((lkey, rkey), nextKey) =>
                      registerMapped { service with nextKey } session request environment
                        pd memory mapping lkey rkey

def handleDeregisterMr : Handler := fun service session request environment =>
  if emptyShape request = false then
    (responseFor request (some .einval), service)
  else
    match service.mrs.resolve session request.objectIdentity with
    | none => (responseFor request (some .einval), service)
    | some mr =>
        if mr.workRequestReferences ≠ 0 then
          (responseFor request (some .ebusy), service)
        else
          match environment.closeMemory mr.mapping with
          | some status => (responseFor request (some status), service)
          | none =>
              match service.pds.resolve session mr.pdIdentity with
              | none => (responseFor request (some .einval), service)
              | some _ =>
                  let (status, mrs) := service.mrs.erase session request.objectIdentity
                  (responseFor request status,
                    { service with
                      mrs := mrs
                      pds := service.pds.modify session mr.pdIdentity fun pd =>
                        unrelateMr pd request.objectIdentity mr.lkey mr.rkey })

def handleCreateCq : Handler := fun service session request environment =>
  if request.length = 0 ∨ 2 ^ 32 - 1 < request.length ∨ request.access ≠ 0 ∨
      request.payload ≠ [] ∨ request.fdIndices ≠ [] ∨ request.fileDescriptors ≠ [] then
    (responseFor request (some .einval), service)
  else
    match service.resolveContext session request.objectIdentity with
    | none => (responseFor request (some .einval), service)
    | some _ =>
        match createSharedRing environment.rings
            ⟨.completion, request.length, completionSlotStride⟩ with
        | .error status => (responseFor request (some status), service)
        | .ok completions =>
            match environment.rings.duplicateFd completions with
            | some status => (responseFor request (some status), service)
            | none =>
                match encodeQueueDescriptors
                    [⟨.completion, request.length, completionSlotStride⟩] with
                | .error status => (responseFor request (some status), service)
                | .ok payload =>
                    match service.cqs.insert session
                        { contextIdentity := request.objectIdentity
                          cqe := request.length
                          completions := completions } with
                    | (none, cqs) =>
                        (responseFor request (some .enospc), { service with cqs })
                    | (some identity, cqs) =>
                        ({ responseFor request none with
                            objectIdentity := identity
                            payload := payload
                            fdIndices := [0]
                            fileDescriptors := [completions] },
                          { service with cqs }.adjustChildCount session
                            request.objectIdentity (· + 1))

def handleDestroyCq : Handler := fun service session request _ =>
  if emptyShape request = false then
    (responseFor request (some .einval), service)
  else
    match service.cqs.resolve session request.objectIdentity with
    | none => (responseFor request (some .einval), service)
    | some cq =>
        if cq.qpReferences ≠ 0 then
          (responseFor request (some .ebusy), service)
        else
          match service.resolveContext session cq.contextIdentity with
          | none => (responseFor request (some .einval), service)
          | some context =>
              if context.childCount = 0 then
                (responseFor request (some .einval), service)
              else
                match service.cqs.erase session request.objectIdentity with
                | (some status, cqs) =>
                    (responseFor request (some status), { service with cqs })
                | (none, cqs) =>
                    (responseFor request none,
                      { service with cqs }.adjustChildCount session cq.contextIdentity
                        (· - 1))

/-- `PdMrCqService::handle`. -/
def handlePdMrCq : Handler := fun service session request environment =>
  match ControlMethod.ofCode request.method with
  | some .createPd => handleCreatePd service session request environment
  | some .destroyPd => handleDestroyPd service session request environment
  | some .registerMr => handleRegisterMr service session request environment
  | some .deregisterMr => handleDeregisterMr service session request environment
  | some .createCq => handleCreateCq service session request environment
  | some .destroyCq => handleDestroyCq service session request environment
  | _ => handleDeviceContext service session request environment

end QpService

end Ugdr.Control
