import Ugdr.Control.ControlClient

/-! # The client library

`ClientRuntime` behind the public functions: the handles that were given to the user and the
operations on them. A handle is the position of its record in the storage, from which nothing
is ever removed. What is posted to the queues of a handle is not part of this state.
-/

namespace Ugdr.Api

open Ugdr.Control Ugdr.Queue

/-! ## Handles -/

/-- The fields that all handles share: the number that the daemon knows the object by, and
the connection it belongs to. -/
structure Proxy (Fields : Type) where
  identity : Obtained
  connectionEpoch : Nat
  live : Bool
  fields : Fields

structure DeviceListRecord where
  devices : List Nat
  live : Bool := true

structure PdFields where
  context : Nat

structure MrFields where
  pd : Nat
  address : Nat
  length : Nat
  handle : Nat
  lkey : Nat
  rkey : Nat

structure CqFields where
  context : Nat
  cqe : Nat

structure QpInitAttr where
  sendCq : Nat
  recvCq : Nat
  maxSendWr : UInt32
  maxRecvWr : UInt32
  maxSendSge : UInt32
  maxRecvSge : UInt32
  qpType : UInt32
  sqSigAll : Int

structure QpAttr where
  qpState : UInt32
  curQpState : UInt32
  qpAccessFlags : UInt32
  timeout : UInt8
  retryCnt : UInt8
  rnrRetry : UInt8
  minRnrTimer : UInt8

structure QpFields where
  pd : Nat
  initAttr : QpInitAttr
  cachedState : UInt32

structure ClientRuntime (World : Type) where
  client : ControlClient World
  lists : List DeviceListRecord := []
  devices : List (Proxy Unit) := []
  contexts : List (Proxy Unit) := []
  pds : List (Proxy PdFields) := []
  mrs : List (Proxy MrFields) := []
  cqs : List (Proxy CqFields) := []
  qps : List (Proxy QpFields) := []
  nextMrHandle : Nat := 1

/-- One of the tables of handles. -/
structure Table (World Fields : Type) where
  get : ClientRuntime World → List (Proxy Fields)
  set : ClientRuntime World → List (Proxy Fields) → ClientRuntime World

/-- What a call gets to hear from outside, apart from the daemon. -/
structure Host where
  /-- `export_cuda_memory`. -/
  exportMemory : Nat → Nat → Except Errno ExportedCudaMemory
  /-- `map_shared_ring`. -/
  mapRing : QueueDescriptor → Status
  /-- Whether there is memory for a new handle. -/
  stored : Bool

namespace ClientRuntime

variable {World : Type}

def devicesOf : Table World Unit := ⟨devices, fun runtime devices => { runtime with devices }⟩

def contextsOf : Table World Unit :=
  ⟨contexts, fun runtime contexts => { runtime with contexts }⟩

def pdsOf : Table World PdFields := ⟨pds, fun runtime pds => { runtime with pds }⟩

def mrsOf : Table World MrFields := ⟨mrs, fun runtime mrs => { runtime with mrs }⟩

def cqsOf : Table World CqFields := ⟨cqs, fun runtime cqs => { runtime with cqs }⟩

def qpsOf : Table World QpFields := ⟨qps, fun runtime qps => { runtime with qps }⟩

/-- `live = false` through a handle. -/
def kill {Fields : Type} (table : Table World Fields) (runtime : ClientRuntime World)
    (handle : Nat) : ClientRuntime World :=
  table.set runtime ((table.get runtime).modify handle fun proxy => { proxy with live := false })

def ensureConnected (transport : Transport World) (runtime : ClientRuntime World) :
    Status × ClientRuntime World :=
  if runtime.client.connected then
    (none, runtime)
  else
    let (status, client) := runtime.client.connect transport
    (status, { runtime with client })

/-- How an operation on one handle begins: the handle is known and live and the other
arguments are acceptable, the client is connected, and the handle is of this connection. -/
def withHandle {Fields Result : Type} (table : Table World Fields)
    (transport : Transport World) (runtime : ClientRuntime World) (handle : Nat)
    (acceptable : Bool)
    (operation : Proxy Fields → ClientRuntime World →
      Except Errno Result × ClientRuntime World) :
    Except Errno Result × ClientRuntime World :=
  match (table.get runtime)[handle]? with
  | none => (.error .einval, runtime)
  | some proxy =>
      if proxy.live = false ∨ acceptable = false then
        (.error .einval, runtime)
      else
        match runtime.ensureConnected transport with
        | (some status, runtime) => (.error status, runtime)
        | (none, runtime) =>
            if proxy.connectionEpoch ≠ runtime.client.connectionEpoch then
              (.error .einval, runtime.kill table handle)
            else
              operation proxy runtime

/-- How an operation that destroys an object ends. -/
def endHandle {Fields : Type} (table : Table World Fields) (runtime : ClientRuntime World)
    (handle : Nat) (destroyed : Except Errno Unit × ControlClient World) :
    Except Errno Unit × ClientRuntime World :=
  let runtime := { runtime with client := destroyed.2 }
  match destroyed.1 with
  | .error status => (.error status, runtime)
  | .ok () => (.ok (), runtime.kill table handle)

/-- A new handle, of the connection there is now. -/
def addHandle {Fields : Type} (table : Table World Fields) (runtime : ClientRuntime World)
    (identity : Obtained) (fields : Fields) : ClientRuntime World :=
  table.set runtime (table.get runtime ++
    [{ identity, connectionEpoch := runtime.client.connectionEpoch, live := true, fields }])

/-! ## Devices and contexts -/

def getDeviceList (transport : Transport World) (runtime : ClientRuntime World) :
    Except Errno Nat × ClientRuntime World :=
  match runtime.ensureConnected transport with
  | (some status, runtime) => (.error status, runtime)
  | (none, runtime) =>
      match clientListDevices transport runtime.client with
      | (.error status, client) => (.error status, { runtime with client })
      | (.ok descriptors, client) =>
          let devices := descriptors.map fun descriptor =>
            { identity := client.obtained descriptor.identity
              connectionEpoch := client.connectionEpoch
              live := true
              fields := () }
          (.ok runtime.lists.length,
            { runtime with
              client
              devices := runtime.devices ++ devices
              lists := runtime.lists ++
                [{ devices := List.range' runtime.devices.length devices.length }] })

def freeDeviceList (runtime : ClientRuntime World) (list : Nat) :
    Except Errno Unit × ClientRuntime World :=
  match runtime.lists[list]? with
  | none => (.error .einval, runtime)
  | some record =>
      if record.live = false then
        (.error .einval, runtime)
      else
        (.ok (),
          record.devices.foldl (fun runtime device => runtime.kill devicesOf device)
            { runtime with
              lists := runtime.lists.modify list fun record => { record with live := false } })

def openDevice (transport : Transport World) (runtime : ClientRuntime World) (device : Nat) :
    Except Errno Nat × ClientRuntime World :=
  runtime.withHandle devicesOf transport device true fun proxy runtime =>
    match clientCreateContext transport runtime.client proxy.identity with
    | (.error status, client) => (.error status, { runtime with client })
    | (.ok identity, client) =>
        (.ok runtime.contexts.length, { runtime with client }.addHandle contextsOf identity ())

def closeDevice (transport : Transport World) (runtime : ClientRuntime World) (context : Nat) :
    Except Errno Unit × ClientRuntime World :=
  runtime.withHandle contextsOf transport context true fun proxy runtime =>
    runtime.endHandle contextsOf context
      (clientDestroyContext transport runtime.client proxy.identity)

/-! ## Protection domains, memory regions and completion queues -/

/-- How an operation that creates an object ends: the handle is stored, or the object is
destroyed again. -/
def storeHandle {Fields : Type} (table : Table World Fields) (transport : Transport World)
    (runtime : ClientRuntime World) (stored : Bool) (destroyMethod : Nat)
    (identity : Obtained) (fields : Fields) : Except Errno Nat × ClientRuntime World :=
  if stored then
    (.ok (table.get runtime).length, runtime.addHandle table identity fields)
  else
    (.error .enomem,
      { runtime with
        client := (clientDestroy transport runtime.client destroyMethod identity).2 })

def allocPd (transport : Transport World) (host : Host) (runtime : ClientRuntime World)
    (context : Nat) : Except Errno Nat × ClientRuntime World :=
  runtime.withHandle contextsOf transport context true fun proxy runtime =>
    match clientCreatePd transport runtime.client proxy.identity with
    | (.error status, client) => (.error status, { runtime with client })
    | (.ok identity, client) =>
        { runtime with client }.storeHandle pdsOf transport host.stored 5 identity { context }

def deallocPd (transport : Transport World) (runtime : ClientRuntime World) (pd : Nat) :
    Except Errno Unit × ClientRuntime World :=
  runtime.withHandle pdsOf transport pd true fun proxy runtime =>
    runtime.endHandle pdsOf pd (clientDestroyPd transport runtime.client proxy.identity)

/-- The checks of `reg_mr` on its own arguments. -/
def acceptableRegion (address length : Nat) (access : Int) : Bool :=
  address ≠ 0 ∧ length ≠ 0 ∧ 0 ≤ access ∧ QpService.validAccess (.ofNat access.toNat)

def regMr (transport : Transport World) (host : Host) (runtime : ClientRuntime World)
    (pd address length : Nat) (access : Int) : Except Errno Nat × ClientRuntime World :=
  runtime.withHandle pdsOf transport pd (acceptableRegion address length access)
    fun proxy runtime =>
      if 2 ^ 32 - 1 < runtime.nextMrHandle then
        (.error .enospc, runtime)
      else
        match host.exportMemory address length with
        | .error status => (.error status, runtime)
        | .ok memory =>
            match clientRegisterMr transport runtime.client proxy.identity memory
                (.ofNat access.toNat) with
            | (.error status, client) => (.error status, { runtime with client })
            | (.ok (identity, accepted), client) =>
                { runtime with client, nextMrHandle := runtime.nextMrHandle + 1 }.storeHandle
                  mrsOf transport host.stored 7 identity
                  { pd
                    address
                    length
                    handle := runtime.nextMrHandle
                    lkey := accepted.lkey
                    rkey := accepted.rkey }

def deregMr (transport : Transport World) (runtime : ClientRuntime World) (mr : Nat) :
    Except Errno Unit × ClientRuntime World :=
  runtime.withHandle mrsOf transport mr true fun proxy runtime =>
    runtime.endHandle mrsOf mr (clientDeregisterMr transport runtime.client proxy.identity)

/-- There are no completion channels, so `channel` tells whether one was given. -/
def createCq (transport : Transport World) (host : Host) (runtime : ClientRuntime World)
    (context : Nat) (cqe : Int) (channel : Bool) (compVector : Int) :
    Except Errno Nat × ClientRuntime World :=
  runtime.withHandle contextsOf transport context
    (0 < cqe ∧ channel = false ∧ compVector = 0) fun proxy runtime =>
      match clientCreateCq transport runtime.client proxy.identity cqe.toNat host.mapRing with
      | (.error status, client) => (.error status, { runtime with client })
      | (.ok identity, client) =>
          { runtime with client }.storeHandle cqsOf transport host.stored 9 identity
            { context, cqe := cqe.toNat }

def destroyCq (transport : Transport World) (runtime : ClientRuntime World) (cq : Nat) :
    Except Errno Unit × ClientRuntime World :=
  runtime.withHandle cqsOf transport cq true fun proxy runtime =>
    runtime.endHandle cqsOf cq (clientDestroyCq transport runtime.client proxy.identity)

/-! ## Queue pairs -/

/-- The checks of `create_qp` on its arguments, with the handles that they name. -/
def qpArguments (runtime : ClientRuntime World) (pd : Nat) (initAttr : Option QpInitAttr) :
    Option (QpInitAttr × Proxy PdFields × Proxy CqFields × Proxy CqFields) := do
  let initAttr ← initAttr
  let pd ← runtime.pds[pd]?
  let sendCq ← runtime.cqs[initAttr.sendCq]?
  let recvCq ← runtime.cqs[initAttr.recvCq]?
  if pd.live = false ∨ sendCq.live = false ∨ recvCq.live = false ∨
      pd.fields.context ≠ sendCq.fields.context ∨ pd.fields.context ≠ recvCq.fields.context ∨
      initAttr.maxSendWr = 0 ∨ initAttr.maxRecvWr = 0 ∨ initAttr.maxSendSge = 0 ∨
      initAttr.maxRecvSge = 0 ∨ initAttr.qpType.toNat ≠ qpTypeRc ∨
      (initAttr.sqSigAll ≠ 0 ∧ initAttr.sqSigAll ≠ 1) then
    none
  else
    some (initAttr, pd, sendCq, recvCq)

def createAttributes (initAttr : QpInitAttr) (sendCq recvCq : Obtained) : QpCreateAttributes :=
  { sendCqIdentity := sendCq.value
    recvCqIdentity := recvCq.value
    maxSendWr := initAttr.maxSendWr.toNat
    maxRecvWr := initAttr.maxRecvWr.toNat
    maxSendSge := initAttr.maxSendSge.toNat
    maxRecvSge := initAttr.maxRecvSge.toNat
    qpType := initAttr.qpType.toNat
    sqSigAll := initAttr.sqSigAll.toNat }

/-- `create_qp` compares the epochs of three handles, and when one of them is old it gives
up all three. -/
def createQp (transport : Transport World) (host : Host) (runtime : ClientRuntime World)
    (pd : Nat) (initAttr : Option QpInitAttr) : Except Errno Nat × ClientRuntime World :=
  match runtime.qpArguments pd initAttr with
  | none => (.error .einval, runtime)
  | some (initAttr, pdProxy, sendCq, recvCq) =>
      match runtime.ensureConnected transport with
      | (some status, runtime) => (.error status, runtime)
      | (none, runtime) =>
          let epoch := runtime.client.connectionEpoch
          if pdProxy.connectionEpoch ≠ epoch ∨ sendCq.connectionEpoch ≠ epoch ∨
              recvCq.connectionEpoch ≠ epoch then
            (.error .einval, ((runtime.kill pdsOf pd).kill cqsOf initAttr.sendCq).kill cqsOf
              initAttr.recvCq)
          else
            match clientCreateQp transport runtime.client pdProxy.identity sendCq.identity
                recvCq.identity (createAttributes initAttr sendCq.identity recvCq.identity)
                host.mapRing with
            | (.error status, client) => (.error status, { runtime with client })
            | (.ok identity, client) =>
                { runtime with client }.storeHandle qpsOf transport host.stored 11 identity
                  { pd, initAttr, cachedState := .ofNat qpStateReset }

def destroyQp (transport : Transport World) (runtime : ClientRuntime World) (qp : Nat) :
    Except Errno Unit × ClientRuntime World :=
  runtime.withHandle qpsOf transport qp true fun proxy runtime =>
    runtime.endHandle qpsOf qp (clientDestroyQp transport runtime.client proxy.identity)

/-- `qp->cached_state = state`. -/
def cacheState (runtime : ClientRuntime World) (qp : Nat) (state : UInt32) :
    ClientRuntime World :=
  { runtime with
    qps := runtime.qps.modify qp fun proxy =>
      { proxy with fields := { proxy.fields with cachedState := state } } }

def modifyQp (transport : Transport World) (runtime : ClientRuntime World) (qp : Nat)
    (attr : Option QpAttr) (attrMask : Int) : Except Errno Unit × ClientRuntime World :=
  runtime.withHandle qpsOf transport qp (attr.isSome ∧ 0 ≤ attrMask) fun proxy runtime =>
    match attr with
    | none => (.error .einval, runtime)
    | some attr =>
        let mask : UInt32 := .ofNat attrMask.toNat
        let attributes : QpAttributes :=
          { state := attr.qpState.toNat
            currentState := attr.curQpState.toNat
            accessFlags := attr.qpAccessFlags.toNat
            timeout := attr.timeout.toNat
            retryCount := attr.retryCnt.toNat
            rnrRetry := attr.rnrRetry.toNat
            minRnrTimer := attr.minRnrTimer.toNat }
        match clientModifyQp transport runtime.client proxy.identity attributes mask with
        | (.error status, client) => (.error status, { runtime with client })
        | (.ok (), client) =>
            let runtime := { runtime with client }
            (.ok (),
              if mask &&& qpMaskState ≠ 0 then runtime.cacheState qp attr.qpState else runtime)

/-- The attributes that are handed to the user are read from the snapshot. -/
def queryQp (transport : Transport World) (runtime : ClientRuntime World) (qp : Nat)
    (given : Bool) (attrMask : Int) : Except Errno QpSnapshot × ClientRuntime World :=
  runtime.withHandle qpsOf transport qp (given ∧ 0 ≤ attrMask) fun proxy runtime =>
    let mask : UInt32 := .ofNat attrMask.toNat
    match clientQueryQp transport runtime.client proxy.identity mask with
    | (.error status, client) => (.error status, { runtime with client })
    | (.ok snapshot, client) =>
        let runtime := { runtime with client }
        (.ok snapshot,
          if mask &&& qpMaskState ≠ 0 then
            runtime.cacheState qp (.ofNat snapshot.attributes.state)
          else
            runtime)

def queryQpConnInfo (transport : Transport World) (runtime : ClientRuntime World) (qp : Nat)
    (given : Bool) : Except Errno Nat × ClientRuntime World :=
  runtime.withHandle qpsOf transport qp given fun proxy runtime =>
    let (answer, client) := clientQueryQpConnInfo transport runtime.client proxy.identity
    (answer, { runtime with client })

def connectQp (transport : Transport World) (runtime : ClientRuntime World) (qp : Nat)
    (remoteQpNum : Option UInt32) (attr : Option QpAttr) (attrMask : Int) :
    Except Errno Unit × ClientRuntime World :=
  runtime.withHandle qpsOf transport qp
    (remoteQpNum.getD 0 ≠ 0 ∧ attr.isSome ∧ 0 ≤ attrMask) fun proxy runtime =>
      match remoteQpNum, attr with
      | some remoteQpNum, some attr =>
          let attributes : QpAttributes :=
            { timeout := attr.timeout.toNat
              retryCount := attr.retryCnt.toNat
              rnrRetry := attr.rnrRetry.toNat
              minRnrTimer := attr.minRnrTimer.toNat }
          match clientConnectQp transport runtime.client proxy.identity remoteQpNum.toNat
              attributes (.ofNat attrMask.toNat) with
          | (.error status, client) => (.error status, { runtime with client })
          | (.ok (), client) =>
              (.ok (), { runtime with client }.cacheState qp (.ofNat qpStateRts))
      | _, _ => (.error .einval, runtime)

/-- Whether `post_send` goes on to the send queue of the handle; nothing else of the runtime
is looked at. -/
def reachesSendQueue (runtime : ClientRuntime World) (qp : Nat) (given : Bool) : Bool :=
  match runtime.qps[qp]? with
  | none => false
  | some proxy => given ∧ proxy.live ∧ proxy.fields.cachedState = .ofNat qpStateRts

/-- Whether `post_receive` goes on to the receive queue of the handle. -/
def reachesReceiveQueue (runtime : ClientRuntime World) (qp : Nat) (given : Bool) : Bool :=
  match runtime.qps[qp]? with
  | none => false
  | some proxy =>
      given ∧ proxy.live ∧
        (proxy.fields.cachedState = .ofNat qpStateInit ∨
          proxy.fields.cachedState = .ofNat qpStateRtr ∨
          proxy.fields.cachedState = .ofNat qpStateRts)

/-! ## Calls -/

/-- The public functions that use the daemon, or change a handle. -/
inductive ApiCall
  | getDeviceList
  | freeDeviceList (list : Nat)
  | openDevice (device : Nat)
  | closeDevice (context : Nat)
  | allocPd (context : Nat)
  | deallocPd (pd : Nat)
  | regMr (pd address length : Nat) (access : Int)
  | deregMr (mr : Nat)
  | createCq (context : Nat) (cqe : Int) (channel : Bool) (compVector : Int)
  | destroyCq (cq : Nat)
  | createQp (pd : Nat) (initAttr : Option QpInitAttr)
  | destroyQp (qp : Nat)
  | modifyQp (qp : Nat) (attr : Option QpAttr) (attrMask : Int)
  | queryQp (qp : Nat) (given : Bool) (attrMask : Int)
  | queryQpConnInfo (qp : Nat) (given : Bool)
  | connectQp (qp : Nat) (remoteQpNum : Option UInt32) (attr : Option QpAttr) (attrMask : Int)

/-- The error of a call, if there is one. -/
def statusOf {Result : Type} : Except Errno Result → Status
  | .ok _ => none
  | .error status => some status

def perform (transport : Transport World) (host : Host) (runtime : ClientRuntime World) :
    ApiCall → Status × ClientRuntime World
  | .getDeviceList => (runtime.getDeviceList transport).map statusOf id
  | .freeDeviceList list => (runtime.freeDeviceList list).map statusOf id
  | .openDevice device => (runtime.openDevice transport device).map statusOf id
  | .closeDevice context => (runtime.closeDevice transport context).map statusOf id
  | .allocPd context => (runtime.allocPd transport host context).map statusOf id
  | .deallocPd pd => (runtime.deallocPd transport pd).map statusOf id
  | .regMr pd address length access =>
      (runtime.regMr transport host pd address length access).map statusOf id
  | .deregMr mr => (runtime.deregMr transport mr).map statusOf id
  | .createCq context cqe channel compVector =>
      (runtime.createCq transport host context cqe channel compVector).map statusOf id
  | .destroyCq cq => (runtime.destroyCq transport cq).map statusOf id
  | .createQp pd initAttr => (runtime.createQp transport host pd initAttr).map statusOf id
  | .destroyQp qp => (runtime.destroyQp transport qp).map statusOf id
  | .modifyQp qp attr attrMask => (runtime.modifyQp transport qp attr attrMask).map statusOf id
  | .queryQp qp given attrMask => (runtime.queryQp transport qp given attrMask).map statusOf id
  | .queryQpConnInfo qp given =>
      (runtime.queryQpConnInfo transport qp given).map statusOf id
  | .connectQp qp remoteQpNum attr attrMask =>
      (runtime.connectQp transport qp remoteQpNum attr attrMask).map statusOf id

end ClientRuntime

end Ugdr.Api
