import Ugdr.Api.ClientRuntime
import Ugdr.Control.ClientRequests
import Ugdr.Foundation.Execution

/-! # Handles and connections

A request is sent on the connection on which the numbers in it were handed out, and on no
other: an operation on a handle of an earlier connection fails before anything is sent.
-/

namespace Ugdr.Api.ClientRuntime

open Ugdr.Control

variable {World : Type} {runtime : ClientRuntime World} {transport : Transport World}
  {host : Host}

/-- The epoch of a connection. Zero is left out when the counter wraps around. -/
def epochOf (connection : Nat) : Nat :=
  if connection = 0 then 0 else (connection - 1) % (2 ^ 64 - 1) + 1

theorem epochOf_succ (connection : Nat) :
    (let next := (epochOf connection + 1) % 2 ^ 64
      if next = 0 then 1 else next) = epochOf (connection + 1) := by
  unfold epochOf
  dsimp only
  repeat' split
  all_goals omega

theorem epochOf_eq {connection : Nat} (bounded : connection < 2 ^ 64) :
    epochOf connection = connection := by
  unfold epochOf
  split <;> omega

/-! ## Tables -/

/-- A property of the number and the epoch of every handle. -/
structure Handles (holds : Obtained → Nat → Prop) (runtime : ClientRuntime World) : Prop where
  devices : ∀ proxy ∈ runtime.devices, holds proxy.identity proxy.connectionEpoch
  contexts : ∀ proxy ∈ runtime.contexts, holds proxy.identity proxy.connectionEpoch
  pds : ∀ proxy ∈ runtime.pds, holds proxy.identity proxy.connectionEpoch
  mrs : ∀ proxy ∈ runtime.mrs, holds proxy.identity proxy.connectionEpoch
  cqs : ∀ proxy ∈ runtime.cqs, holds proxy.identity proxy.connectionEpoch
  qps : ∀ proxy ∈ runtime.qps, holds proxy.identity proxy.connectionEpoch

/-- A table is a part of the runtime that can be changed without the rest. -/
structure Lawful {Fields : Type} (table : Table World Fields) : Prop where
  client : ∀ runtime proxies, (table.set runtime proxies).client = runtime.client
  getSet : ∀ runtime proxies, table.get (table.set runtime proxies) = proxies
  getClient : ∀ runtime client, table.get { runtime with client } = table.get runtime
  get : ∀ {holds runtime}, Handles holds runtime →
    ∀ proxy ∈ table.get runtime, holds proxy.identity proxy.connectionEpoch
  set : ∀ {holds runtime} {proxies : List (Proxy Fields)}, Handles holds runtime →
    (∀ proxy ∈ proxies, holds proxy.identity proxy.connectionEpoch) →
      Handles holds (table.set runtime proxies)

theorem devicesOf_lawful : Lawful (devicesOf : Table World Unit) :=
  ⟨fun _ _ => rfl, fun _ _ => rfl, fun _ _ => rfl, Handles.devices,
    fun all devices => { all with devices }⟩

theorem contextsOf_lawful : Lawful (contextsOf : Table World Unit) :=
  ⟨fun _ _ => rfl, fun _ _ => rfl, fun _ _ => rfl, Handles.contexts,
    fun all contexts => { all with contexts }⟩

theorem pdsOf_lawful : Lawful (pdsOf : Table World PdFields) :=
  ⟨fun _ _ => rfl, fun _ _ => rfl, fun _ _ => rfl, Handles.pds, fun all pds => { all with pds }⟩

theorem mrsOf_lawful : Lawful (mrsOf : Table World MrFields) :=
  ⟨fun _ _ => rfl, fun _ _ => rfl, fun _ _ => rfl, Handles.mrs, fun all mrs => { all with mrs }⟩

theorem cqsOf_lawful : Lawful (cqsOf : Table World CqFields) :=
  ⟨fun _ _ => rfl, fun _ _ => rfl, fun _ _ => rfl, Handles.cqs, fun all cqs => { all with cqs }⟩

theorem qpsOf_lawful : Lawful (qpsOf : Table World QpFields) :=
  ⟨fun _ _ => rfl, fun _ _ => rfl, fun _ _ => rfl, Handles.qps, fun all qps => { all with qps }⟩

theorem mem_modify {α : Type} {items : List α} {index : Nat} {update : α → α} {item : α}
    (member : item ∈ items.modify index update) :
    item ∈ items ∨ ∃ old ∈ items, item = update old := by
  obtain ⟨place, found⟩ := List.mem_iff_getElem?.mp member
  rw [List.getElem?_modify] at found
  obtain ⟨old, oldFound, same⟩ := Option.map_eq_some_iff.mp found
  have oldMember := List.mem_of_getElem? oldFound
  by_cases here : index = place
  · rw [if_pos here] at same
    exact .inr ⟨old, oldMember, same.symm⟩
  · rw [if_neg here] at same
    rw [← same]
    exact .inl oldMember

/-! ## The invariant -/

/-- The epoch of a handle is that of the connection its number is from. -/
def OfEpoch (connections : Nat) (identity : Obtained) (epoch : Nat) : Prop :=
  epoch = epochOf identity.connection ∧ identity.connection ≤ connections

structure Traced (runtime : ClientRuntime World) : Prop where
  epoch : runtime.client.connectionEpoch = epochOf runtime.client.connections
  handles : Handles (OfEpoch runtime.client.connections) runtime
  sent : ∀ sent ∈ runtime.client.sent, sent.Names ∧ sent.connection ≤ runtime.client.connections ∧
    ∀ identity ∈ sent.identities, identity.connection ≤ runtime.client.connections ∧
      epochOf identity.connection = epochOf sent.connection

theorem OfEpoch.mono {connections more : Nat} {identity : Obtained} {epoch : Nat}
    (holds : OfEpoch connections identity epoch) (le : connections ≤ more) :
    OfEpoch more identity epoch :=
  ⟨holds.1, holds.2.trans le⟩

theorem Handles.mono {holds also : Obtained → Nat → Prop}
    (all : Handles holds runtime) (implies : ∀ identity epoch,
      holds identity epoch → also identity epoch) : Handles also runtime :=
  ⟨fun proxy member => implies _ _ (all.devices proxy member),
    fun proxy member => implies _ _ (all.contexts proxy member),
    fun proxy member => implies _ _ (all.pds proxy member),
    fun proxy member => implies _ _ (all.mrs proxy member),
    fun proxy member => implies _ _ (all.cqs proxy member),
    fun proxy member => implies _ _ (all.qps proxy member)⟩

theorem Handles.withClient {holds : Obtained → Nat → Prop} (all : Handles holds runtime)
    (client : ControlClient World) : Handles holds { runtime with client } :=
  { all with }

theorem traced_initial (world : World) : Traced { client := { world } } :=
  ⟨rfl, ⟨nofun, nofun, nofun, nofun, nofun, nofun⟩, nofun⟩

namespace Traced

theorem ensureConnected (traced : Traced runtime) (transport : Transport World) :
    Traced (runtime.ensureConnected transport).2 := by
  unfold ClientRuntime.ensureConnected
  split
  · exact traced
  · unfold ControlClient.connect
    split
    · rename_i called
      split at called
      · cases called
        exact ⟨traced.epoch, traced.handles.withClient _, traced.sent⟩
      · cases called
        refine ⟨?_, (traced.handles.withClient _).mono fun _ _ holds =>
          holds.mono (Nat.le_succ _), ?_⟩
        · dsimp only
          rw [traced.epoch]
          exact epochOf_succ _
        · intro sent member
          obtain ⟨named, connection, identities⟩ := traced.sent sent member
          exact ⟨named, connection.trans (Nat.le_succ _), fun identity contained =>
            ⟨(identities identity contained).1.trans (Nat.le_succ _),
              (identities identity contained).2⟩⟩

/-- Requests that contain numbers of the connection. -/
theorem talked (traced : Traced runtime) {identities : List Obtained}
    {client : ControlClient World} (talked : Talked identities runtime.client client)
    (current : ∀ identity ∈ identities,
      OfEpoch runtime.client.connections identity runtime.client.connectionEpoch) :
    Traced { runtime with client } := by
  refine ⟨?_, ?_, ?_⟩
  · rw [talked.connectionEpoch, talked.connections]
    exact traced.epoch
  · rw [talked.connections]
    exact traced.handles.withClient _
  · intro sent member
    rw [talked.connections]
    rcases talked.sent sent member with old | ⟨connection, named, contained⟩
    · exact traced.sent sent old
    · refine ⟨named, connection.le, fun identity inside => ?_⟩
      rw [connection]
      rcases contained identity inside with given | same
      · obtain ⟨epoch, le⟩ := current identity given
        exact ⟨le, by rw [← epoch, traced.epoch]⟩
      · exact ⟨same.le, by rw [same]⟩

theorem kill {Fields : Type} {table : Table World Fields} (traced : Traced runtime)
    (lawful : Lawful table) (handle : Nat) : Traced (runtime.kill table handle) := by
  have same : (runtime.kill table handle).client = runtime.client := lawful.client _ _
  refine ⟨by rw [same]; exact traced.epoch, ?_, by rw [same]; exact traced.sent⟩
  rw [same]
  refine lawful.set traced.handles fun proxy member => ?_
  rcases mem_modify member with old | ⟨old, inside, rfl⟩
  · exact lawful.get traced.handles proxy old
  · exact lawful.get traced.handles old inside

theorem addHandle {Fields : Type} {table : Table World Fields} (traced : Traced runtime)
    (lawful : Lawful table) {identity : Obtained}
    (fresh : identity.connection = runtime.client.connections) (fields : Fields) :
    Traced (runtime.addHandle table identity fields) := by
  have same : (runtime.addHandle table identity fields).client = runtime.client :=
    lawful.client _ _
  refine ⟨by rw [same]; exact traced.epoch, ?_, by rw [same]; exact traced.sent⟩
  rw [same]
  refine lawful.set traced.handles fun proxy member => ?_
  rcases List.mem_append.mp member with old | new
  · exact lawful.get traced.handles proxy old
  · rw [List.mem_singleton.mp new]
    exact ⟨by rw [traced.epoch, fresh], fresh.le⟩

end Traced

theorem connections_le_ensureConnected (runtime : ClientRuntime World)
    (transport : Transport World) :
    runtime.client.connections ≤ (runtime.ensureConnected transport).2.client.connections := by
  unfold ClientRuntime.ensureConnected
  split
  · exact Nat.le_refl _
  · unfold ControlClient.connect
    split
    · rename_i called
      split at called
      · cases called
        exact Nat.le_refl _
      · cases called
        exact Nat.le_succ _

/-! ## Operations -/

/-- The number of a handle that has passed the comparison of the epochs. -/
def Current (runtime : ClientRuntime World) (identity : Obtained) : Prop :=
  OfEpoch runtime.client.connections identity runtime.client.connectionEpoch

theorem current_singleton {identity : Obtained} (current : Current runtime identity) :
    ∀ other ∈ [identity],
      OfEpoch runtime.client.connections other runtime.client.connectionEpoch := by
  intro other member
  rw [List.mem_singleton.mp member]
  exact current

namespace Traced

theorem withHandle {Fields Result : Type} {table : Table World Fields}
    (traced : Traced runtime) (lawful : Lawful table) (transport : Transport World)
    (handle : Nat) (acceptable : Bool) {operation : Proxy Fields → ClientRuntime World →
      Except Errno Result × ClientRuntime World}
    (operate : ∀ proxy runtime, Traced runtime → Current runtime proxy.identity →
      Traced (operation proxy runtime).2) :
    Traced (runtime.withHandle table transport handle acceptable operation).2 := by
  unfold ClientRuntime.withHandle
  split
  · exact traced
  · rename_i proxy found
    have known := lawful.get traced.handles proxy (List.mem_of_getElem? found)
    have connected := traced.ensureConnected transport
    have le := connections_le_ensureConnected runtime transport
    split
    · exact traced
    · split
      · rename_i called
        rwa [called] at connected
      · rename_i called
        rw [called] at connected le
        split
        · exact connected.kill lawful handle
        · rename_i same
          rw [not_not] at same
          refine operate proxy _ connected ?_
          rw [Current, ← same]
          exact known.mono le

theorem endHandle {Fields : Type} {table : Table World Fields} (traced : Traced runtime)
    (lawful : Lawful table) (handle : Nat) {identity : Obtained}
    (current : Current runtime identity)
    {destroyed : Except Errno Unit × ControlClient World}
    (talked : Talked [identity] runtime.client destroyed.2) :
    Traced (runtime.endHandle table handle destroyed).2 := by
  have after := traced.talked talked (current_singleton current)
  unfold ClientRuntime.endHandle
  dsimp only
  split
  · exact after
  · exact after.kill lawful handle

theorem storeHandle {Fields : Type} {table : Table World Fields} (traced : Traced runtime)
    (lawful : Lawful table) (transport : Transport World) (stored : Bool) (method : Nat)
    {identity : Obtained} (fresh : identity.connection = runtime.client.connections)
    (fields : Fields) :
    Traced (runtime.storeHandle table transport stored method identity fields).2 := by
  unfold ClientRuntime.storeHandle
  split
  · exact traced.addHandle lawful fresh fields
  · refine traced.talked (clientDestroy_talked method identity) (current_singleton ?_)
    exact ⟨by rw [traced.epoch, fresh], fresh.le⟩

theorem openDevice (traced : Traced runtime) (transport : Transport World) (device : Nat) :
    Traced (runtime.openDevice transport device).2 := by
  refine traced.withHandle devicesOf_lawful transport device true fun proxy runtime traced
    current => ?_
  have answered : Answered [proxy.identity] runtime.client (OfConnection runtime.client)
      (clientCreateContext transport runtime.client proxy.identity) :=
    clientCreateContext_answered proxy.identity
  split
  · rename_i called
    rw [called] at answered
    exact traced.talked answered.talked (current_singleton current)
  · rename_i called
    rw [called] at answered
    have after := traced.talked answered.talked (current_singleton current)
    exact after.addHandle contextsOf_lawful
      ((answered.good _ rfl).trans answered.talked.connections.symm) ()

theorem closeDevice (traced : Traced runtime) (transport : Transport World) (context : Nat) :
    Traced (runtime.closeDevice transport context).2 :=
  traced.withHandle contextsOf_lawful transport context true fun proxy _ traced current =>
    traced.endHandle contextsOf_lawful context current
      (clientDestroyContext_talked proxy.identity)

theorem allocPd (traced : Traced runtime) (transport : Transport World) (host : Host)
    (context : Nat) : Traced (runtime.allocPd transport host context).2 := by
  refine traced.withHandle contextsOf_lawful transport context true fun proxy runtime traced
    current => ?_
  have answered : Answered [proxy.identity] runtime.client (OfConnection runtime.client)
      (clientCreatePd transport runtime.client proxy.identity) :=
    clientCreatePd_answered proxy.identity
  split
  · rename_i called
    rw [called] at answered
    exact traced.talked answered.talked (current_singleton current)
  · rename_i called
    rw [called] at answered
    have after := traced.talked answered.talked (current_singleton current)
    exact after.storeHandle pdsOf_lawful transport host.stored 5
      ((answered.good _ rfl).trans answered.talked.connections.symm) _

theorem deallocPd (traced : Traced runtime) (transport : Transport World) (pd : Nat) :
    Traced (runtime.deallocPd transport pd).2 :=
  traced.withHandle pdsOf_lawful transport pd true fun proxy _ traced current =>
    traced.endHandle pdsOf_lawful pd current (clientDestroy_talked 5 proxy.identity)

theorem regMr (traced : Traced runtime) (transport : Transport World) (host : Host)
    (pd address length : Nat) (access : Int) :
    Traced (runtime.regMr transport host pd address length access).2 := by
  refine traced.withHandle pdsOf_lawful transport pd _ fun proxy runtime traced current => ?_
  split
  · exact traced
  · split
    · exact traced
    · rename_i memory exported
      have answered : Answered [proxy.identity] runtime.client
          (fun result => OfConnection runtime.client result.1)
          (clientRegisterMr transport runtime.client proxy.identity memory
            (.ofNat access.toNat)) :=
        clientRegisterMr_answered proxy.identity memory _
      split
      · rename_i called
        rw [called] at answered
        exact traced.talked answered.talked (current_singleton current)
      · rename_i called
        rw [called] at answered
        have after := traced.talked answered.talked (current_singleton current)
        have counted : Traced { runtime with
            client := _, nextMrHandle := runtime.nextMrHandle + 1 } :=
          ⟨after.epoch, { after.handles with }, after.sent⟩
        exact counted.storeHandle mrsOf_lawful transport host.stored 7
          ((answered.good _ rfl).trans answered.talked.connections.symm) _

theorem deregMr (traced : Traced runtime) (transport : Transport World) (mr : Nat) :
    Traced (runtime.deregMr transport mr).2 :=
  traced.withHandle mrsOf_lawful transport mr true fun proxy _ traced current =>
    traced.endHandle mrsOf_lawful mr current (clientDestroy_talked 7 proxy.identity)

theorem createCq (traced : Traced runtime) (transport : Transport World) (host : Host)
    (context : Nat) (cqe : Int) (channel : Bool) (compVector : Int) :
    Traced (runtime.createCq transport host context cqe channel compVector).2 := by
  refine traced.withHandle contextsOf_lawful transport context _ fun proxy runtime traced
    current => ?_
  have answered : Answered [proxy.identity] runtime.client (OfConnection runtime.client)
      (clientCreateCq transport runtime.client proxy.identity cqe.toNat host.mapRing) :=
    clientCreateCq_answered proxy.identity _ _
  split
  · rename_i called
    rw [called] at answered
    exact traced.talked answered.talked (current_singleton current)
  · rename_i called
    rw [called] at answered
    have after := traced.talked answered.talked (current_singleton current)
    exact after.storeHandle cqsOf_lawful transport host.stored 9
      ((answered.good _ rfl).trans answered.talked.connections.symm) _

theorem destroyCq (traced : Traced runtime) (transport : Transport World) (cq : Nat) :
    Traced (runtime.destroyCq transport cq).2 :=
  traced.withHandle cqsOf_lawful transport cq true fun proxy _ traced current =>
    traced.endHandle cqsOf_lawful cq current (clientDestroy_talked 9 proxy.identity)

theorem destroyQp (traced : Traced runtime) (transport : Transport World) (qp : Nat) :
    Traced (runtime.destroyQp transport qp).2 :=
  traced.withHandle qpsOf_lawful transport qp true fun proxy _ traced current =>
    traced.endHandle qpsOf_lawful qp current (clientDestroy_talked 11 proxy.identity)

theorem cacheState (traced : Traced runtime) (qp : Nat) (state : UInt32) :
    Traced (runtime.cacheState qp state) := by
  refine ⟨traced.epoch, qpsOf_lawful.set traced.handles fun proxy member => ?_, traced.sent⟩
  rcases mem_modify member with old | ⟨old, inside, rfl⟩
  · exact traced.handles.qps proxy old
  · exact traced.handles.qps old inside

theorem modifyQp (traced : Traced runtime) (transport : Transport World) (qp : Nat)
    (attr : Option QpAttr) (attrMask : Int) :
    Traced (runtime.modifyQp transport qp attr attrMask).2 := by
  refine traced.withHandle qpsOf_lawful transport qp _ fun proxy runtime traced current => ?_
  cases attr with
  | none => exact traced
  | some attr =>
      dsimp only
      generalize asked : clientModifyQp transport runtime.client proxy.identity _ _ = answer
      have talked : Talked [proxy.identity] runtime.client answer.2 := by
        rw [← asked]
        exact clientModifyQp_talked ..
      have after := traced.talked talked (current_singleton current)
      obtain ⟨status | _, client⟩ := answer
      · exact after
      · dsimp only
        split
        · exact after.cacheState qp _
        · exact after

theorem queryQp (traced : Traced runtime) (transport : Transport World) (qp : Nat)
    (given : Bool) (attrMask : Int) :
    Traced (runtime.queryQp transport qp given attrMask).2 := by
  refine traced.withHandle qpsOf_lawful transport qp _ fun proxy runtime traced current => ?_
  dsimp only
  generalize asked : clientQueryQp transport runtime.client proxy.identity _ = answer
  have talked : Talked [proxy.identity] runtime.client answer.2 := by
    rw [← asked]
    exact clientQueryQp_talked ..
  have after := traced.talked talked (current_singleton current)
  obtain ⟨status | snapshot, client⟩ := answer
  · exact after
  · dsimp only
    split
    · exact after.cacheState qp _
    · exact after

theorem queryQpConnInfo (traced : Traced runtime) (transport : Transport World) (qp : Nat)
    (given : Bool) : Traced (runtime.queryQpConnInfo transport qp given).2 :=
  traced.withHandle qpsOf_lawful transport qp given fun proxy _ traced current =>
    traced.talked (clientQueryQpConnInfo_talked proxy.identity) (current_singleton current)

theorem connectQp (traced : Traced runtime) (transport : Transport World) (qp : Nat)
    (remoteQpNum : Option UInt32) (attr : Option QpAttr) (attrMask : Int) :
    Traced (runtime.connectQp transport qp remoteQpNum attr attrMask).2 := by
  refine traced.withHandle qpsOf_lawful transport qp _ fun proxy runtime traced current => ?_
  split
  · dsimp only
    generalize asked : clientConnectQp transport runtime.client proxy.identity _ _ _ = answer
    have talked : Talked [proxy.identity] runtime.client answer.2 := by
      rw [← asked]
      exact clientConnectQp_talked ..
    have after := traced.talked talked (current_singleton current)
    obtain ⟨status | _, client⟩ := answer
    · exact after
    · exact after.cacheState qp _
  · exact traced

theorem getDeviceList (traced : Traced runtime) (transport : Transport World) :
    Traced (runtime.getDeviceList transport).2 := by
  have connected := traced.ensureConnected transport
  unfold ClientRuntime.getDeviceList
  split
  · rename_i called
    rwa [called] at connected
  · rename_i runtime called
    rw [called] at connected
    have answered : Answered [] runtime.client (fun _ => True)
        (clientListDevices transport runtime.client) := clientListDevices_answered
    split
    · rename_i listed
      rw [listed] at answered
      exact connected.talked answered.talked nofun
    · rename_i client listed
      rw [listed] at answered
      have after := connected.talked answered.talked nofun
      refine ⟨after.epoch, { after.handles with devices := ?_ }, after.sent⟩
      intro proxy member
      rcases List.mem_append.mp member with old | new
      · exact after.handles.devices proxy old
      · obtain ⟨descriptor, -, rfl⟩ := List.mem_map.mp new
        exact ⟨after.epoch, Nat.le_refl _⟩

theorem freeDeviceList (traced : Traced runtime) (list : Nat) :
    Traced (runtime.freeDeviceList list).2 := by
  unfold ClientRuntime.freeDeviceList
  split
  · exact traced
  · rename_i record found
    split
    · exact traced
    · have marked : Traced { runtime with
          lists := runtime.lists.modify list fun record => { record with live := false } } :=
        ⟨traced.epoch, { traced.handles with }, traced.sent⟩
      dsimp only
      generalize { runtime with
        lists := runtime.lists.modify list fun record => { record with live := false } } =
          start at marked
      clear found
      induction record.devices generalizing start with
      | nil => exact marked
      | cons device devices induction =>
          exact induction _ (marked.kill devicesOf_lawful device)

theorem qpArguments_some {pd : Nat} {given : Option QpInitAttr} {initAttr : QpInitAttr}
    {pdProxy : Proxy PdFields} {sendCq recvCq : Proxy CqFields}
    (accepted : runtime.qpArguments pd given = some (initAttr, pdProxy, sendCq, recvCq)) :
    given = some initAttr ∧ runtime.pds[pd]? = some pdProxy ∧
      runtime.cqs[initAttr.sendCq]? = some sendCq ∧
      runtime.cqs[initAttr.recvCq]? = some recvCq := by
  simp only [ClientRuntime.qpArguments, Option.bind_eq_bind, Option.bind_eq_some_iff] at accepted
  obtain ⟨attr, given, pd, pdFound, send, sendFound, recv, recvFound, checked⟩ := accepted
  split at checked
  · cases checked
  · cases checked
    exact ⟨given, pdFound, sendFound, recvFound⟩

theorem createQp (traced : Traced runtime) (transport : Transport World) (host : Host)
    (pd : Nat) (initAttr : Option QpInitAttr) :
    Traced (runtime.createQp transport host pd initAttr).2 := by
  unfold ClientRuntime.createQp
  split
  · exact traced
  · rename_i attr pdProxy sendCq recvCq accepted
    obtain ⟨-, pdFound, sendFound, recvFound⟩ := qpArguments_some accepted
    have pdKnown := traced.handles.pds pdProxy (List.mem_of_getElem? pdFound)
    have sendKnown := traced.handles.cqs sendCq (List.mem_of_getElem? sendFound)
    have recvKnown := traced.handles.cqs recvCq (List.mem_of_getElem? recvFound)
    have connected := traced.ensureConnected transport
    have le := connections_le_ensureConnected runtime transport
    split
    · rename_i called
      rwa [called] at connected
    · rename_i after called
      rw [called] at connected le
      dsimp only at connected le ⊢
      split
      · exact ((connected.kill pdsOf_lawful pd).kill cqsOf_lawful attr.sendCq).kill cqsOf_lawful
          attr.recvCq
      · rename_i same
        simp only [not_or, not_not] at same
        obtain ⟨pdSame, sendSame, recvSame⟩ := same
        have current : ∀ identity ∈ [pdProxy.identity, sendCq.identity, recvCq.identity],
            OfEpoch after.client.connections identity after.client.connectionEpoch := by
          intro identity member
          simp only [List.mem_cons, List.not_mem_nil, or_false] at member
          rcases member with rfl | rfl | rfl
          · rw [← pdSame]
            exact pdKnown.mono le
          · rw [← sendSame]
            exact sendKnown.mono le
          · rw [← recvSame]
            exact recvKnown.mono le
        have answered : Answered [pdProxy.identity, sendCq.identity, recvCq.identity]
            after.client (OfConnection after.client)
            (clientCreateQp transport after.client pdProxy.identity sendCq.identity
              recvCq.identity (createAttributes attr sendCq.identity recvCq.identity)
              host.mapRing) :=
          clientCreateQp_answered _ _ _ _ rfl rfl _
        split
        · rename_i created
          rw [created] at answered
          exact connected.talked answered.talked current
        · rename_i created
          rw [created] at answered
          have stored := connected.talked answered.talked current
          exact stored.storeHandle qpsOf_lawful transport host.stored 11
            ((answered.good _ rfl).trans answered.talked.connections.symm) _

/-- Every call keeps the handles on their connections. -/
theorem perform (traced : Traced runtime) (transport : Transport World) (host : Host)
    (call : ApiCall) : Traced (runtime.perform transport host call).2 := by
  cases call with
  | getDeviceList => exact traced.getDeviceList transport
  | freeDeviceList list => exact traced.freeDeviceList list
  | openDevice device => exact traced.openDevice transport device
  | closeDevice context => exact traced.closeDevice transport context
  | allocPd context => exact traced.allocPd transport host context
  | deallocPd pd => exact traced.deallocPd transport pd
  | regMr pd address length access => exact traced.regMr transport host pd address length access
  | deregMr mr => exact traced.deregMr transport mr
  | createCq context cqe channel compVector =>
      exact traced.createCq transport host context cqe channel compVector
  | destroyCq cq => exact traced.destroyCq transport cq
  | createQp pd initAttr => exact traced.createQp transport host pd initAttr
  | destroyQp qp => exact traced.destroyQp transport qp
  | modifyQp qp attr attrMask => exact traced.modifyQp transport qp attr attrMask
  | queryQp qp given attrMask => exact traced.queryQp transport qp given attrMask
  | queryQpConnInfo qp given => exact traced.queryQpConnInfo transport qp given
  | connectQp qp remoteQpNum attr attrMask =>
      exact traced.connectQp transport qp remoteQpNum attr attrMask

end Traced

/-! ## Old handles -/

inductive HandleRef
  | device (index : Nat)
  | context (index : Nat)
  | pd (index : Nat)
  | mr (index : Nat)
  | cq (index : Nat)
  | qp (index : Nat)
  deriving DecidableEq, Repr

/-- The epoch of a handle, and whether it is live. -/
def handleAt (runtime : ClientRuntime World) : HandleRef → Option (Nat × Bool)
  | .device index => runtime.devices[index]?.map fun proxy => (proxy.connectionEpoch, proxy.live)
  | .context index =>
      runtime.contexts[index]?.map fun proxy => (proxy.connectionEpoch, proxy.live)
  | .pd index => runtime.pds[index]?.map fun proxy => (proxy.connectionEpoch, proxy.live)
  | .mr index => runtime.mrs[index]?.map fun proxy => (proxy.connectionEpoch, proxy.live)
  | .cq index => runtime.cqs[index]?.map fun proxy => (proxy.connectionEpoch, proxy.live)
  | .qp index => runtime.qps[index]?.map fun proxy => (proxy.connectionEpoch, proxy.live)

/-- The handles whose numbers a call sends to the daemon. -/
def ApiCall.handles : ApiCall → List HandleRef
  | .getDeviceList => []
  | .freeDeviceList _ => []
  | .openDevice device => [.device device]
  | .closeDevice context => [.context context]
  | .allocPd context => [.context context]
  | .deallocPd pd => [.pd pd]
  | .regMr pd _ _ _ => [.pd pd]
  | .deregMr mr => [.mr mr]
  | .createCq context _ _ _ => [.context context]
  | .destroyCq cq => [.cq cq]
  | .createQp pd initAttr =>
      .pd pd :: (initAttr.toList.flatMap fun attr => [.cq attr.sendCq, .cq attr.recvCq])
  | .destroyQp qp => [.qp qp]
  | .modifyQp qp _ _ => [.qp qp]
  | .queryQp qp _ _ => [.qp qp]
  | .queryQpConnInfo qp _ => [.qp qp]
  | .connectQp qp _ _ _ => [.qp qp]

/-- The checks a call makes on its other arguments, and `create_qp` on its handles. -/
def accepts (runtime : ClientRuntime World) : ApiCall → Bool
  | .regMr _ address length access => acceptableRegion address length access
  | .createCq _ cqe channel compVector => 0 < cqe ∧ channel = false ∧ compVector = 0
  | .createQp pd initAttr => (runtime.qpArguments pd initAttr).isSome
  | .modifyQp _ attr attrMask => attr.isSome ∧ 0 ≤ attrMask
  | .queryQp _ given attrMask => given ∧ 0 ≤ attrMask
  | .queryQpConnInfo _ given => given
  | .connectQp _ remoteQpNum attr attrMask =>
      remoteQpNum.getD 0 ≠ 0 ∧ attr.isSome ∧ 0 ≤ attrMask
  | _ => true

/-- A call on an old handle: nothing is sent, and the handle is given up. -/
structure Rejected (runtime : ClientRuntime World) (call : ApiCall) (handle : HandleRef)
    (epoch : Nat) (result : Status × ClientRuntime World) : Prop where
  status : result.1 = some .einval
  sent : result.2.client.sent = runtime.client.sent
  dead : runtime.accepts call = true → result.2.handleAt handle = some (epoch, false)

theorem ensureConnected_eq (runtime : ClientRuntime World) (transport : Transport World) :
    ∃ client, (runtime.ensureConnected transport).2 = { runtime with client } ∧
      client.sent = runtime.client.sent := by
  unfold ensureConnected
  split
  · exact ⟨runtime.client, rfl, rfl⟩
  · refine ⟨_, rfl, ?_⟩
    unfold ControlClient.connect
    split <;> rfl

theorem withHandle_stale {Fields Result : Type} {table : Table World Fields}
    (lawful : Lawful table) {handle : Nat} {acceptable : Bool}
    {operation : Proxy Fields → ClientRuntime World →
      Except Errno Result × ClientRuntime World} {proxy : Proxy Fields}
    (found : (table.get runtime)[handle]? = some proxy)
    (connected : (runtime.ensureConnected transport).1 = none)
    (old : proxy.connectionEpoch ≠
      (runtime.ensureConnected transport).2.client.connectionEpoch) :
    let result := runtime.withHandle table transport handle acceptable operation
    result.1 = .error .einval ∧ result.2.client.sent = runtime.client.sent ∧
      (acceptable = true →
        (table.get result.2)[handle]? = some { proxy with live := false }) := by
  obtain ⟨client, after, sent⟩ := ensureConnected_eq runtime transport
  have ensured : runtime.ensureConnected transport = (none, { runtime with client }) :=
    Prod.ext connected after
  rw [ensured] at old
  unfold withHandle
  rw [found]
  dsimp only
  split
  · rename_i refused
    refine ⟨rfl, rfl, fun acceptable => ?_⟩
    rcases refused with dead | refused
    · rw [found, ← dead]
    · rw [acceptable] at refused
      cases refused
  · rw [ensured]
    dsimp only
    rw [if_pos old]
    refine ⟨rfl, ?_, fun _ => ?_⟩
    · rw [kill, lawful.client]
      exact sent
    · rw [kill, lawful.getSet, List.getElem?_modify_eq, lawful.getClient, found]
      rfl

theorem rejected_of_withHandle {Fields Result : Type} {table : Table World Fields}
    (lawful : Lawful table) {ref : HandleRef} {handle : Nat} {call : ApiCall}
    {acceptable : Bool} {operation : Proxy Fields → ClientRuntime World →
      Except Errno Result × ClientRuntime World} {epoch : Nat} {live : Bool}
    (place : ∀ runtime : ClientRuntime World, runtime.handleAt ref =
      (table.get runtime)[handle]?.map fun proxy => (proxy.connectionEpoch, proxy.live))
    (performed : runtime.perform transport host call =
      (runtime.withHandle table transport handle acceptable operation).map statusOf id)
    (accepted : runtime.accepts call = acceptable)
    (known : runtime.handleAt ref = some (epoch, live))
    (connected : (runtime.ensureConnected transport).1 = none)
    (old : epoch ≠ (runtime.ensureConnected transport).2.client.connectionEpoch) :
    Rejected runtime call ref epoch (runtime.perform transport host call) := by
  rw [place] at known
  obtain ⟨proxy, found, same⟩ := Option.map_eq_some_iff.mp known
  cases same
  obtain ⟨status, sent, dead⟩ := withHandle_stale lawful found connected old
  rw [performed]
  refine ⟨?_, sent, fun acceptance => ?_⟩
  · exact congrArg statusOf status
  · rw [place]
    exact Option.map_eq_some_iff.mpr ⟨_, dead (accepted ▸ acceptance), rfl⟩

/-- `create_qp` gives up its handles together. -/
theorem createQp_stale {pd : Nat} {initAttr : Option QpInitAttr} {ref : HandleRef}
    {epoch : Nat} {live : Bool} (member : ref ∈ (ApiCall.createQp pd initAttr).handles)
    (known : runtime.handleAt ref = some (epoch, live))
    (connected : (runtime.ensureConnected transport).1 = none)
    (old : epoch ≠ (runtime.ensureConnected transport).2.client.connectionEpoch) :
    Rejected runtime (.createQp pd initAttr) ref epoch
      (runtime.perform transport host (.createQp pd initAttr)) := by
  obtain ⟨client, after, sent⟩ := ensureConnected_eq runtime transport
  have ensured : runtime.ensureConnected transport = (none, { runtime with client }) :=
    Prod.ext connected after
  rw [ensured] at old
  simp only [perform, createQp]
  split
  · rename_i refused
    refine ⟨rfl, rfl, fun accepted => ?_⟩
    simp [accepts, refused] at accepted
  · rename_i attr pdProxy sendCq recvCq accepted
    obtain ⟨rfl, pdFound, sendFound, recvFound⟩ := Traced.qpArguments_some accepted
    simp only [ApiCall.handles, Option.toList_some, List.flatMap_cons, List.flatMap_nil,
      List.append_nil, List.mem_cons, List.not_mem_nil, or_false] at member
    rw [ensured]
    dsimp only
    rw [if_pos]
    · refine ⟨rfl, sent, fun _ => ?_⟩
      rcases member with rfl | rfl | rfl
      · simp only [handleAt, pdFound, Option.map_some, Option.some.injEq, Prod.mk.injEq] at known
        simp [handleAt, kill, pdsOf, cqsOf, pdFound, known.1]
      · simp only [handleAt, sendFound, Option.map_some, Option.some.injEq, Prod.mk.injEq]
          at known
        simp [handleAt, kill, pdsOf, cqsOf, List.getElem?_modify, sendFound, known.1]
      · simp only [handleAt, recvFound, Option.map_some, Option.some.injEq, Prod.mk.injEq]
          at known
        by_cases same : attr.sendCq = attr.recvCq <;>
          simp [handleAt, kill, pdsOf, cqsOf, recvFound, same, known.1]
    · rcases member with rfl | rfl | rfl
      · simp only [handleAt, pdFound, Option.map_some, Option.some.injEq, Prod.mk.injEq] at known
        exact .inl (known.1 ▸ old)
      · simp only [handleAt, sendFound, Option.map_some, Option.some.injEq, Prod.mk.injEq]
          at known
        exact .inr (.inl (known.1 ▸ old))
      · simp only [handleAt, recvFound, Option.map_some, Option.some.injEq, Prod.mk.injEq]
          at known
        exact .inr (.inr (known.1 ▸ old))

/-- A call on a handle of another connection than the one there is now, or that was just
made for it. -/
theorem perform_stale {call : ApiCall} {ref : HandleRef} {epoch : Nat} {live : Bool}
    (member : ref ∈ call.handles) (known : runtime.handleAt ref = some (epoch, live))
    (connected : (runtime.ensureConnected transport).1 = none)
    (old : epoch ≠ (runtime.ensureConnected transport).2.client.connectionEpoch) :
    Rejected runtime call ref epoch (runtime.perform transport host call) := by
  cases call with
  | getDeviceList => cases member
  | freeDeviceList list => cases member
  | openDevice device =>
      cases List.mem_singleton.mp member
      exact rejected_of_withHandle devicesOf_lawful (fun _ => rfl) rfl rfl known connected old
  | closeDevice context =>
      cases List.mem_singleton.mp member
      exact rejected_of_withHandle contextsOf_lawful (fun _ => rfl) rfl rfl known connected old
  | allocPd context =>
      cases List.mem_singleton.mp member
      exact rejected_of_withHandle contextsOf_lawful (fun _ => rfl) rfl rfl known connected old
  | deallocPd pd =>
      cases List.mem_singleton.mp member
      exact rejected_of_withHandle pdsOf_lawful (fun _ => rfl) rfl rfl known connected old
  | regMr pd address length access =>
      cases List.mem_singleton.mp member
      exact rejected_of_withHandle pdsOf_lawful (fun _ => rfl) rfl rfl known connected old
  | deregMr mr =>
      cases List.mem_singleton.mp member
      exact rejected_of_withHandle mrsOf_lawful (fun _ => rfl) rfl rfl known connected old
  | createCq context cqe channel compVector =>
      cases List.mem_singleton.mp member
      exact rejected_of_withHandle contextsOf_lawful (fun _ => rfl) rfl rfl known connected old
  | destroyCq cq =>
      cases List.mem_singleton.mp member
      exact rejected_of_withHandle cqsOf_lawful (fun _ => rfl) rfl rfl known connected old
  | createQp pd initAttr => exact createQp_stale member known connected old
  | destroyQp qp =>
      cases List.mem_singleton.mp member
      exact rejected_of_withHandle qpsOf_lawful (fun _ => rfl) rfl rfl known connected old
  | modifyQp qp attr attrMask =>
      cases List.mem_singleton.mp member
      exact rejected_of_withHandle qpsOf_lawful (fun _ => rfl) rfl rfl known connected old
  | queryQp qp given attrMask =>
      cases List.mem_singleton.mp member
      exact rejected_of_withHandle qpsOf_lawful (fun _ => rfl) rfl rfl known connected old
  | queryQpConnInfo qp given =>
      cases List.mem_singleton.mp member
      exact rejected_of_withHandle qpsOf_lawful (fun _ => rfl) rfl rfl known connected old
  | connectQp qp remoteQpNum attr attrMask =>
      cases List.mem_singleton.mp member
      exact rejected_of_withHandle qpsOf_lawful (fun _ => rfl) rfl rfl known connected old

/-! ## Runs -/

/-- One call, with how the daemon, the connection and the host behave during it. -/
structure Turn (World : Type) where
  call : ApiCall
  transport : Transport World
  host : Host

def takeTurn (runtime : ClientRuntime World) (turn : Turn World) : ClientRuntime World :=
  (runtime.perform turn.transport turn.host turn.call).2

theorem run_traced (world : World) (turns : List (Turn World)) :
    Traced (Execution.run takeTurn { client := { world } } turns) := by
  refine Execution.run_invariant ?_ (traced_initial world) turns
  intro runtime turn traced
  exact traced.perform turn.transport turn.host turn.call

/-- Every request was sent on the connection that its numbers are from, and a call on a
handle of another connection is rejected. -/
theorem handles_keep_to_connection (world : World) (turns : List (Turn World)) :
    let runtime := Execution.run takeTurn { client := { world } } turns
    runtime.client.connections < 2 ^ 64 →
      (∀ sent ∈ runtime.client.sent, sent.Names ∧
        ∀ identity ∈ sent.identities, identity.connection = sent.connection) ∧
      Handles (fun identity epoch => epoch = identity.connection) runtime ∧
      ∀ call ref epoch live, ref ∈ call.handles →
        runtime.handleAt ref = some (epoch, live) → ∀ transport host,
          (runtime.ensureConnected transport).1 = none →
          epoch ≠ (runtime.ensureConnected transport).2.client.connectionEpoch →
            Rejected runtime call ref epoch (runtime.perform transport host call) := by
  intro runtime bounded
  have traced : Traced runtime := run_traced world turns
  refine ⟨fun sent member => ?_, traced.handles.mono fun identity epoch ofEpoch => ?_,
    fun call ref epoch live member known transport host connected old =>
      perform_stale member known connected old⟩
  · obtain ⟨named, connection, identities⟩ := traced.sent sent member
    refine ⟨named, fun identity contained => ?_⟩
    obtain ⟨le, same⟩ := identities identity contained
    rwa [epochOf_eq (Nat.lt_of_le_of_lt le bounded),
      epochOf_eq (Nat.lt_of_le_of_lt connection bounded)] at same
  · obtain ⟨same, le⟩ := ofEpoch
    rwa [epochOf_eq (Nat.lt_of_le_of_lt le bounded)] at same

/-- A daemon with one device that answers nothing but `list_devices`. -/
def forgetful : Transport Unit where
  connect := fun _ => (none, ())
  exchange := fun _ request =>
    if request.method = 1 then
      (.ok
        { method := 1
          payload := Wire.encode 4 1 ++ Wire.encode 8 1 ++ Wire.encode 2 0 }, ())
    else
      (.error (.other 104), ())

def plainHost : Host := ⟨fun _ _ => .error .einval, fun _ => none, true⟩

/-- The device was listed on the first connection, which is lost when it is opened; the
second attempt is made on a new connection. -/
theorem handles_keep_to_connection_reconnect :
    let runtime := Execution.run takeTurn { client := { world := () } }
      [⟨.getDeviceList, forgetful, plainHost⟩, ⟨.openDevice 0, forgetful, plainHost⟩]
    runtime.client.connections = 1 ∧ runtime.client.sent.length = 2 ∧
      Rejected runtime (.openDevice 0) (.device 0) 1
        (runtime.perform forgetful plainHost (.openDevice 0)) := by
  intro runtime
  have bounded : runtime.client.connections < 2 ^ 64 := by decide +kernel
  have kept := handles_keep_to_connection ()
    [⟨.getDeviceList, forgetful, plainHost⟩, ⟨.openDevice 0, forgetful, plainHost⟩] bounded
  refine ⟨by decide +kernel, by decide +kernel, ?_⟩
  exact kept.2.2 (.openDevice 0) (.device 0) 1 true (by decide) (by decide +kernel) forgetful
    plainHost (by decide +kernel) (by decide +kernel)

end Ugdr.Api.ClientRuntime
