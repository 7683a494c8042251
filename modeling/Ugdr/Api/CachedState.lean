import Ugdr.Api.Epochs
import Ugdr.Control.ClientEffects
import Ugdr.Control.RequestEffects

/-! # Cached queue-pair states

A handle of a queue pair remembers the state that the daemon's record is in. Whatever else
happens at the daemon and wherever connections break, it is right about that as long as the
connection is open.
-/

namespace Ugdr.Api.ClientRuntime

open Ugdr.Control Daemon

/-! ## The invariant -/

/-- The handle is one that calls on the open connection accept. -/
structure Usable (client : ControlClient Daemon) (proxy : Proxy QpFields) : Prop where
  live : proxy.live = true
  current : proxy.connectionEpoch = client.connectionEpoch

/-- No two usable handles are of one queue pair, and the cached states are those of the
daemon's records. -/
structure Cached (client : ControlClient Daemon) (qps : List (Proxy QpFields)) : Prop where
  distinct : ∀ (left right : Nat) (proxy other : Proxy QpFields), qps[left]? = some proxy →
    qps[right]? = some other → Usable client proxy → Usable client other →
      proxy.identity.value = other.identity.value → left = right
  shows : client.connected = true → ∀ proxy ∈ qps, Usable client proxy →
    client.world.Shows proxy.identity.value proxy.fields.cachedState.toNat

structure Agreed (runtime : ClientRuntime Daemon) : Prop where
  sound : runtime.client.world.Sound
  cached : runtime.client.connections < 2 ^ 64 → Cached runtime.client runtime.qps

section Handles

variable {before client after : ControlClient Daemon} {qps : List (Proxy QpFields)}
  {touched : List Nat}

theorem usable_iff {proxy : Proxy QpFields} (kept : Kept touched before after) :
    Usable after proxy ↔ Usable before proxy := by
  constructor
  · exact fun usable => ⟨usable.live, usable.current.trans kept.connectionEpoch⟩
  · exact fun usable => ⟨usable.live, usable.current.trans kept.connectionEpoch.symm⟩

theorem Cached.of_none_usable (unusable : ∀ proxy ∈ qps, ¬Usable client proxy) :
    Cached client qps where
  distinct := fun _ _ proxy _ found _ usable _ _ =>
    absurd usable (unusable proxy (List.mem_of_getElem? found))
  shows := fun _ proxy member usable => absurd usable (unusable proxy member)

theorem Cached.kept (cached : Cached before qps) (kept : Kept [] before after) :
    Cached after qps where
  distinct := fun left right proxy other proxyFound otherFound usable otherUsable =>
    cached.distinct left right proxy other proxyFound otherFound ((usable_iff kept).mp usable)
      ((usable_iff kept).mp otherUsable)
  shows := fun connected proxy member usable =>
    (cached.shows (kept.connected connected) proxy member ((usable_iff kept).mp usable)).keeps
      (kept.keeps connected) List.not_mem_nil

/-- A request that may have touched the queue pair of one handle, which is updated. -/
theorem Cached.update (cached : Cached before qps) (kept : Kept touched before after)
    {handle : Nat} {proxy : Proxy QpFields} (found : qps[handle]? = some proxy)
    (spared : ∀ identity ∈ touched, identity = proxy.identity.value ∧ Usable before proxy)
    {update : Proxy QpFields → Proxy QpFields}
    (identity : ∀ proxy, (update proxy).identity = proxy.identity)
    (narrows : ∀ proxy, Usable after (update proxy) → Usable before proxy)
    (shows : after.connected = true → Usable after (update proxy) →
      after.world.Shows proxy.identity.value (update proxy).fields.cachedState.toNat) :
    Cached after (qps.modify handle update) := by
  have former : ∀ {index : Nat} {new : Proxy QpFields},
      (qps.modify handle update)[index]? = some new → ∃ old, qps[index]? = some old ∧
        new.identity = old.identity ∧ (Usable after new → Usable before old) := by
    intro index new newFound
    rw [List.getElem?_modify] at newFound
    obtain ⟨old, oldFound, rfl⟩ := Option.map_eq_some_iff.mp newFound
    refine ⟨old, oldFound, ?_⟩
    split
    · exact ⟨identity old, narrows old⟩
    · exact ⟨rfl, (usable_iff kept).mp⟩
  refine ⟨fun left right new other newFound otherFound usable otherUsable same => ?_,
    fun connected new member usable => ?_⟩
  · obtain ⟨old, oldFound, oldIdentity, oldUsable⟩ := former newFound
    obtain ⟨oldOther, oldOtherFound, otherIdentity, oldOtherUsable⟩ := former otherFound
    rw [oldIdentity, otherIdentity] at same
    exact cached.distinct left right old oldOther oldFound oldOtherFound (oldUsable usable)
      (oldOtherUsable otherUsable) same
  · obtain ⟨index, newFound⟩ := List.mem_iff_getElem?.mp member
    rw [List.getElem?_modify] at newFound
    obtain ⟨old, oldFound, rfl⟩ := Option.map_eq_some_iff.mp newFound
    by_cases here : handle = index
    · subst here
      cases found.symm.trans oldFound
      rw [if_pos rfl] at usable ⊢
      rw [identity]
      exact shows connected usable
    · rw [if_neg here] at usable ⊢
      have known := (usable_iff kept).mp usable
      have stored := List.mem_of_getElem? oldFound
      refine (cached.shows (kept.connected connected) old stored known).keeps
        (kept.keeps connected) fun inside => here ?_
      -- Two usable handles of one queue pair are the same one.
      obtain ⟨same, proxyUsable⟩ := spared _ inside
      exact cached.distinct handle index proxy old found oldFound proxyUsable known same.symm

/-- A handle of a new queue pair. -/
theorem Cached.add (cached : Cached before qps) (kept : Kept [] before after)
    {proxy : Proxy QpFields} (fresh : Fresh before proxy.identity.value)
    (shows : after.world.Shows proxy.identity.value proxy.fields.cachedState.toNat) :
    Cached after (qps ++ [proxy]) := by
  have still := cached.kept kept
  have unused : ∀ old ∈ qps, Usable after old → old.identity.value ≠ proxy.identity.value := by
    intro old member usable
    obtain ⟨connected, session, opened, differs⟩ := fresh
    obtain ⟨record, stored, -⟩ :=
      cached.shows connected old member ((usable_iff kept).mp usable) session opened
    exact differs _ stored rfl
  have place : ∀ {index : Nat} {new : Proxy QpFields}, (qps ++ [proxy])[index]? = some new →
      qps[index]? = some new ∨ index = qps.length ∧ new = proxy := by
    intro index new found
    rw [List.getElem?_append] at found
    split at found
    · exact .inl found
    · rw [List.getElem?_singleton] at found
      split at found <;> cases found
      exact .inr ⟨by omega, rfl⟩
  refine ⟨fun left right new other newFound otherFound usable otherUsable same => ?_,
    fun connected new member usable => ?_⟩
  · rcases place newFound with newOld | ⟨newPlace, rfl⟩
    · rcases place otherFound with otherOld | ⟨otherPlace, rfl⟩
      · exact still.distinct left right new other newOld otherOld usable otherUsable same
      · exact absurd same (unused new (List.mem_of_getElem? newOld) usable)
    · rcases place otherFound with otherOld | ⟨otherPlace, rfl⟩
      · exact absurd same.symm (unused other (List.mem_of_getElem? otherOld) otherUsable)
      · exact newPlace.trans otherPlace.symm
  · rcases List.mem_append.mp member with old | new
    · exact still.shows connected _ old usable
    · rw [List.mem_singleton.mp new]
      exact shows

end Handles

/-! ## Operations -/

section Operations

variable {runtime : ClientRuntime Daemon} {transport : Transport Daemon}
  {client : ControlClient Daemon}

/-- A table of handles of something else. -/
structure Aside {Fields : Type} (table : Table Daemon Fields) : Prop where
  client : ∀ runtime proxies, (table.set runtime proxies).client = runtime.client
  qps : ∀ runtime proxies, (table.set runtime proxies).qps = runtime.qps

namespace Agreed

theorem of_same (agreed : Agreed runtime) {after : ClientRuntime Daemon}
    (client : after.client = runtime.client) (qps : after.qps = runtime.qps) : Agreed after := by
  refine ⟨?_, ?_⟩
  · rw [client]
    exact agreed.sound
  · rw [client, qps]
    exact agreed.cached

theorem kept (agreed : Agreed runtime) (kept : Kept [] runtime.client client) :
    Agreed { runtime with client } := by
  refine ⟨kept.sound, fun bounded => (agreed.cached ?_).kept kept⟩
  rwa [← kept.connections]

theorem update (agreed : Agreed runtime) {touched : List Nat}
    (kept : Kept touched runtime.client client) {handle : Nat} {proxy : Proxy QpFields}
    (found : runtime.qps[handle]? = some proxy)
    (spared : ∀ identity ∈ touched,
      identity = proxy.identity.value ∧ Usable runtime.client proxy)
    {change : Proxy QpFields → Proxy QpFields}
    (identity : ∀ proxy, (change proxy).identity = proxy.identity)
    (narrows : ∀ proxy, Usable client (change proxy) → Usable runtime.client proxy)
    (shows : client.connected = true → Usable client (change proxy) →
      client.world.Shows proxy.identity.value (change proxy).fields.cachedState.toNat) :
    Agreed { runtime with client, qps := runtime.qps.modify handle change } := by
  refine ⟨kept.sound, fun bounded =>
    (agreed.cached ?_).update kept found spared identity narrows shows⟩
  rwa [← kept.connections]

/-- A handle that is given up. -/
theorem killQp (agreed : Agreed runtime) {touched : List Nat}
    (kept : Kept touched runtime.client client) {handle : Nat} {proxy : Proxy QpFields}
    (found : runtime.qps[handle]? = some proxy)
    (spared : ∀ identity ∈ touched,
      identity = proxy.identity.value ∧ Usable runtime.client proxy) :
    Agreed ({ runtime with client }.kill qpsOf handle) :=
  agreed.update kept found spared (fun _ => rfl) (fun _ usable => nomatch usable.live)
    fun _ usable => nomatch usable.live

theorem kill {Fields : Type} {table : Table Daemon Fields} (agreed : Agreed runtime)
    (aside : Aside table) (handle : Nat) : Agreed (runtime.kill table handle) :=
  agreed.of_same (aside.client _ _) (aside.qps _ _)

theorem addHandle {Fields : Type} {table : Table Daemon Fields} (agreed : Agreed runtime)
    (aside : Aside table) (identity : Obtained) (fields : Fields) :
    Agreed (runtime.addHandle table identity fields) :=
  agreed.of_same (aside.client _ _) (aside.qps _ _)

/-- No handle is of a connection that was just made. -/
theorem ensureConnected (agreed : Agreed runtime) (traced : Traced runtime)
    (faithful : Faithful transport) : Agreed (runtime.ensureConnected transport).2 := by
  unfold ClientRuntime.ensureConnected
  split
  · exact agreed
  · rename_i disconnected
    have joined := faithful.connect runtime.client.world
    unfold ControlClient.connect
    generalize transport.connect runtime.client.world = answer at joined
    cases joined with
    | failed status moved =>
        refine ⟨moved_sound moved agreed.sound, fun bounded => ?_⟩
        obtain ⟨distinct, shows⟩ := agreed.cached bounded
        refine ⟨fun left right proxy other found otherFound usable otherUsable =>
          distinct left right proxy other found otherFound ⟨usable.live, usable.current⟩
            ⟨otherUsable.live, otherUsable.current⟩, fun connected => ?_⟩
        exact absurd connected disconnected
    | accepted session moved later =>
        have sound : Sound ⟨runtime.client.world.service, none⟩ :=
          ⟨agreed.sound.valid, agreed.sound.staged⟩
        have known := moved_sound moved sound
        refine ⟨moved_sound later ⟨known.valid, known.staged⟩, fun bounded => ?_⟩
        refine .of_none_usable fun proxy member usable => ?_
        have current : proxy.connectionEpoch = epochOf (runtime.client.connections + 1) := by
          rw [usable.current, ← epochOf_succ, ← traced.epoch]
        obtain ⟨epoch, le⟩ := traced.handles.qps proxy member
        have less : runtime.client.connections + 1 < 2 ^ 64 := bounded
        rw [epoch, epochOf_eq (by omega), epochOf_eq less] at current
        omega

/-- What an operation on a handle goes on with. -/
theorem withHandle {Fields Result : Type} {table : Table Daemon Fields} (agreed : Agreed runtime)
    (traced : Traced runtime) (faithful : Faithful transport) (lawful : Lawful table)
    (kills : ∀ runtime, Agreed runtime → ∀ handle proxy,
      (table.get runtime)[handle]? = some proxy → Agreed (runtime.kill table handle))
    (handle : Nat) (acceptable : Bool) {operation : Proxy Fields → ClientRuntime Daemon →
      Except Errno Result × ClientRuntime Daemon}
    (operate : ∀ proxy runtime, Agreed runtime → (table.get runtime)[handle]? = some proxy →
      proxy.live = true → proxy.connectionEpoch = runtime.client.connectionEpoch →
        Agreed (operation proxy runtime).2) :
    Agreed (runtime.withHandle table transport handle acceptable operation).2 := by
  have connected := agreed.ensureConnected traced faithful
  obtain ⟨client, ensured, -⟩ := ensureConnected_eq runtime transport
  unfold ClientRuntime.withHandle
  split
  · exact agreed
  · rename_i proxy found
    have still : (table.get (runtime.ensureConnected transport).2)[handle]? = some proxy := by
      rw [ensured, lawful.getClient]
      exact found
    split
    · exact agreed
    · rename_i accepted
      split
      · rename_i result
        rwa [result] at connected
      · rename_i result
        rw [result] at connected still
        split
        · exact kills _ connected handle proxy still
        · rename_i current
          exact operate proxy _ connected still
            (Bool.eq_true_of_not_eq_false fun dead => accepted (.inl dead)) (not_not.mp current)

theorem onHandle {Fields Result : Type} {table : Table Daemon Fields} (agreed : Agreed runtime)
    (traced : Traced runtime) (faithful : Faithful transport) (lawful : Lawful table)
    (aside : Aside table) (handle : Nat) (acceptable : Bool)
    {operation : Proxy Fields → ClientRuntime Daemon →
      Except Errno Result × ClientRuntime Daemon}
    (operate : ∀ proxy runtime, Agreed runtime → Agreed (operation proxy runtime).2) :
    Agreed (runtime.withHandle table transport handle acceptable operation).2 :=
  agreed.withHandle traced faithful lawful (fun _ agreed handle _ _ => agreed.kill aside handle)
    handle acceptable fun proxy runtime agreed _ _ _ => operate proxy runtime agreed

/-- The handle has passed all comparisons. -/
theorem onQp {Result : Type} (agreed : Agreed runtime) (traced : Traced runtime)
    (faithful : Faithful transport) (qp : Nat) (acceptable : Bool)
    {operation : Proxy QpFields → ClientRuntime Daemon →
      Except Errno Result × ClientRuntime Daemon}
    (operate : ∀ proxy runtime, Agreed runtime → runtime.qps[qp]? = some proxy →
      Usable runtime.client proxy → Agreed (operation proxy runtime).2) :
    Agreed (runtime.withHandle qpsOf transport qp acceptable operation).2 :=
  agreed.withHandle traced faithful qpsOf_lawful
    (fun _ agreed _ _ found => agreed.killQp (.refl [] agreed.sound) found nofun)
    qp acceptable fun proxy runtime agreed found live current =>
      operate proxy runtime agreed found ⟨live, current⟩

theorem endHandle {Fields : Type} {table : Table Daemon Fields} (agreed : Agreed runtime)
    (aside : Aside table) (handle : Nat)
    {destroyed : Except Errno Unit × ControlClient Daemon}
    (kept : Kept [] runtime.client destroyed.2) :
    Agreed (runtime.endHandle table handle destroyed).2 := by
  have after := agreed.kept kept
  unfold ClientRuntime.endHandle
  dsimp only
  split
  · exact after
  · exact after.kill aside handle

theorem storeHandle {Fields : Type} {table : Table Daemon Fields} (agreed : Agreed runtime)
    (faithful : Faithful transport) (aside : Aside table) (stored : Bool) {method : Nat}
    (harmless : ¬changesQp method) (identity : Obtained) (fields : Fields) :
    Agreed (runtime.storeHandle table transport stored method identity fields).2 := by
  unfold ClientRuntime.storeHandle
  split
  · exact agreed.addHandle aside identity fields
  · exact agreed.kept (clientDestroy_kept faithful agreed.sound harmless identity)

end Agreed

theorem devicesOf_aside : Aside devicesOf := ⟨fun _ _ => rfl, fun _ _ => rfl⟩

theorem contextsOf_aside : Aside contextsOf := ⟨fun _ _ => rfl, fun _ _ => rfl⟩

theorem pdsOf_aside : Aside pdsOf := ⟨fun _ _ => rfl, fun _ _ => rfl⟩

theorem mrsOf_aside : Aside mrsOf := ⟨fun _ _ => rfl, fun _ _ => rfl⟩

theorem cqsOf_aside : Aside cqsOf := ⟨fun _ _ => rfl, fun _ _ => rfl⟩

namespace Agreed

variable (agreed : Agreed runtime) (traced : Traced runtime) (faithful : Faithful transport)

include agreed traced faithful

/-! ## Everything but queue pairs -/

theorem getDeviceList : Agreed (runtime.getDeviceList transport).2 := by
  have connected := agreed.ensureConnected traced faithful
  unfold ClientRuntime.getDeviceList
  split
  · rename_i result
    rwa [result] at connected
  · rename_i runtime result
    rw [result] at connected
    have kept := clientListDevices_kept faithful connected.sound
    split
    · rename_i listed
      rw [listed] at kept
      exact connected.kept kept
    · rename_i listed
      rw [listed] at kept
      exact (connected.kept kept).of_same rfl rfl

theorem openDevice (device : Nat) : Agreed (runtime.openDevice transport device).2 := by
  refine agreed.onHandle traced faithful devicesOf_lawful devicesOf_aside device true
    fun proxy runtime agreed => ?_
  have kept := clientCreateContext_kept faithful agreed.sound proxy.identity
  split
  · rename_i created
    rw [created] at kept
    exact agreed.kept kept
  · rename_i created
    rw [created] at kept
    exact (agreed.kept kept).addHandle contextsOf_aside _ ()

theorem closeDevice (context : Nat) : Agreed (runtime.closeDevice transport context).2 :=
  agreed.onHandle traced faithful contextsOf_lawful contextsOf_aside context true
    fun proxy _ agreed => agreed.endHandle contextsOf_aside context
      (clientDestroyContext_kept faithful agreed.sound proxy.identity)

theorem allocPd (host : Host) (context : Nat) :
    Agreed (runtime.allocPd transport host context).2 := by
  refine agreed.onHandle traced faithful contextsOf_lawful contextsOf_aside context true
    fun proxy runtime agreed => ?_
  have kept := clientCreatePd_kept faithful agreed.sound proxy.identity
  split
  · rename_i created
    rw [created] at kept
    exact agreed.kept kept
  · rename_i created
    rw [created] at kept
    exact (agreed.kept kept).storeHandle faithful pdsOf_aside host.stored (by decide) _ _

theorem deallocPd (pd : Nat) : Agreed (runtime.deallocPd transport pd).2 :=
  agreed.onHandle traced faithful pdsOf_lawful pdsOf_aside pd true
    fun proxy _ agreed => agreed.endHandle pdsOf_aside pd
      (clientDestroy_kept faithful agreed.sound (by decide) proxy.identity)

theorem regMr (host : Host) (pd address length : Nat) (access : Int) :
    Agreed (runtime.regMr transport host pd address length access).2 := by
  refine agreed.onHandle traced faithful pdsOf_lawful pdsOf_aside pd _
    fun proxy runtime agreed => ?_
  split
  · exact agreed
  · split
    · exact agreed
    · rename_i memory exported
      have kept := clientRegisterMr_kept faithful agreed.sound proxy.identity memory
        (.ofNat access.toNat)
      split
      · rename_i registered
        rw [registered] at kept
        exact agreed.kept kept
      · rename_i registered
        rw [registered] at kept
        have counted : Agreed { runtime with
            client := _, nextMrHandle := runtime.nextMrHandle + 1 } :=
          (agreed.kept kept).of_same rfl rfl
        exact counted.storeHandle faithful mrsOf_aside host.stored (by decide) _ _

theorem deregMr (mr : Nat) : Agreed (runtime.deregMr transport mr).2 :=
  agreed.onHandle traced faithful mrsOf_lawful mrsOf_aside mr true
    fun proxy _ agreed => agreed.endHandle mrsOf_aside mr
      (clientDestroy_kept faithful agreed.sound (by decide) proxy.identity)

theorem createCq (host : Host) (context : Nat) (cqe : Int) (channel : Bool) (compVector : Int) :
    Agreed (runtime.createCq transport host context cqe channel compVector).2 := by
  refine agreed.onHandle traced faithful contextsOf_lawful contextsOf_aside context _
    fun proxy runtime agreed => ?_
  have kept := clientCreateCq_kept faithful agreed.sound proxy.identity cqe.toNat host.mapRing
  split
  · rename_i created
    rw [created] at kept
    exact agreed.kept kept
  · rename_i created
    rw [created] at kept
    exact (agreed.kept kept).storeHandle faithful cqsOf_aside host.stored (by decide) _ _

theorem destroyCq (cq : Nat) : Agreed (runtime.destroyCq transport cq).2 :=
  agreed.onHandle traced faithful cqsOf_lawful cqsOf_aside cq true
    fun proxy _ agreed => agreed.endHandle cqsOf_aside cq
      (clientDestroy_kept faithful agreed.sound (by decide) proxy.identity)

omit traced faithful in
theorem freeDeviceList (list : Nat) : Agreed (runtime.freeDeviceList list).2 := by
  unfold ClientRuntime.freeDeviceList
  split
  · exact agreed
  · rename_i record found
    split
    · exact agreed
    · have marked : Agreed { runtime with
          lists := runtime.lists.modify list fun record => { record with live := false } } :=
        agreed.of_same rfl rfl
      dsimp only
      generalize { runtime with
        lists := runtime.lists.modify list fun record => { record with live := false } } =
          start at marked
      clear found
      induction record.devices generalizing start with
      | nil => exact marked
      | cons device devices induction =>
          exact induction _ (marked.kill devicesOf_aside device)

/-! ## Queue pairs -/

theorem createQp (host : Host) (pd : Nat) (initAttr : Option QpInitAttr) :
    Agreed (runtime.createQp transport host pd initAttr).2 := by
  have connected := agreed.ensureConnected traced faithful
  unfold ClientRuntime.createQp
  split
  · exact agreed
  · rename_i attr pdProxy sendCq recvCq accepted
    split
    · rename_i result
      rwa [result] at connected
    · rename_i runtime result
      rw [result] at connected
      dsimp only
      split
      · exact ((connected.kill pdsOf_aside pd).kill cqsOf_aside attr.sendCq).kill cqsOf_aside
          attr.recvCq
      · have finished := clientCreateQp_finished faithful connected.sound pdProxy.identity
          sendCq.identity recvCq.identity
          (createAttributes attr sendCq.identity recvCq.identity) host.mapRing
        generalize clientCreateQp transport runtime.client _ _ _ _ _ = created at finished
        cases finished with
        | failed kept => exact connected.kept kept
        | @done qp client kept holds =>
            obtain ⟨fresh, shows⟩ := holds
            dsimp only [ClientRuntime.storeHandle]
            split
            · refine ⟨kept.sound, fun bounded => (connected.cached ?_).add kept fresh shows⟩
              rwa [← kept.connections]
            · have destroyed := clientDestroyQp_finished faithful kept.sound qp
              unfold clientDestroyQp at destroyed
              generalize clientDestroy transport client 11 qp = ended at destroyed
              cases destroyed with
              | failed nothing => exact connected.kept (kept.trans nothing)
              | done removed _ => exact connected.kept (kept.trans_fresh removed fresh)

theorem destroyQp (qp : Nat) : Agreed (runtime.destroyQp transport qp).2 := by
  refine agreed.onQp traced faithful qp true fun proxy runtime agreed found usable => ?_
  have finished := clientDestroyQp_finished faithful agreed.sound proxy.identity
  generalize clientDestroyQp transport runtime.client proxy.identity = destroyed at finished
  cases finished with
  | failed kept => exact agreed.kept kept
  | done kept _ =>
      refine agreed.killQp kept found fun identity touched => ?_
      exact ⟨List.mem_singleton.mp touched, usable⟩

omit agreed traced faithful in
/-- The cached state of a handle becomes the state that the daemon's record is in. -/
theorem cacheState (agreed : Agreed runtime) {touched : List Nat}
    (kept : Kept touched runtime.client client) {qp : Nat} {proxy : Proxy QpFields}
    (found : runtime.qps[qp]? = some proxy) (usable : Usable runtime.client proxy)
    (spared : ∀ identity ∈ touched, identity = proxy.identity.value) {state : UInt32}
    (shows : client.world.Shows proxy.identity.value state.toNat) :
    Agreed ({ runtime with client }.cacheState qp state) := by
  refine agreed.update kept found (fun identity inside => ⟨spared identity inside, usable⟩)
    (fun _ => rfl) (fun proxy usable => ?_) fun _ _ => shows
  exact ⟨usable.live, usable.current.trans kept.connectionEpoch⟩

theorem modifyQp (qp : Nat) (attr : Option QpAttr) (attrMask : Int) :
    Agreed (runtime.modifyQp transport qp attr attrMask).2 := by
  refine agreed.onQp traced faithful qp _ fun proxy runtime agreed found usable => ?_
  cases attr with
  | none => exact agreed
  | some attr =>
      dsimp only
      generalize asked : QpAttributes.mk _ _ _ _ _ _ _ = attributes
      have fits : attributes.Fits := by
        rw [← asked]
        exact ⟨attr.qpState.toNat_lt, attr.curQpState.toNat_lt, attr.qpAccessFlags.toNat_lt,
          attr.timeout.toNat_lt, attr.retryCnt.toNat_lt, attr.rnrRetry.toNat_lt,
          attr.minRnrTimer.toNat_lt⟩
      have wanted : attributes.state = attr.qpState.toNat := by rw [← asked]
      have finished := clientModifyQp_finished faithful agreed.sound proxy.identity fits
        (.ofNat attrMask.toNat)
      generalize clientModifyQp transport runtime.client proxy.identity attributes _ = modified
        at finished
      cases finished with
      | failed kept => exact agreed.kept kept
      | done kept holds =>
          obtain ⟨masked, shows⟩ := holds
          dsimp only
          rw [if_pos masked]
          rw [wanted] at shows
          exact agreed.cacheState kept found usable (fun _ => List.mem_singleton.mp) shows

theorem queryQp (qp : Nat) (given : Bool) (attrMask : Int) :
    Agreed (runtime.queryQp transport qp given attrMask).2 := by
  refine agreed.onQp traced faithful qp _ fun proxy runtime agreed found usable => ?_
  dsimp only
  have finished := clientQueryQp_finished faithful agreed.sound proxy.identity
    (.ofNat attrMask.toNat)
  generalize clientQueryQp transport runtime.client proxy.identity _ = queried at finished
  cases finished with
  | failed kept => exact agreed.kept kept
  | @done snapshot client kept shows =>
      dsimp only
      split
      · refine agreed.cacheState kept found usable nofun fun session opened => ?_
        obtain ⟨record, stored, state⟩ := shows session opened
        refine ⟨record, stored, ?_⟩
        have small : record.state < 2 ^ 32 := by
          have states := (kept.sound.staged _ stored).stored.1
          simp only [List.mem_cons, List.not_mem_nil, or_false] at states
          rcases states with same | same | same | same <;> rw [same] <;> decide
        rw [UInt32.toNat_ofNat', ← state, Nat.mod_eq_of_lt small]
      · exact agreed.kept kept

theorem queryQpConnInfo (qp : Nat) (given : Bool) :
    Agreed (runtime.queryQpConnInfo transport qp given).2 :=
  agreed.onQp traced faithful qp given fun proxy _ agreed _ _ =>
    agreed.kept (clientQueryQpConnInfo_kept faithful agreed.sound proxy.identity)

theorem connectQp (qp : Nat) (remoteQpNum : Option UInt32) (attr : Option QpAttr)
    (attrMask : Int) : Agreed (runtime.connectQp transport qp remoteQpNum attr attrMask).2 := by
  refine agreed.onQp traced faithful qp _ fun proxy runtime agreed found usable => ?_
  split
  · rename_i remoteQpNum attr
    dsimp only
    generalize QpAttributes.mk _ _ _ _ _ _ _ = attributes
    have finished := clientConnectQp_finished faithful agreed.sound proxy.identity
      remoteQpNum.toNat attributes (.ofNat attrMask.toNat)
    generalize clientConnectQp transport runtime.client proxy.identity _ _ _ = joined
      at finished
    cases finished with
    | failed kept => exact agreed.kept kept
    | done kept shows =>
        exact agreed.cacheState kept found usable (fun _ => List.mem_singleton.mp) shows
  · exact agreed

/-- Every call leaves the cached states right. -/
theorem perform (host : Host) (call : ApiCall) :
    Agreed (runtime.perform transport host call).2 := by
  cases call with
  | getDeviceList => exact agreed.getDeviceList traced faithful
  | freeDeviceList list => exact agreed.freeDeviceList list
  | openDevice device => exact agreed.openDevice traced faithful device
  | closeDevice context => exact agreed.closeDevice traced faithful context
  | allocPd context => exact agreed.allocPd traced faithful host context
  | deallocPd pd => exact agreed.deallocPd traced faithful pd
  | regMr pd address length access =>
      exact agreed.regMr traced faithful host pd address length access
  | deregMr mr => exact agreed.deregMr traced faithful mr
  | createCq context cqe channel compVector =>
      exact agreed.createCq traced faithful host context cqe channel compVector
  | destroyCq cq => exact agreed.destroyCq traced faithful cq
  | createQp pd initAttr => exact agreed.createQp traced faithful host pd initAttr
  | destroyQp qp => exact agreed.destroyQp traced faithful qp
  | modifyQp qp attr attrMask => exact agreed.modifyQp traced faithful qp attr attrMask
  | queryQp qp given attrMask => exact agreed.queryQp traced faithful qp given attrMask
  | queryQpConnInfo qp given => exact agreed.queryQpConnInfo traced faithful qp given
  | connectQp qp remoteQpNum attr attrMask =>
      exact agreed.connectQp traced faithful qp remoteQpNum attr attrMask

end Agreed

end Operations

/-! ## Runs -/

/-- A call of the client, or what happens at the daemon between its calls. -/
inductive Step (before : ClientRuntime Daemon) : ClientRuntime Daemon → Prop
  | call (turn : Turn Daemon) (faithful : Faithful turn.transport) :
      Step before (takeTurn before turn)
  | meanwhile {world : Daemon} (moved : Moved before.client.world world) :
      Step before { before with client := { before.client with world } }

/-- A new client of a daemon that may have served others for a while. -/
def start (service : QpService) : ClientRuntime Daemon :=
  { client := { world := ⟨service, none⟩ } }

abbrev Reaches (service : QpService) : ClientRuntime Daemon → Prop :=
  Relation.ReflTransGen Step (start service)

theorem reaches_traced {service : QpService} {runtime : ClientRuntime Daemon}
    (reaches : Reaches service runtime) : Traced runtime := by
  induction reaches with
  | refl => exact traced_initial _
  | tail _ step induction =>
      cases step with
      | call turn faithful => exact induction.perform turn.transport turn.host turn.call
      | meanwhile moved =>
          exact ⟨induction.epoch, induction.handles.withClient _, induction.sent⟩

theorem reaches_agreed {service : QpService} (reachable : service.Reachable)
    {runtime : ClientRuntime Daemon} (reaches : Reaches service runtime) : Agreed runtime := by
  induction reaches with
  | refl =>
      obtain ⟨catalog, events, rfl⟩ := reachable
      refine ⟨⟨QpService.run_valid catalog events,
        QpService.run_staged (QpService.create_valid catalog) (QpService.create_staged catalog)
          events⟩, fun _ => .of_none_usable nofun⟩
  | tail before step induction =>
      cases step with
      | call turn faithful =>
          exact induction.perform (reaches_traced before) faithful turn.host turn.call
      | meanwhile moved =>
          have sound := moved_sound moved induction.sound
          exact induction.kept ⟨rfl, rfl, sound, id, fun _ => moved_keeps moved induction.sound⟩

/-- The cached state of a live handle of the open connection is the state of the daemon's
record, so posting goes by the latter. -/
theorem cached_state_agrees {service : QpService} (reachable : service.Reachable)
    {runtime : ClientRuntime Daemon} (reaches : Reaches service runtime)
    (bounded : runtime.client.connections < 2 ^ 64) (connected : runtime.client.connected = true)
    {qp : Nat} {proxy : Proxy QpFields} (found : runtime.qps[qp]? = some proxy)
    (live : proxy.live = true) (current : proxy.connectionEpoch = runtime.client.connectionEpoch)
    {session : OwnerSessionId} (opened : runtime.client.world.session = some session) :
    ∃ record,
      runtime.client.world.service.qps.resolve session proxy.identity.value = some record ∧
      proxy.fields.cachedState.toNat = record.state ∧
      (runtime.reachesSendQueue qp true = true ↔ record.state = qpStateRts) ∧
      (runtime.reachesReceiveQueue qp true = true ↔
        record.state = qpStateInit ∨ record.state = qpStateRts) := by
  have agreed := reaches_agreed reachable reaches
  obtain ⟨record, stored, state⟩ := (agreed.cached bounded).shows connected proxy
    (List.mem_of_getElem? found) ⟨live, current⟩ session opened
  have resolved := (GenerationRegistry.resolve_eq_some_iff agreed.sound.valid.qps (by decide)).mpr
    stored
  have cachedIff : ∀ {number : Nat}, number < 2 ^ 32 →
      (proxy.fields.cachedState = .ofNat number ↔ record.state = number) := by
    intro number small
    rw [state, ← UInt32.toNat_inj, UInt32.toNat_ofNat', Nat.mod_eq_of_lt small]
  refine ⟨record, resolved, state.symm, ?_, ?_⟩
  · simp [reachesSendQueue, found, live, cachedIff (show qpStateRts < 2 ^ 32 by decide)]
  · have neither := (agreed.sound.staged _ stored).ne_rtr
    simp [reachesReceiveQueue, found, live, cachedIff (show qpStateRts < 2 ^ 32 by decide),
      cachedIff (show qpStateRtr < 2 ^ 32 by decide),
      cachedIff (show qpStateInit < 2 ^ 32 by decide), neither]

/-- A connection on which nothing is lost, to a daemon with no other sessions. -/
def quiet : Transport Daemon where
  connect := fun daemon => (none, ⟨daemon.service, some 1⟩)
  exchange := fun daemon request =>
    match daemon.session with
    | none => (.error (.other 104), daemon)
    | some session =>
        (.ok (daemon.service.handle session request Loopback.host).1,
          daemon.handled session request Loopback.host)

theorem quiet_faithful : Faithful quiet where
  connect := fun _ => .accepted 1 .refl .refl
  exchange := by
    intro daemon request
    unfold quiet
    dsimp only
    split
    · exact .lost _ .refl
    · rename_i session opened
      exact .answered _ .refl opened .refl

def quietCalls : List ApiCall :=
  [.getDeviceList, .openDevice 0, .allocPd 0, .createCq 0 4 false 0,
    .createQp 0 (some ⟨0, 0, 4, 4, 4, 4, .ofNat qpTypeRc, 0⟩),
    .modifyQp 0 (some ⟨.ofNat qpStateInit, 0, .ofNat qpAccessRemoteWrite, 0, 0, 0, 0⟩)
      (qpMaskState ||| qpMaskAccess).toNat]

theorem reaches_quiet (service : QpService) (calls : List ApiCall) :
    Reaches service (Execution.run takeTurn (start service)
      (calls.map fun call => ⟨call, quiet, plainHost⟩)) := by
  induction calls using List.reverseRecOn with
  | nil => exact .refl
  | append_singleton calls call induction =>
      rw [List.map_append, List.map_singleton, Execution.run_concat]
      exact .tail induction (.call _ quiet_faithful)

/-- A queue pair that was created and initialized. -/
theorem cached_state_agrees_initialized :
    let runtime := Execution.run takeTurn (start (.create [⟨1, []⟩]))
      (quietCalls.map fun call => ⟨call, quiet, plainHost⟩)
    ∃ record, runtime.client.world.service.qps.resolve 1
        (packIdentity ObjectType.qp.code 1 0) = some record ∧
      record.state = qpStateInit ∧ runtime.reachesReceiveQueue 0 true = true := by
  intro runtime
  have known : runtime.qps[0]?.map (fun proxy => (proxy.identity.value, proxy.connectionEpoch,
      proxy.live, proxy.fields.cachedState)) =
      some (packIdentity ObjectType.qp.code 1 0, 1, true, 1) := by decide +kernel
  obtain ⟨proxy, found, fields⟩ := Option.map_eq_some_iff.mp known
  simp only [Prod.mk.injEq] at fields
  obtain ⟨identity, epoch, live, state⟩ := fields
  have current : runtime.client.connectionEpoch = 1 := by decide +kernel
  obtain ⟨record, resolved, same, -, receives⟩ := cached_state_agrees ⟨_, [], rfl⟩
    (reaches_quiet (.create [⟨1, []⟩]) quietCalls) (by decide +kernel) (by decide +kernel) found
    live (epoch.trans current.symm) (show runtime.client.world.session = some 1 by decide +kernel)
  rw [identity] at resolved
  rw [state] at same
  exact ⟨record, resolved, same.symm, receives.mpr (.inl same.symm)⟩

end Ugdr.Api.ClientRuntime
