import Ugdr.Control.KeyResolution
import Ugdr.Control.RequestEffects
import Ugdr.Foundation.Ownership

/-! # Who owns a mapping of client memory

The daemon opens a mapping for each registration and closes it when the region goes. Here
the requests that call the memory backend are followed with a ledger of those calls: a
mapping is owned by the region that was registered with it, and is closed at the places
where the source closes it.
-/

namespace Ugdr.Control

open GenerationRegistry Ownership

/-- A mapping as the backend returned it, with the size of the allocation behind it. -/
structure OpenedMapping where
  mapping : CudaIpcMapping
  size : Nat
  deriving DecidableEq, Repr

/-- The owner of a mapping is the identity of a memory region. -/
abbrev MappingLedger := Ownership.Ledger Nat OpenedMapping Errno

/-- The service with the calls of its memory backend. -/
structure Tracked where
  service : QpService
  mappings : MappingLedger := {}

namespace Tracked

/-- `memory_backend_.close(mapping)` for a mapping that no region owns yet. -/
def close (tracked : Tracked) (name : Nat) (status : Status) : Tracked :=
  { tracked with mappings := tracked.mappings.close name status }

/-- The part of `handle_register_mr` that follows the allocation of the keys. -/
def registerMapped (tracked : Tracked) (session : OwnerSessionId) (request : ControlRequest)
    (environment : Environment) (pd : PdRecord) (memory : ExportedCudaMemory)
    (mapping : CudaIpcMapping) (name lkey rkey : Nat) : ControlResponse × Tracked :=
  match encodeMrRegistrationResult
      { clientAddress := memory.clientAddress, length := memory.length, lkey, rkey } with
  | .error status =>
      (responseFor request (some status), tracked.close name (environment.closeMemory mapping))
  | .ok payload =>
      match tracked.service.mrs.insert session
          (QpService.newMrRecord request pd memory mapping lkey rkey) with
      | (none, mrs) =>
          (responseFor request (some .enospc),
            { tracked with service := { tracked.service with mrs } }.close name
              (environment.closeMemory mapping))
      | (some identity, mrs) =>
          let (added, related) :=
            QpService.relateMr environment.tableInsertions pd identity lkey rkey
          if added then
            ({ responseFor request none with objectIdentity := identity, payload := payload },
              { service :=
                  { tracked.service with
                    mrs := mrs
                    pds := tracked.service.pds.modify session request.objectIdentity fun _ =>
                      related }
                mappings := tracked.mappings.hold identity name })
          else
            (responseFor request (some .enomem),
              { tracked with
                service :=
                  { tracked.service with
                    mrs := (mrs.erase session identity).2
                    pds := tracked.service.pds.modify session request.objectIdentity fun _ =>
                      QpService.unrelateMr related identity lkey rkey } }.close name
                (environment.closeMemory mapping))

def handleRegisterMr (tracked : Tracked) (session : OwnerSessionId) (request : ControlRequest)
    (environment : Environment) : ControlResponse × Tracked :=
  if request.fdIndices ≠ [] ∨ request.fileDescriptors ≠ [] ∨
      QpService.validAccess request.access = false then
    (responseFor request (some .einval), tracked)
  else
    match tracked.service.pds.resolve session request.objectIdentity with
    | none => (responseFor request (some .einval), tracked)
    | some pd =>
        match decodeMrRegistration request.payload request.length with
        | .error status => (responseFor request (some status), tracked)
        | .ok memory =>
            match environment.openMemory memory with
            | .error status => (responseFor request (some status), tracked)
            | .ok mapping =>
                let name := tracked.mappings.next
                let tracked :=
                  { tracked with
                    mappings := tracked.mappings.acquire ⟨mapping, memory.allocationSize⟩ }
                if mapping.daemonBaseAddress = 0 ∨ mapping.gpuUuid ≠ memory.gpuUuid ∨
                    2 ^ 64 - 1 - memory.allocationOffset < mapping.daemonBaseAddress then
                  (responseFor request (some .eproto),
                    tracked.close name (environment.closeMemory mapping))
                else
                  match QpService.allocateKeys tracked.service.nextKey with
                  | none =>
                      (responseFor request (some .enospc),
                        tracked.close name (environment.closeMemory mapping))
                  | some ((lkey, rkey), nextKey) =>
                      { tracked with service := { tracked.service with nextKey } }.registerMapped
                        session request environment pd memory mapping name lkey rkey

def handleDeregisterMr (tracked : Tracked) (session : OwnerSessionId)
    (request : ControlRequest) (environment : Environment) : ControlResponse × Tracked :=
  if emptyShape request = false then
    (responseFor request (some .einval), tracked)
  else
    match tracked.service.mrs.resolve session request.objectIdentity with
    | none => (responseFor request (some .einval), tracked)
    | some mr =>
        if mr.workRequestReferences ≠ 0 then
          (responseFor request (some .ebusy), tracked)
        else
          let closeStatus := environment.closeMemory mr.mapping
          let mappings := tracked.mappings.closeHeld request.objectIdentity closeStatus
          match closeStatus with
          | some status => (responseFor request (some status), { tracked with mappings })
          | none =>
              match tracked.service.pds.resolve session mr.pdIdentity with
              | none => (responseFor request (some .einval), { tracked with mappings })
              | some _ =>
                  let (status, mrs) := tracked.service.mrs.erase session request.objectIdentity
                  (responseFor request status,
                    { service :=
                        { tracked.service with
                          mrs := mrs
                          pds := tracked.service.pds.modify session mr.pdIdentity fun pd =>
                            QpService.unrelateMr pd request.objectIdentity mr.lkey mr.rkey }
                      mappings :=
                        if status = none then mappings.release request.objectIdentity
                        else mappings })

/-- The other requests do not call the memory backend. -/
def handle (tracked : Tracked) (session : OwnerSessionId) (request : ControlRequest)
    (environment : Environment) : ControlResponse × Tracked :=
  match ControlMethod.ofCode request.method with
  | some .registerMr => tracked.handleRegisterMr session request environment
  | some .deregisterMr => tracked.handleDeregisterMr session request environment
  | _ =>
      let (response, service) := tracked.service.handle session request environment
      (response, { tracked with service })

/-- `on_disconnect`: the loop over the regions of the session closes, and `erase_session`
then takes their records. `results` are the answers of the closes, one for each region. -/
def onDisconnect (tracked : Tracked) (session : OwnerSessionId) (results : Nat → Status) :
    Tracked :=
  let owners := (tracked.service.mrs.forEachSession session).map Prod.fst
  { service := tracked.service.onDisconnect session
    mappings := (tracked.mappings.closeAll owners results).releaseAll owners }

variable {tracked : Tracked} {session : OwnerSessionId} {request : ControlRequest}
  {environment : Environment}

/-! ## The ledger only watches -/

theorem registerMapped_service {pd : PdRecord} {memory : ExportedCudaMemory}
    {mapping : CudaIpcMapping} {name lkey rkey : Nat} :
    let result := tracked.registerMapped session request environment pd memory mapping name lkey
      rkey
    (result.1, result.2.service) =
      QpService.registerMapped tracked.service session request environment pd memory mapping
        lkey rkey := by
  unfold registerMapped QpService.registerMapped
  dsimp only
  cases encodeMrRegistrationResult
      { clientAddress := memory.clientAddress, length := memory.length, lkey, rkey } with
  | error status => rfl
  | ok payload =>
      obtain ⟨_ | identity, mrs⟩ := tracked.service.mrs.insert session
        (QpService.newMrRecord request pd memory mapping lkey rkey)
      · rfl
      · dsimp only
        split_ifs <;> rfl

theorem handleRegisterMr_service :
    let result := tracked.handleRegisterMr session request environment
    (result.1, result.2.service) =
      QpService.handleRegisterMr tracked.service session request environment := by
  unfold handleRegisterMr QpService.handleRegisterMr
  dsimp only
  split_ifs
  · rfl
  · cases tracked.service.pds.resolve session request.objectIdentity with
    | none => rfl
    | some pd =>
        cases decodeMrRegistration request.payload request.length with
        | error status => rfl
        | ok memory =>
            dsimp only
            cases environment.openMemory memory with
            | error status => rfl
            | ok mapping =>
                dsimp only
                split_ifs
                · rfl
                · cases QpService.allocateKeys tracked.service.nextKey with
                  | none => rfl
                  | some keys => exact registerMapped_service

theorem handleDeregisterMr_service :
    let result := tracked.handleDeregisterMr session request environment
    (result.1, result.2.service) =
      QpService.handleDeregisterMr tracked.service session request environment := by
  unfold handleDeregisterMr QpService.handleDeregisterMr
  dsimp only
  by_cases shaped : emptyShape request = false
  · simp only [if_pos shaped]
  · simp only [if_neg shaped]
    cases tracked.service.mrs.resolve session request.objectIdentity with
    | none => rfl
    | some mr =>
        dsimp only
        by_cases used : mr.workRequestReferences ≠ 0
        · simp only [if_pos used]
        · simp only [if_neg used]
          cases environment.closeMemory mr.mapping with
          | some status => rfl
          | none => cases tracked.service.pds.resolve session mr.pdIdentity <;> rfl

/-- Without its ledger the tracked service is the service. -/
theorem handle_service :
    let result := tracked.handle session request environment
    (result.1, result.2.service) =
      QpService.handle tracked.service session request environment := by
  unfold handle
  dsimp only
  split
  · rename_i method
    simp only [QpService.handle, QpService.handlePdMrCq, method]
    exact handleRegisterMr_service
  · rename_i method
    simp only [QpService.handle, QpService.handlePdMrCq, method]
    exact handleDeregisterMr_service
  · rfl

/-! ## What a request does to the ledger -/

/-- The ways in which a request calls the memory backend, with what becomes of the
regions. -/
inductive Calls (tracked : Tracked) (session : OwnerSessionId) (request : ControlRequest)
    (environment : Environment) (status : Status) (after : Tracked) : Prop
  | quiet (mappings : after.mappings = tracked.mappings)
      (same : after.service.mrs.entries.Perm tracked.service.mrs.entries)
  | discarded (opened : OpenedMapping) (result : Status) (failed : status ≠ none)
      (mappings : after.mappings =
        (tracked.mappings.acquire opened).close tracked.mappings.next result)
      (same : after.service.mrs.entries.Perm tracked.service.mrs.entries)
  | acquired (mr : Entry MrRecord) (answered : status = none)
      (mappings : after.mappings =
        (tracked.mappings.acquire ⟨mr.record.mapping, mr.record.allocationSize⟩).hold
          mr.identity tracked.mappings.next)
      (added : (mr :: tracked.service.mrs.entries).Perm after.service.mrs.entries)
      (fresh : mr.identity ∉ tracked.service.mrs.entries.map Entry.identity)
  | closeFailed (error : Errno)
      (method : ControlMethod.ofCode request.method = some .deregisterMr)
      (mappings : after.mappings =
        tracked.mappings.closeHeld request.objectIdentity (some error))
      (same : after.service.mrs.entries.Perm tracked.service.mrs.entries)
  | closed (mr : MrRecord) (answered : status = none)
      (mappings : after.mappings = tracked.mappings.dropOwner request.objectIdentity none)
      (removed : tracked.service.mrs.entries.Perm
        (⟨request.objectIdentity, session, mr⟩ :: after.service.mrs.entries))
      (gone : request.objectIdentity ∉ after.service.mrs.entries.map Entry.identity)

theorem registerMapped_calls (valid : tracked.service.Valid) {pd : PdRecord}
    {memory : ExportedCudaMemory} {mapping : CudaIpcMapping} {nextKey lkey rkey : Nat} :
    let result :=
      (Tracked.mk { tracked.service with nextKey }
        (tracked.mappings.acquire ⟨mapping, memory.allocationSize⟩)).registerMapped session
          request environment pd memory mapping tracked.mappings.next lkey rkey
    Calls tracked session request environment result.1.status result.2 := by
  unfold registerMapped
  dsimp only
  split
  · exact .discarded _ _ (Option.some_ne_none _) rfl (.refl _)
  · split
    · rename_i mrs failed
      rw [insert_eq_none valid.mrs (by decide) failed]
      exact .discarded _ _ (Option.some_ne_none _) rfl (.refl _)
    · rename_i identity mrs inserted
      obtain ⟨kept, permuted, fresh⟩ := insert_some valid.mrs (by decide) inserted
      split
      · exact .acquired ⟨identity, session, _⟩ rfl rfl permuted fresh
      · exact .discarded _ _ (Option.some_ne_none _) rfl
          (QpService.undo_insert (by decide) kept permuted)

theorem handleRegisterMr_calls (valid : tracked.service.Valid) :
    let result := tracked.handleRegisterMr session request environment
    Calls tracked session request environment result.1.status result.2 := by
  unfold handleRegisterMr
  dsimp only
  split
  · exact .quiet rfl (.refl _)
  · split
    · exact .quiet rfl (.refl _)
    · split
      · exact .quiet rfl (.refl _)
      · split
        · exact .quiet rfl (.refl _)
        · split
          · exact .discarded _ _ (Option.some_ne_none _) rfl (.refl _)
          · split
            · exact .discarded _ _ (Option.some_ne_none _) rfl (.refl _)
            · exact registerMapped_calls valid

theorem handleDeregisterMr_calls (valid : tracked.service.Valid)
    (method : ControlMethod.ofCode request.method = some .deregisterMr) :
    let result := tracked.handleDeregisterMr session request environment
    Calls tracked session request environment result.1.status result.2 := by
  unfold handleDeregisterMr
  dsimp only
  split
  · exact .quiet rfl (.refl _)
  · split
    · exact .quiet rfl (.refl _)
    · rename_i mr resolved
      split
      · exact .quiet rfl (.refl _)
      · split
        · rename_i status failed
          exact .closeFailed status method (by rw [failed]) (.refl _)
        · rename_i succeeded
          -- The domain of a live region is live, so nothing fails behind the close.
          obtain ⟨pd, parent⟩ :
              ∃ pd, tracked.service.pds.resolve session mr.pdIdentity = some pd := by
            obtain ⟨pd, member, same, owned, -⟩ :=
              valid.consistent.mrPd _ (QpService.mem_mrs valid resolved)
            exact ⟨_, QpService.resolvePd_of_mem valid member same owned⟩
          obtain ⟨remaining, erased, -, removed, gone⟩ :=
            erase_resolved valid.mrs (by decide) resolved
          simp only [parent, erased, succeeded]
          exact .closed mr rfl rfl removed gone

/-- The other requests leave the regions alone. -/
theorem handle_mrs {service : QpService} (valid : service.Valid)
    (notRegister : ControlMethod.ofCode request.method ≠ some .registerMr)
    (notDeregister : ControlMethod.ofCode request.method ≠ some .deregisterMr) :
    (service.handle session request environment).2.mrs.entries.Perm service.mrs.entries := by
  have outcome := QpService.handle_outcome valid session request environment
  by_cases answered : (service.handle session request environment).1.status = none
  · obtain ⟨graph, applied, same⟩ := outcome.applied answered
    refine same.mrs.trans ?_
    cases applied with
    | registerMr pd memory mapping method parent opened available fresh =>
        exact absurd method notRegister
    | deregisterMr mr mrs method closed removed => exact absurd method notDeregister
    | _ => exact .refl _
  · exact (outcome.refused answered).same.mrs

theorem handle_calls (valid : tracked.service.Valid) :
    let result := tracked.handle session request environment
    Calls tracked session request environment result.1.status result.2 := by
  unfold handle
  dsimp only
  split
  · exact handleRegisterMr_calls valid
  · exact handleDeregisterMr_calls valid ‹_›
  · rename_i notRegister notDeregister
    exact .quiet rfl (handle_mrs valid notRegister notDeregister)

/-! ## Runs -/

/-- What happens to the daemon, with the answers of the closes of a disconnect. -/
inductive Event
  | request (session : OwnerSessionId) (request : ControlRequest) (environment : Environment)
  | disconnect (session : OwnerSessionId) (results : Nat → Status)

def Event.plain : Event → QpService.Event
  | .request session request environment => .request session request environment
  | .disconnect session _ => .disconnect session

def step (tracked : Tracked) : Event → Tracked
  | .request session request environment => (tracked.handle session request environment).2
  | .disconnect session results => tracked.onDisconnect session results

theorem step_service (tracked : Tracked) (event : Event) :
    (tracked.step event).service = tracked.service.step event.plain := by
  cases event with
  | disconnect session results => rfl
  | request session request environment => exact congrArg Prod.snd handle_service

theorem run_service (tracked : Tracked) (events : List Event) :
    (Execution.run step tracked events).service =
      Execution.run QpService.step tracked.service (events.map Event.plain) := by
  induction events generalizing tracked with
  | nil => rfl
  | cons event events induction =>
      rw [Execution.run_cons, induction, List.map_cons, Execution.run_cons, step_service]

/-- The identity names a live region. -/
def LiveMr (service : QpService) (identity : Nat) : Prop :=
  identity ∈ service.mrs.entries.map Entry.identity

/-- The ledger is sound, and the mapping that a region owns is the one in its record. -/
structure Owned (tracked : Tracked) : Prop where
  valid : tracked.service.Valid
  sound : Ledger.Sound (LiveMr tracked.service) tracked.mappings
  carried : ∀ mr ∈ tracked.service.mrs.entries, ∀ name,
    tracked.mappings.held mr.identity = some name →
      tracked.mappings.opened[name]? = some ⟨mr.record.mapping, mr.record.allocationSize⟩

theorem create_owned (catalog : List DeviceDescriptor) :
    Owned { service := .create catalog } where
  valid := QpService.create_valid catalog
  sound := .initial nofun
  carried := nofun

theorem liveMr_of_perm {before after : QpService}
    (same : after.mrs.entries.Perm before.mrs.entries) (identity : Nat) :
    LiveMr after identity ↔ LiveMr before identity :=
  (same.map Entry.identity).mem_iff

/-- A mapping that was opened before keeps its name. -/
theorem acquire_opened {ledger : MappingLedger} {opened new : OpenedMapping} {name : Nat}
    (found : ledger.opened[name]? = some opened) :
    (ledger.acquire new).opened[name]? = some opened := by
  obtain ⟨inside, -⟩ := List.getElem?_eq_some_iff.mp found
  exact (List.getElem?_append_left inside).trans found

theorem closeHeld_held (ledger : MappingLedger) (owner : Nat) (status : Status) :
    (ledger.closeHeld owner status).held = ledger.held := by
  rw [Ledger.closeHeld_eq]

theorem closeHeld_opened (ledger : MappingLedger) (owner : Nat) (status : Status) :
    (ledger.closeHeld owner status).opened = ledger.opened := by
  rw [Ledger.closeHeld_eq]

theorem Calls.owned {status : Status} {after : Tracked}
    (calls : Calls tracked session request environment status after) (owned : tracked.Owned)
    (valid : after.service.Valid) : after.Owned := by
  cases calls with
  | quiet mappings same =>
      refine ⟨valid, ?_, fun mr member name held => ?_⟩
      · rw [mappings]
        exact owned.sound.congr (liveMr_of_perm same)
      · rw [mappings] at held ⊢
        exact owned.carried mr (same.subset member) name held
  | discarded opened result failed mappings same =>
      refine ⟨valid, ?_, fun mr member name held => ?_⟩
      · rw [mappings]
        exact (owned.sound.discarded opened result).congr (liveMr_of_perm same)
      · rw [mappings] at held ⊢
        exact acquire_opened (owned.carried mr (same.subset member) name held)
  | acquired new answered mappings added fresh =>
      refine ⟨valid, ?_, fun mr member name held => ?_⟩
      · rw [mappings]
        refine owned.sound.acquired _ fresh fun other => ?_
        rw [LiveMr, ← (added.map Entry.identity).mem_iff, List.map_cons, List.mem_cons]
        rfl
      · rw [mappings] at held ⊢
        have held : (if mr.identity = new.identity then some tracked.mappings.next
            else tracked.mappings.held mr.identity) = some name := by
          rw [← held]
          exact (Function.update_apply ..).symm
        rcases List.mem_cons.mp (added.symm.subset member) with rfl | old
        · rw [if_pos rfl] at held
          injection held with same
          rw [← same]
          exact List.getElem?_concat_length ..
        · have different : mr.identity ≠ new.identity := fun same =>
            fresh (List.mem_map.mpr ⟨mr, old, same⟩)
          rw [if_neg different] at held
          exact acquire_opened (owned.carried mr old name held)
  | closeFailed error method mappings same =>
      refine ⟨valid, ?_, fun mr member name held => ?_⟩
      · rw [mappings]
        exact (owned.sound.closeFailed _ error).congr (liveMr_of_perm same)
      · rw [mappings, closeHeld_held] at held
        rw [mappings, closeHeld_opened]
        exact owned.carried mr (same.subset member) name held
  | closed gone answered mappings removed absent =>
      refine ⟨valid, ?_, fun mr member name held => ?_⟩
      · rw [mappings]
        refine owned.sound.dropped (fun other => ?_) none
        rw [LiveMr, LiveMr, (removed.map Entry.identity).mem_iff, List.map_cons, List.mem_cons]
        constructor
        · intro live
          exact ⟨fun same => absent (same ▸ live), .inr live⟩
        · rintro ⟨different, same | live⟩
          · exact absurd same different
          · exact live
      · rw [mappings, Ledger.dropOwner_held] at held
        rw [mappings, Ledger.dropOwner, Ledger.closeHeld_eq]
        split at held
        · cases held
        · exact owned.carried mr (removed.symm.subset (List.mem_cons_of_mem _ member)) name held

/-! ## Disconnects -/

/-- The regions that `on_disconnect` closes. -/
def sessionMrs (service : QpService) (session : OwnerSessionId) : List Nat :=
  (service.mrs.forEachSession session).map Prod.fst

theorem mem_sessionMrs {service : QpService} (valid : service.Valid) {identity : Nat} :
    identity ∈ sessionMrs service session ↔
      ∃ mr ∈ service.mrs.entries, mr.identity = identity ∧ mr.owner = session := by
  simp only [sessionMrs, List.mem_map, Prod.exists, exists_and_right, exists_eq_right,
    mem_forEachSession valid.mrs (by decide : ObjectType.mr ≠ .invalid)]
  constructor
  · rintro ⟨record, member⟩
    exact ⟨_, member, rfl, rfl⟩
  · rintro ⟨⟨_, _, record⟩, member, rfl, rfl⟩
    exact ⟨record, member⟩

theorem liveMr_onDisconnect {service : QpService} (valid : service.Valid)
    (session : OwnerSessionId) (identity : Nat) :
    LiveMr (service.onDisconnect session) identity ↔
      identity ∉ sessionMrs service session ∧ LiveMr service identity := by
  have remaining := (eraseSession_entries valid.mrs session).2
  simp only [LiveMr, QpService.onDisconnect, remaining, List.mem_map, List.mem_filter,
    mem_sessionMrs valid]
  constructor
  · rintro ⟨mr, ⟨member, other⟩, rfl⟩
    refine ⟨?_, mr, member, rfl⟩
    rintro ⟨own, ownMember, same, owner⟩
    rw [entry_unique valid.mrs ownMember member same] at owner
    exact of_decide_eq_true other owner
  · rintro ⟨foreign, mr, member, rfl⟩
    exact ⟨mr, ⟨member, decide_eq_true fun owner => foreign ⟨mr, member, rfl, owner⟩⟩, rfl⟩

theorem onDisconnect_owned (owned : tracked.Owned) (session : OwnerSessionId)
    (results : Nat → Status) : (tracked.onDisconnect session results).Owned := by
  have valid := owned.valid
  have distinct := forEachSession_identity_nodup valid.mrs session
  refine ⟨QpService.onDisconnect_valid valid session, ?_, fun mr member name held => ?_⟩
  · exact owned.sound.droppedAll distinct (liveMr_onDisconnect valid session) results
  · have remaining := (eraseSession_entries valid.mrs session).2
    simp only [onDisconnect, QpService.onDisconnect] at member held ⊢
    rw [remaining] at member
    rw [Ledger.releaseAll_held, Ledger.closeAll_eq] at held
    rw [Ledger.releaseAll_opened, Ledger.closeAll_eq]
    split at held
    · cases held
    · exact owned.carried mr (List.mem_of_mem_filter member) name held

theorem step_owned (owned : tracked.Owned) (event : Event) : (tracked.step event).Owned := by
  cases event with
  | disconnect session results => exact onDisconnect_owned owned session results
  | request session request environment =>
      have service := step_service tracked (.request session request environment)
      have valid := QpService.step_valid owned.valid (.request session request environment)
      exact (handle_calls owned.valid).owned owned (service ▸ valid)

theorem run_owned (catalog : List DeviceDescriptor) (events : List Event) :
    (Execution.run step { service := .create catalog } events).Owned := by
  have kept : ∀ (tracked : Tracked) (event : Event), tracked.Owned →
      (tracked.step event).Owned := fun _ event owned => step_owned owned event
  exact Execution.run_invariant kept (create_owned catalog) events

/-! ## Addresses that the lookups return -/

/-- A region lies inside the allocation behind its mapping. -/
structure Inside (mr : MrRecord) : Prop where
  daemonAddress : mr.daemonAddress = mr.mapping.daemonBaseAddress + mr.allocationOffset
  allocation : mr.allocationOffset + mr.length ≤ mr.allocationSize

def MrsInside (service : QpService) : Prop :=
  ∀ mr ∈ service.mrs.entries, Inside mr.record

theorem mrsInside_change {service after : QpService} {event : QpService.Event}
    (change : QpService.MrChange service event after) (inside : MrsInside service) :
    MrsInside after := by
  intro mr member
  cases change with
  | kept _ same => exact inside mr (same.subset member)
  | registered _ _ _ decoded _ added =>
      rcases List.mem_cons.mp (added.symm.subset member) with rfl | before
      · have valid := QpService.decodeMrRegistration_valid decoded
        simp only [validMemory, decide_eq_true_eq, not_or, Nat.not_lt] at valid
        exact ⟨rfl, by dsimp only [QpService.newMrRecord]; omega⟩
      · exact inside mr before
  | deregistered _ _ removed =>
      exact inside mr (removed.symm.subset (List.mem_cons_of_mem _ member))
  | disconnected _ remaining =>
      rw [remaining] at member
      exact inside mr (List.mem_of_mem_filter member)

theorem reachable_inside {service : QpService} (reachable : service.Reachable) :
    MrsInside service := by
  obtain ⟨catalog, events, rfl⟩ := reachable
  have initial : MrsInside (.create catalog) := nofun
  refine QpService.run_records ?_ (QpService.create_valid catalog) initial fun _ _ => trivial
  intro service event valid _ inside
  exact mrsInside_change (QpService.step_mrs valid event) inside

/-- A range of daemon addresses inside the mapping of this name. -/
def Within (tracked : Tracked) (name address length : Nat) : Prop :=
  ∃ opened, tracked.mappings.opened[name]? = some opened ∧
    opened.mapping.daemonBaseAddress ≤ address ∧
    address + length ≤ opened.mapping.daemonBaseAddress + opened.size

theorem resolveKey_within (owned : tracked.Owned) (inside : MrsInside tracked.service)
    {session pdIdentity key address length target : Nat} {remote : Bool}
    (resolved : tracked.service.resolveKey session pdIdentity key address length remote =
      .ok target) :
    ∃ name, tracked.Within name target length ∧ (name, none) ∉ tracked.mappings.closes := by
  obtain ⟨mr, grants⟩ := QpService.resolveKey_grants owned.valid resolved
  obtain ⟨identity, live⟩ := grants.live
  have member := QpService.mem_mrs owned.valid live
  obtain ⟨name, held⟩ := Option.isSome_iff_exists.mp
    ((owned.sound.live identity).mp (List.mem_map.mpr ⟨_, member, rfl⟩))
  have opened := owned.carried _ member name held
  obtain ⟨daemonAddress, allocation⟩ := inside _ member
  have start := grants.start
  have stop := grants.stop
  simp only at daemonAddress allocation
  refine ⟨name, ⟨_, opened, ?_, ?_⟩, owned.sound.unclosed _ _ held⟩
  · rw [grants.target, daemonAddress]
    dsimp only
    omega
  · rw [grants.target, daemonAddress]
    dsimp only
    omega

/-! ## Ownership in every run -/

/-- What holds of the mappings between any two requests. -/
structure OwnsMappings (tracked : Tracked) : Prop where
  ownedOrClosed : ∀ name opened, tracked.mappings.opened[name]? = some opened →
    (∃! mr, mr ∈ tracked.service.mrs.entries ∧
      tracked.mappings.held mr.identity = some name ∧ mr.record.mapping = opened.mapping) ∨
      ∃ result, (name, result) ∈ tracked.mappings.closes
  notAgain : Trace.Every (fun earlier call => (call.1, none) ∉ earlier)
    tracked.mappings.closes
  /-- A lookup answers with addresses of a mapping that no close has ended. -/
  lookup : ∀ session pdIdentity key address length remote target,
    tracked.service.resolveKey session pdIdentity key address length remote = .ok target →
      ∃ name, tracked.Within name target length ∧ (name, none) ∉ tracked.mappings.closes
  /-- Where mappings do not share addresses, these are no addresses of a closed one. -/
  closedAddresses :
    (∀ left right address, tracked.Within left address 1 → tracked.Within right address 1 →
      left = right) →
    ∀ session pdIdentity key address length remote target,
      tracked.service.resolveKey session pdIdentity key address length remote = .ok target →
      ∀ name, (name, none) ∈ tracked.mappings.closes → ¬ tracked.Within name target 1

/-- What a request does to the mappings. -/
structure RequestMappings (tracked : Tracked) (session : OwnerSessionId)
    (request : ControlRequest) (environment : Environment) : Prop where
  /-- A failed close leaves the region with its mapping, as it was. -/
  closeFailed : ∀ mr error, ControlMethod.ofCode request.method = some .deregisterMr →
    emptyShape request = true →
    tracked.service.mrs.resolve session request.objectIdentity = some mr →
    environment.closeMemory mr.mapping = some error →
      let result := tracked.handle session request environment
      result.1.status = some error ∧
        QpService.Unchanged tracked.service result.2.service ∧
        result.2.mappings.held = tracked.mappings.held ∧
        ∃ name, tracked.mappings.held request.objectIdentity = some name ∧
          result.2.mappings.closes = tracked.mappings.closes ++ [(name, some error)]
  /-- A failed registration closes what it has opened, once. -/
  registrationFailed : ControlMethod.ofCode request.method = some .registerMr →
    (tracked.handle session request environment).1.status ≠ none →
      (tracked.handle session request environment).2.mappings = tracked.mappings ∨
        ∃ opened result, (tracked.handle session request environment).2.mappings =
          (tracked.mappings.acquire opened).close tracked.mappings.next result

/-- A disconnect closes the mappings of the session's regions, each once. -/
def DisconnectCloses (tracked : Tracked) (session : OwnerSessionId)
    (results : Nat → Status) : Prop :=
  ∃ calls, (tracked.onDisconnect session results).mappings.closes =
      tracked.mappings.closes ++ calls ∧
    (calls.map Prod.fst).Nodup ∧
    ∀ name, name ∈ calls.map Prod.fst ↔
      ∃ mr ∈ tracked.service.mrs.entries, mr.owner = session ∧
        tracked.mappings.held mr.identity = some name

theorem owns_mappings (owned : tracked.Owned) (inside : MrsInside tracked.service) :
    tracked.OwnsMappings := by
  have lookup : ∀ session pdIdentity key address length remote target,
      tracked.service.resolveKey session pdIdentity key address length remote = .ok target →
        ∃ name, tracked.Within name target length ∧ (name, none) ∉ tracked.mappings.closes :=
    fun _ _ _ _ _ _ _ resolved => resolveKey_within owned inside resolved
  refine ⟨fun name opened found => ?_, owned.sound.once, lookup, ?_⟩
  · obtain ⟨inRange, -⟩ := List.getElem?_eq_some_iff.mp found
    refine (owned.sound.accounted name inRange).imp_left ?_
    rintro ⟨identity, held⟩
    obtain ⟨mr, member, rfl⟩ := List.mem_map.mp
      ((owned.sound.live identity).mpr (by rw [held]; rfl))
    have carried := owned.carried mr member name held
    rw [found] at carried
    refine ⟨mr, ⟨member, held, (congrArg OpenedMapping.mapping (Option.some.inj carried)).symm⟩,
      ?_⟩
    rintro other ⟨otherMember, otherHeld, -⟩
    exact entry_unique owned.valid.mrs otherMember member
      (owned.sound.unique _ _ name otherHeld held)
  · intro apart session pdIdentity key address length remote target resolved name closed within
    obtain ⟨live, ⟨opened, found, low, high⟩, unclosed⟩ := lookup _ _ _ _ _ _ _ resolved
    have positive : length ≠ 0 := by
      rintro rfl
      simp [QpService.resolveKey] at resolved
    have liveWithin : tracked.Within live target 1 := ⟨opened, found, low, by omega⟩
    rw [apart name live target within liveWithin] at closed
    exact unclosed closed

theorem request_mappings (owned : tracked.Owned) (session : OwnerSessionId)
    (request : ControlRequest) (environment : Environment) :
    tracked.RequestMappings session request environment := by
  have valid := owned.valid
  refine ⟨fun mr error method shaped live failed => ?_, fun method refused => ?_⟩
  · have member := QpService.mem_mrs valid live
    have unused : mr.workRequestReferences = 0 := valid.consistent.mrUnused _ member
    obtain ⟨name, held⟩ := Option.isSome_iff_exists.mp
      ((owned.sound.live request.objectIdentity).mp (List.mem_map.mpr ⟨_, member, rfl⟩))
    have answer : tracked.handle session request environment =
        (responseFor request (some error),
          { tracked with mappings := tracked.mappings.close name (some error) }) := by
      simp only [handle, method, handleDeregisterMr, shaped, live, unused, failed,
        Ledger.closeHeld, held, Bool.true_eq_false, if_false, ne_eq, not_true_eq_false]
    rw [answer]
    exact ⟨rfl, (QpService.Refused.refl _).unchanged rfl valid valid, rfl, name, held, rfl⟩
  · cases handle_calls valid with
    | quiet mappings same => exact .inl mappings
    | discarded opened result failed mappings same => exact .inr ⟨opened, result, mappings⟩
    | acquired mr answered mappings added fresh => exact absurd answered refused
    | closeFailed error other mappings same =>
        rw [method] at other
        cases other
    | closed mr answered mappings removed gone => exact absurd answered refused

/-- The names of the mappings that several regions own. -/
theorem callsFor_names {ledger : MappingLedger} {owner name : Nat} {status : Status} :
    name ∈ (ledger.callsFor owner status).map Prod.fst ↔ ledger.held owner = some name := by
  rw [Ledger.callsFor, List.map_map]
  cases ledger.held owner with
  | none => simp
  | some held => simp [eq_comm]

theorem disconnect_closes (owned : tracked.Owned) (session : OwnerSessionId)
    (results : Nat → Status) : tracked.DisconnectCloses session results := by
  have valid := owned.valid
  have distinct : (sessionMrs tracked.service session).Nodup :=
    forEachSession_identity_nodup valid.mrs session
  refine ⟨(sessionMrs tracked.service session).flatMap fun owner =>
    tracked.mappings.callsFor owner (results owner), ?_, ?_, fun name => ?_⟩
  · simp only [onDisconnect, Ledger.releaseAll_closes, Ledger.closeAll_eq]
    rfl
  · rw [List.map_flatMap, List.nodup_flatMap]
    refine ⟨fun owner _ => ?_, distinct.imp fun {left right} different => ?_⟩
    · rw [Ledger.callsFor, List.map_map]
      cases tracked.mappings.held owner with
      | none => exact List.nodup_nil
      | some name => exact List.nodup_singleton _
    · intro name here there
      exact different (owned.sound.unique left right name (callsFor_names.mp here)
        (callsFor_names.mp there))
  · rw [List.map_flatMap, List.mem_flatMap]
    constructor
    · rintro ⟨owner, member, named⟩
      obtain ⟨mr, live, rfl, own⟩ := (mem_sessionMrs valid).mp member
      exact ⟨mr, live, own, callsFor_names.mp named⟩
    · rintro ⟨mr, live, own, held⟩
      exact ⟨mr.identity, (mem_sessionMrs valid).mpr ⟨mr, live, rfl, own⟩,
        callsFor_names.mpr held⟩

/-- In every run of the service each mapping has one owner until it is closed, and is
closed as often as it should be. -/
theorem mappings_owned (catalog : List DeviceDescriptor) (events : List Event) :
    let tracked := Execution.run step { service := .create catalog } events
    tracked.service =
        Execution.run QpService.step (.create catalog) (events.map Event.plain) ∧
      tracked.OwnsMappings ∧
      (∀ session request environment, tracked.RequestMappings session request environment) ∧
      ∀ session results, tracked.DisconnectCloses session results := by
  intro tracked
  have owned : tracked.Owned := run_owned catalog events
  have service := run_service { service := .create catalog } events
  exact ⟨service, owns_mappings owned (reachable_inside ⟨catalog, _, service⟩),
    request_mappings owned, disconnect_closes owned⟩

end Tracked

end Ugdr.Control
