import Ugdr.Control.RecordOrigin

/-! # What a resolved key grants

A key that resolves for a range names a live memory region of the session and the
protection domain, the range lies inside the region, and the address is the same
place in its daemon range.
-/

namespace Ugdr.Control.QpService

open GenerationRegistry ObjectGraph

variable {service : QpService}

/-- The region `mr` that a lookup of `key` for a range found, and the address it gave. -/
structure Grants (service : QpService) (session pdIdentity key address length : Nat)
    (remote : Bool) (target : Nat) (mr : MrRecord) : Prop where
  live : ∃ identity, service.mrs.resolve session identity = some mr
  pdIdentity : mr.pdIdentity = pdIdentity
  key : (if remote then mr.rkey else mr.lkey) = key
  access : remote = true → mr.access &&& accessRemoteWrite ≠ 0
  start : mr.clientAddress ≤ address
  stop : address + length ≤ mr.clientAddress + mr.length
  target : target = mr.daemonAddress + (address - mr.clientAddress)

theorem resolveKey_grants (valid : service.Valid) {session pdIdentity key address length : Nat}
    {remote : Bool} {target : Nat}
    (resolved : service.resolveKey session pdIdentity key address length remote = .ok target) :
    ∃ mr, Grants service session pdIdentity key address length remote target mr := by
  unfold resolveKey at resolved
  split at resolved
  · cases resolved
  · split at resolved
    · cases resolved
    · rename_i pd pdResolved
      split at resolved
      · cases resolved
      · rename_i identity indexed
        split at resolved
        · cases resolved
        · rename_i mr live
          -- The index names a region of this PD with this key, and identities are unique.
          have named : (if remote then mr.rkey else mr.lkey) = key := by
            have member := mem_mrs valid live
            have owner := mem_pds valid pdResolved
            cases remote with
            | false =>
                obtain ⟨other, otherMember, sameKey, sameIdentity, -⟩ :=
                  (valid.consistent.localKeyIndex _ owner (key, identity)).mp indexed
                rw [entry_unique valid.mrs otherMember member sameIdentity] at sameKey
                exact sameKey
            | true =>
                obtain ⟨other, otherMember, sameKey, sameIdentity, -⟩ :=
                  (valid.consistent.remoteKeyIndex _ owner (key, identity)).mp indexed
                rw [entry_unique valid.mrs otherMember member sameIdentity] at sameKey
                exact sameKey
          split at resolved
          · cases resolved
          · rename_i samePd
            split at resolved
            · cases resolved
            · rename_i access
              split at resolved
              · cases resolved
              · rename_i range
                split at resolved
                · cases resolved
                · injection resolved with target
                  refine ⟨mr, ⟨identity, live⟩, not_not.mp samePd, named, ?_, ?_, ?_,
                    target.symm⟩
                  · intro isRemote none
                    exact access ⟨isRemote, none⟩
                  · omega
                  · omega

/-- A region inside a mapping below the end of the address space. -/
theorem Grants.daemon_range {session pdIdentity key address length : Nat} {remote : Bool}
    {target : Nat} {mr : MrRecord} (valid : service.Valid) (mapped : service.MrsMapped)
    (grants : Grants service session pdIdentity key address length remote target mr) :
    mr.daemonAddress ≤ target ∧ target + length ≤ mr.daemonAddress + mr.length ∧
      mr.daemonAddress + mr.length < 2 ^ 64 := by
  obtain ⟨identity, live⟩ := grants.live
  obtain ⟨daemonAddress, inside, fits⟩ := mapped _ (mem_mrs valid live)
  have start := grants.start
  have stop := grants.stop
  have target := grants.target
  dsimp only at daemonAddress inside fits
  omega

/-! ## Keys are not used again -/

/-- No two regions share a local or a remote key. -/
def KeysDistinct (service : QpService) : Prop :=
  ∀ left ∈ service.mrs.entries, ∀ right ∈ service.mrs.entries,
    left.record.lkey = right.record.lkey ∨ left.record.rkey = right.record.rkey → left = right

theorem MrChange.keysDistinct {event : Event} {after : QpService} (valid : service.Valid)
    (change : MrChange service event after) (distinct : service.KeysDistinct) :
    after.KeysDistinct := by
  intro left leftMember right rightMember same
  cases change with
  | kept _ permuted =>
      exact distinct left (permuted.subset leftMember) right (permuted.subset rightMember) same
  | registered _ lkeyFresh rkeyFresh _ _ added =>
      have below := valid.consistent.keysBelow
      rcases List.mem_cons.mp (added.symm.subset leftMember) with rfl | leftOld <;>
        rcases List.mem_cons.mp (added.symm.subset rightMember) with rfl | rightOld
      · rfl
      · have old := below right rightOld
        simp only [newMrRecord, graph] at same old
        omega
      · have old := below left leftOld
        simp only [newMrRecord, graph] at same old
        omega
      · exact distinct left leftOld right rightOld same
  | deregistered _ _ removed =>
      exact distinct left (removed.symm.subset (List.mem_cons_of_mem _ leftMember)) right
        (removed.symm.subset (List.mem_cons_of_mem _ rightMember)) same
  | disconnected _ remaining =>
      rw [remaining] at leftMember rightMember
      exact distinct left (List.mem_of_mem_filter leftMember) right
        (List.mem_of_mem_filter rightMember) same

theorem Reachable.keysDistinct (reachable : service.Reachable) : service.KeysDistinct := by
  obtain ⟨catalog, events, rfl⟩ := reachable
  have initial : (create catalog).KeysDistinct := nofun
  refine run_records ?_ (create_valid catalog) initial fun _ _ => trivial
  intro service event valid _ distinct
  exact (step_mrs valid event).keysDistinct valid distinct

/-- The keys were given out and no region has them any more. -/
structure KeysRetired (lkey rkey : Nat) (service : QpService) : Prop where
  lkeyBelow : lkey < service.nextKey
  rkeyBelow : rkey < service.nextKey
  unused : ∀ entry ∈ service.mrs.entries, entry.record.lkey ≠ lkey ∧ entry.record.rkey ≠ rkey

theorem MrChange.nextKey_le {event : Event} {after : QpService}
    (change : MrChange service event after) : service.nextKey ≤ after.nextKey := by
  cases change <;> assumption

theorem MrChange.keysRetired {event : Event} {after : QpService} {lkey rkey : Nat}
    (change : MrChange service event after) (retired : service.KeysRetired lkey rkey) :
    after.KeysRetired lkey rkey := by
  have later := change.nextKey_le
  have lkeyBelow := retired.lkeyBelow
  have rkeyBelow := retired.rkeyBelow
  refine ⟨by omega, by omega, fun entry member => ?_⟩
  cases change with
  | kept _ permuted => exact retired.unused entry (permuted.subset member)
  | registered _ lkeyFresh rkeyFresh _ _ added =>
      rcases List.mem_cons.mp (added.symm.subset member) with rfl | old
      · simp only [newMrRecord]
        omega
      · exact retired.unused entry old
  | deregistered _ _ removed =>
      exact retired.unused entry (removed.symm.subset (List.mem_cons_of_mem _ member))
  | disconnected _ remaining =>
      rw [remaining] at member
      exact retired.unused entry (List.mem_of_mem_filter member)

/-- A deregistration that closes the mapping retires the keys of the region. -/
theorem deregister_retires (reachable : service.Reachable) {session : OwnerSessionId}
    {request : ControlRequest} {environment : Environment} {mr : MrRecord}
    (method : request.method = 7) (shape : emptyShape request = true)
    (live : service.mrs.resolve session request.objectIdentity = some mr)
    (closed : environment.closeMemory mr.mapping = none) :
    (handle service session request environment).2.KeysRetired mr.lkey mr.rkey := by
  have valid := reachable.valid
  obtain ⟨remaining, erased, -, permuted, alone⟩ := erase_resolved valid.mrs (by decide) live
  have unused := valid.consistent.mrUnused _ (mem_mrs valid live)
  have below := valid.consistent.keysBelow _ (mem_mrs valid live)
  obtain ⟨pd, pdMember, same, owned, -⟩ := valid.consistent.mrPd _ (mem_mrs valid live)
  have parent := resolvePd_of_mem valid pdMember same owned
  simp only [resolvePd] at unused parent
  simp only [handle, handlePdMrCq, handleDeregisterMr, method, ControlMethod.ofCode, shape,
    live, unused, parent, erased, closed]
  refine ⟨below.1, below.2, fun entry member => ?_⟩
  have old := permuted.symm.subset (List.mem_cons_of_mem _ member)
  have different : entry ≠ ⟨request.objectIdentity, session, mr⟩ := by
    rintro rfl
    exact alone (List.mem_map.mpr ⟨_, member, rfl⟩)
  have apart := reachable.keysDistinct entry old _ (mem_mrs valid live)
  exact ⟨fun equal => different (apart (.inl equal)), fun equal => different (apart (.inr equal))⟩

end Ugdr.Control.QpService
