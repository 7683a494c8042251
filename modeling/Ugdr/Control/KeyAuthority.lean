import Ugdr.Control.RequestEffects
import Ugdr.Control.Numbering
import Ugdr.Foundation.Machine

/-! # Exactly which ranges a key resolves

A key resolves for a range if and only if a live memory region gives the right to it. The
sums of the lookup are taken on 64-bit words, and none of them wraps. Local keys are odd and
remote keys are even, so no key is of both kinds.
-/

namespace Ugdr.Control.QpService

open GenerationRegistry ObjectGraph Machine

variable {service : QpService}

/-! ## The lookup as the source computes it -/

/-- `resolve_key` on 64-bit words. It returns the status and what `daemon_address` holds
afterwards; `none` is a null pointer. -/
def resolveKeyInto (service : QpService) (session pdIdentity key address length : Nat)
    (remote : Bool) (daemonAddress : Option Nat) : Status × Option Nat :=
  if key = 0 ∨ length = 0 ∨ daemonAddress = none then
    (some .einval, daemonAddress)
  else
    match service.pds.resolve session pdIdentity with
    | none => (some .einval, daemonAddress)
    | some pd =>
        match (if remote then pd.remoteKeyIndex else pd.localKeyIndex) key with
        | none => (some .einval, daemonAddress)
        | some mrIdentity =>
            match service.mrs.resolve session mrIdentity with
            | none => (some .einval, daemonAddress)
            | some mr =>
                if mr.pdIdentity ≠ pdIdentity then
                  (some .einval, daemonAddress)
                else if remote ∧ mr.access &&& accessRemoteWrite = 0 then
                  (some .eacces, daemonAddress)
                else if address < mr.clientAddress ∨
                    wrapSub 64 (2 ^ 64 - 1) length < address ∨
                    wrapSub 64 (2 ^ 64 - 1) mr.length < mr.clientAddress ∨
                    wrapAdd 64 mr.clientAddress mr.length < wrapAdd 64 address length then
                  (some .einval, daemonAddress)
                else
                  let offset := wrapSub 64 address mr.clientAddress
                  if wrapSub 64 (2 ^ 64 - 1) offset < mr.daemonAddress then
                    (some .einval, daemonAddress)
                  else
                    (none, some (wrapAdd 64 mr.daemonAddress offset))

def resolveLkeyInto (service : QpService) (session pdIdentity lkey address length : Nat)
    (daemonAddress : Option Nat) : Status × Option Nat :=
  service.resolveKeyInto session pdIdentity lkey address length false daemonAddress

def resolveRkeyInto (service : QpService) (session pdIdentity rkey address length : Nat)
    (daemonAddress : Option Nat) : Status × Option Nat :=
  service.resolveKeyInto session pdIdentity rkey address length true daemonAddress

/-- On 64-bit arguments the words of the lookup are the numbers they stand for. -/
theorem resolveKeyInto_eq (valid : service.Valid) (mapped : service.MrsMapped)
    {session pdIdentity key address length : Nat} {remote : Bool} (output : Nat)
    (addressFits : address < 2 ^ 64) (lengthFits : length < 2 ^ 64) :
    service.resolveKeyInto session pdIdentity key address length remote (some output) =
      match service.resolveKey session pdIdentity key address length remote with
      | .ok target => (none, some target)
      | .error status => (some status, some output) := by
  have most (word : Nat) (fits : word < 2 ^ 64) :
      wrapSub 64 (2 ^ 64 - 1) word = 2 ^ 64 - 1 - word :=
    wrapSub_of_le (by omega) (by decide)
  unfold resolveKeyInto resolveKey
  simp only [reduceCtorEq, or_false]
  by_cases empty : key = 0 ∨ length = 0
  · rw [if_pos empty, if_pos empty]
  rw [if_neg empty, if_neg empty]
  cases service.pds.resolve session pdIdentity with
  | none => rfl
  | some pd =>
      dsimp only
      cases (if remote then pd.remoteKeyIndex else pd.localKeyIndex) key with
      | none => rfl
      | some identity =>
          dsimp only
          cases live : service.mrs.resolve session identity with
          | none => rfl
          | some mr =>
              obtain ⟨daemonAddress, inside, fits⟩ := mapped _ (mem_mrs valid live)
              dsimp only at daemonAddress inside fits ⊢
              rw [most length lengthFits, most mr.length (by omega)]
              split
              · rfl
              split
              · rfl
              by_cases outside : address < mr.clientAddress ∨ 2 ^ 64 - 1 - length < address ∨
                  2 ^ 64 - 1 - mr.length < mr.clientAddress
              · rw [if_pos (by omega), if_pos (by omega)]
              have regionFits : mr.clientAddress + mr.length < 2 ^ 64 := by omega
              have rangeFits : address + length < 2 ^ 64 := by omega
              have offset : wrapSub 64 address mr.clientAddress = address - mr.clientAddress :=
                wrapSub_of_le (by omega) addressFits
              rw [wrapAdd_of_lt regionFits, wrapAdd_of_lt rangeFits, offset,
                most _ (by omega)]
              split
              · rfl
              split
              · rfl
              rw [wrapAdd_of_lt (by omega)]

/-! ## The right to a range -/

/-- What has to hold for the region `mr` to let a key through for a range. -/
structure Authorizes (service : QpService) (session pdIdentity key address length : Nat)
    (remote : Bool) (mr : MrRecord) : Prop where
  pd : (service.pds.resolve session pdIdentity).isSome = true
  live : ∃ entry ∈ service.mrs.entries, entry.record = mr
  pdIdentity : mr.pdIdentity = pdIdentity
  key : (if remote then mr.rkey else mr.lkey) = key
  access : remote = true → mr.access &&& accessRemoteWrite ≠ 0
  positive : 0 < length
  start : mr.clientAddress ≤ address
  stop : address + length ≤ mr.clientAddress + mr.length
  rangeFits : address + length ≤ 2 ^ 64 - 1
  regionFits : mr.clientAddress + mr.length ≤ 2 ^ 64 - 1

/-- The checks of a lookup that succeeds. -/
structure Checks (service : QpService) (session pdIdentity key address length : Nat)
    (remote : Bool) (pd : PdRecord) (identity : Nat) (mr : MrRecord) : Prop where
  keyed : key ≠ 0
  nonempty : length ≠ 0
  parent : service.pds.resolve session pdIdentity = some pd
  indexed : (if remote then pd.remoteKeyIndex else pd.localKeyIndex) key = some identity
  live : service.mrs.resolve session identity = some mr
  same : mr.pdIdentity = pdIdentity
  access : ¬(remote = true ∧ mr.access &&& accessRemoteWrite = 0)
  range : ¬(address < mr.clientAddress ∨ 2 ^ 64 - 1 - length < address ∨
    2 ^ 64 - 1 - mr.length < mr.clientAddress ∨
    mr.clientAddress + mr.length < address + length)
  sum : ¬2 ^ 64 - 1 - (address - mr.clientAddress) < mr.daemonAddress

theorem resolveKey_eq_ok_iff {session pdIdentity key address length target : Nat}
    {remote : Bool} :
    service.resolveKey session pdIdentity key address length remote = .ok target ↔
      ∃ pd identity mr,
        Checks service session pdIdentity key address length remote pd identity mr ∧
          target = mr.daemonAddress + (address - mr.clientAddress) := by
  constructor
  · intro resolved
    unfold resolveKey at resolved
    split at resolved
    · cases resolved
    rename_i given
    split at resolved
    · cases resolved
    rename_i pd parent
    split at resolved
    · cases resolved
    rename_i identity indexed
    split at resolved
    · cases resolved
    rename_i mr live
    split at resolved
    · cases resolved
    rename_i same
    split at resolved
    · cases resolved
    rename_i access
    split at resolved
    · cases resolved
    rename_i range
    split at resolved
    · cases resolved
    rename_i sum
    injection resolved with target
    exact ⟨pd, identity, mr, ⟨not_or.mp given |>.1, not_or.mp given |>.2, parent, indexed, live,
      not_not.mp same, access, range, sum⟩, target.symm⟩
  · rintro ⟨pd, identity, mr, checks, rfl⟩
    unfold resolveKey
    rw [if_neg (not_or.mpr ⟨checks.keyed, checks.nonempty⟩)]
    simp only [checks.parent, checks.indexed, checks.live]
    rw [if_neg (not_not.mpr checks.same), if_neg checks.access, if_neg checks.range,
      if_neg checks.sum]

/-- A region of a live domain belongs to the session of the domain. -/
theorem live_of_pd (valid : service.Valid) {session pdIdentity : Nat} {pd : PdRecord}
    (parent : service.pds.resolve session pdIdentity = some pd) {entry : Entry MrRecord}
    (member : entry ∈ service.mrs.entries) (same : entry.record.pdIdentity = pdIdentity) :
    service.mrs.resolve session entry.identity = some entry.record := by
  have owner := mem_pds valid parent
  obtain ⟨other, otherMember, otherIdentity, otherOwner, -⟩ := valid.consistent.mrPd entry member
  have unique := entry_unique valid.pds otherMember owner (otherIdentity.trans same)
  have owned : entry.owner = session := by
    rw [← otherOwner, unique]
  refine (resolve_eq_some_iff valid.mrs (by decide)).mpr ?_
  rw [← owned]
  exact member

/-- The index of a live domain lists exactly the keys of its regions. -/
theorem indexed_iff (valid : service.Valid) {session pdIdentity : Nat} {pd : PdRecord}
    (parent : service.pds.resolve session pdIdentity = some pd) (remote : Bool)
    (key identity : Nat) :
    (if remote then pd.remoteKeyIndex else pd.localKeyIndex) key = some identity ↔
      ∃ mr, service.mrs.resolve session identity = some mr ∧ mr.pdIdentity = pdIdentity ∧
        (if remote then mr.rkey else mr.lkey) = key := by
  have owner := mem_pds valid parent
  cases remote with
  | false =>
      refine (valid.consistent.localKeyIndex _ owner (key, identity)).trans ⟨?_, ?_⟩
      · rintro ⟨mr, member, sameKey, rfl, same⟩
        exact ⟨mr.record, live_of_pd valid parent member same, same, sameKey⟩
      · rintro ⟨mr, live, same, sameKey⟩
        exact ⟨_, mem_mrs valid live, sameKey, rfl, same⟩
  | true =>
      refine (valid.consistent.remoteKeyIndex _ owner (key, identity)).trans ⟨?_, ?_⟩
      · rintro ⟨mr, member, sameKey, rfl, same⟩
        exact ⟨mr.record, live_of_pd valid parent member same, same, sameKey⟩
      · rintro ⟨mr, live, same, sameKey⟩
        exact ⟨_, mem_mrs valid live, sameKey, rfl, same⟩

theorem resolveKey_iff_authorizes (valid : service.Valid) (mapped : service.MrsMapped)
    (paired : service.KeysPaired) {session pdIdentity key address length : Nat} {remote : Bool}
    {target : Nat} :
    service.resolveKey session pdIdentity key address length remote = .ok target ↔
      ∃ mr, service.Authorizes session pdIdentity key address length remote mr ∧
        target = mr.daemonAddress + (address - mr.clientAddress) := by
  rw [resolveKey_eq_ok_iff]
  constructor
  · rintro ⟨pd, identity, mr, checks, target⟩
    obtain ⟨found, live, same, named⟩ :=
      (indexed_iff valid checks.parent remote key identity).mp checks.indexed
    rw [checks.live] at live
    obtain rfl := Option.some.inj live
    have range := checks.range
    have nonempty := checks.nonempty
    obtain ⟨daemonAddress, inside, fits⟩ := mapped _ (mem_mrs valid checks.live)
    dsimp only at daemonAddress inside fits
    refine ⟨mr, ?_, target⟩
    exact {
      pd := by rw [checks.parent]; rfl
      live := ⟨_, mem_mrs valid checks.live, rfl⟩
      pdIdentity := checks.same
      key := named
      access := fun isRemote none => checks.access ⟨isRemote, none⟩
      positive := Nat.pos_of_ne_zero nonempty
      start := by omega
      stop := by omega
      rangeFits := by omega
      regionFits := by omega }
  · rintro ⟨mr, authorizes, target⟩
    obtain ⟨pd, parent⟩ := Option.isSome_iff_exists.mp authorizes.pd
    obtain ⟨entry, member, rfl⟩ := authorizes.live
    obtain ⟨daemonAddress, inside, fits⟩ := mapped entry member
    have pair := paired.regions entry member
    have named := authorizes.key
    have start := authorizes.start
    have stop := authorizes.stop
    have positive := authorizes.positive
    have rangeFits := authorizes.rangeFits
    have regionFits := authorizes.regionFits
    have indexed := (indexed_iff valid parent remote key entry.identity).mpr
      ⟨entry.record, live_of_pd valid parent member authorizes.pdIdentity,
        authorizes.pdIdentity, named⟩
    refine ⟨pd, entry.identity, entry.record, ?_, target⟩
    exact {
      keyed := by
        rintro rfl
        split at named <;> omega
      nonempty := by omega
      parent
      indexed
      live := live_of_pd valid parent member authorizes.pdIdentity
      same := authorizes.pdIdentity
      access := fun refused => authorizes.access refused.1 refused.2
      range := by omega
      sum := by omega }

/-! ## Lookups of reachable daemons -/

/-- Where the range of a region that lets a key through is found in its mapping. -/
structure Placed (mr : MrRecord) (address length target : Nat) : Prop where
  place : target =
    mr.mapping.daemonBaseAddress + mr.allocationOffset + (address - mr.clientAddress)
  low : mr.mapping.daemonBaseAddress ≤ target
  high : target + length ≤ mr.mapping.daemonBaseAddress + mr.allocationSize
  /-- The sums of the registration and of the lookup do not wrap. -/
  base : wrapAdd 64 mr.mapping.daemonBaseAddress mr.allocationOffset = mr.daemonAddress
  range : wrapAdd 64 address length = address + length
  region : wrapAdd 64 mr.clientAddress mr.length = mr.clientAddress + mr.length
  sum : wrapAdd 64 mr.daemonAddress (wrapSub 64 address mr.clientAddress) = target

/-- An answer of a lookup: exactly the authorised ranges succeed. -/
structure Resolution (service : QpService) (session pdIdentity key address length : Nat)
    (remote : Bool) (output : Nat) (answer : Status × Option Nat) : Prop where
  succeeds : answer.1 = none ↔
    ∃ mr, service.Authorizes session pdIdentity key address length remote mr
  placed : ∀ mr, service.Authorizes session pdIdentity key address length remote mr →
    ∃ target, answer = (none, some target) ∧ Placed mr address length target
  unwritten : answer.1 ≠ none → answer.2 = some output

theorem Authorizes.placed (mapped : service.MrsMapped)
    {session pdIdentity key address length : Nat} {remote : Bool} {mr : MrRecord}
    (authorizes : service.Authorizes session pdIdentity key address length remote mr) :
    Placed mr address length (mr.daemonAddress + (address - mr.clientAddress)) := by
  obtain ⟨entry, member, rfl⟩ := authorizes.live
  obtain ⟨daemonAddress, inside, fits⟩ := mapped entry member
  have start := authorizes.start
  have stop := authorizes.stop
  have rangeFits := authorizes.rangeFits
  have regionFits := authorizes.regionFits
  have offset : wrapSub 64 address entry.record.clientAddress =
      address - entry.record.clientAddress :=
    wrapSub_of_le start (by omega)
  exact {
    place := by rw [daemonAddress]
    low := by omega
    high := by omega
    base := by rw [wrapAdd_of_lt (by omega), daemonAddress]
    range := wrapAdd_of_lt (by omega)
    region := wrapAdd_of_lt (by omega)
    sum := by rw [offset, wrapAdd_of_lt (by omega)] }

/-- Two regions that let the same key through are the same region. -/
theorem Authorizes.unique (distinct : service.KeysDistinct)
    {session pdIdentity key address length : Nat} {remote : Bool} {left right : MrRecord}
    (leftAuthorizes : service.Authorizes session pdIdentity key address length remote left)
    (rightAuthorizes : service.Authorizes session pdIdentity key address length remote right) :
    left = right := by
  obtain ⟨leftEntry, leftMember, rfl⟩ := leftAuthorizes.live
  obtain ⟨rightEntry, rightMember, rfl⟩ := rightAuthorizes.live
  have leftKey := leftAuthorizes.key
  have rightKey := rightAuthorizes.key
  refine congrArg Entry.record (distinct leftEntry leftMember rightEntry rightMember ?_)
  cases remote with
  | false => exact .inl (leftKey.trans rightKey.symm)
  | true => exact .inr (leftKey.trans rightKey.symm)

theorem resolveKeyInto_resolution (valid : service.Valid) (mapped : service.MrsMapped)
    (paired : service.KeysPaired) (distinct : service.KeysDistinct)
    {session pdIdentity key address length : Nat} (remote : Bool) (output : Nat)
    (addressFits : address < 2 ^ 64) (lengthFits : length < 2 ^ 64) :
    Resolution service session pdIdentity key address length remote output
      (service.resolveKeyInto session pdIdentity key address length remote (some output)) := by
  rw [resolveKeyInto_eq valid mapped output addressFits lengthFits]
  cases resolved : service.resolveKey session pdIdentity key address length remote with
  | error status =>
      have none (mr : MrRecord) :
          ¬service.Authorizes session pdIdentity key address length remote mr := by
        intro authorizes
        have found := (resolveKey_iff_authorizes valid mapped paired).mpr ⟨mr, authorizes, rfl⟩
        rw [resolved] at found
        cases found
      exact {
        succeeds := ⟨nofun, fun ⟨mr, authorizes⟩ => absurd authorizes (none mr)⟩
        placed := fun mr authorizes => absurd authorizes (none mr)
        unwritten := fun _ => rfl }
  | ok target =>
      obtain ⟨found, foundAuthorizes, rfl⟩ :=
        (resolveKey_iff_authorizes valid mapped paired).mp resolved
      exact {
        succeeds := ⟨fun _ => ⟨found, foundAuthorizes⟩, fun _ => rfl⟩
        placed := fun mr authorizes => by
          have same := authorizes.unique distinct foundAuthorizes
          subst same
          exact ⟨_, rfl, authorizes.placed mapped⟩
        unwritten := fun failed => absurd rfl failed }

/-- A key resolves for a range exactly when a live region gives the right to it, and then to
the place of the range in the region's mapping. -/
theorem keys_resolve_exactly (reachable : service.ReachableMapped)
    (session pdIdentity key address length output : Nat)
    (addressFits : address < 2 ^ 64) (lengthFits : length < 2 ^ 64) :
    Resolution service session pdIdentity key address length false output
        (service.resolveLkeyInto session pdIdentity key address length (some output)) ∧
      Resolution service session pdIdentity key address length true output
        (service.resolveRkeyInto session pdIdentity key address length (some output)) ∧
      ∀ mr ∈ service.mrs.entries,
        (service.resolveRkeyInto session pdIdentity mr.record.lkey address length
          (some output)).1 ≠ none ∧
        (service.resolveLkeyInto session pdIdentity mr.record.rkey address length
          (some output)).1 ≠ none := by
  have valid := reachable.reachable.valid
  have mapped := reachable.mapped
  have distinct := reachable.reachable.keysDistinct
  have paired : service.KeysPaired := by
    obtain ⟨catalog, events, -, rfl⟩ := reachable
    exact run_paired catalog events
  have resolution (key : Nat) (remote : Bool) :
      Resolution service session pdIdentity key address length remote output
        (service.resolveKeyInto session pdIdentity key address length remote (some output)) :=
    resolveKeyInto_resolution valid mapped paired distinct remote output addressFits lengthFits
  refine ⟨resolution key false, resolution key true, fun mr member => ?_⟩
  obtain ⟨odd, next⟩ := paired.regions mr member
  constructor
  · intro succeeded
    obtain ⟨other, authorizes⟩ := (resolution mr.record.lkey true).succeeds.mp succeeded
    obtain ⟨entry, otherMember, rfl⟩ := authorizes.live
    have named := authorizes.key
    have pair := paired.regions entry otherMember
    simp only [if_true] at named
    omega
  · intro succeeded
    obtain ⟨other, authorizes⟩ := (resolution mr.record.rkey false).succeeds.mp succeeded
    obtain ⟨entry, otherMember, rfl⟩ := authorizes.live
    have named := authorizes.key
    have pair := paired.regions entry otherMember
    simp only [Bool.false_eq_true, if_false] at named
    omega

/-- One region of 64 bytes at address 4096, mapped at address 8192 by a backend for small
allocations. -/
def oneRegion : List Event :=
  ([{ method := 2, objectIdentity := 1 },
      { method := 4, objectIdentity := Loopback.contextIdentity },
      Loopback.registerMr] : List ControlRequest).map fun request =>
    .request 1 request
      { Loopback.host with
        openMemory := fun memory =>
          if memory.allocationSize ≤ 2 ^ 32 then .ok ⟨memory.gpuUuid, 8192⟩
          else .error .einval }

theorem oneRegion_reachable :
    (Execution.run step (create [⟨1, []⟩]) oneRegion).ReachableMapped := by
  refine ⟨_, _, fun event member => ?_, rfl⟩
  obtain ⟨request, -, rfl⟩ := List.mem_map.mp member
  intro memory mapping opened
  dsimp only at opened
  split at opened
  · injection opened with opened
    rw [← opened]
    dsimp only
    omega
  · cases opened

/-- The last 60 bytes of the region. -/
theorem keys_resolve_exactly_oneRegion :
    let service := Execution.run step (create [⟨1, []⟩]) oneRegion
    service.resolveLkeyInto 1 Loopback.pdIdentity 1 4100 60 (some 0) =
        (none, some 8196) ∧
      Resolution service 1 Loopback.pdIdentity 1 4100 60 false 0
        (service.resolveLkeyInto 1 Loopback.pdIdentity 1 4100 60 (some 0)) := by
  intro service
  exact ⟨by decide +kernel, (keys_resolve_exactly oneRegion_reachable 1
    Loopback.pdIdentity 1 4100 60 0 (by decide) (by decide)).1⟩

end Ugdr.Control.QpService
