import Lily.Websocket.Registry

/-!
# The principal index

The index is a second view of the connections: the ids of the connected ones by namespace and
principal. Each section that changes a connection changes the index with it, so the two views agree
whenever the lock is free.
-/

namespace Lily.Websocket

open Collection

namespace ConnectionRegistry

variable {r r' : ConnectionRegistry} {id id' : Uuid} {connection : Connection}

/-! ## Lookups -/

@[simp] theorem changeMembership_lookup (change) (namespaceName : String)
    (identity : Option WebSocketIdentitySnapshot) :
    (r.changeMembership change namespaceName id identity).lookup id' = r.lookup id' := by
  unfold changeMembership
  split <;> rfl

variable (namespaceName : String) (identity : Option WebSocketIdentitySnapshot)

@[simp] theorem removePrincipalMembershipParts_lookup :
    (r.removePrincipalMembershipParts namespaceName id identity).lookup id' = r.lookup id' :=
  changeMembership_lookup _ _ _

@[simp] theorem addPrincipalMembershipParts_lookup :
    (r.addPrincipalMembershipParts namespaceName id identity).lookup id' = r.lookup id' :=
  changeMembership_lookup _ _ _

theorem put_lookup :
    (r.put id connection).lookup id' = if id' = id then some connection else r.lookup id' :=
  lookup_insert_ite

theorem stop_lookup : (r.stop id connection).lookup id' =
    if id' = id then some { connection with state := .closing } else r.lookup id' := by
  simp [stop, put_lookup]

variable (current replacement : WebSocketIdentitySnapshot)

theorem replaceIdentity_lookup :
    (r.replaceIdentity id connection current replacement).lookup id' =
      if id' = id then some { connection with identity := some replacement } else r.lookup id' := by
  simp [replaceIdentity, put_lookup]

/-! ## Whether there is an index -/

@[simp] theorem changeMembership_isSome (change) (namespaceName : String)
    (identity : Option WebSocketIdentitySnapshot) :
    (r.changeMembership change namespaceName id identity).principalIndex.isSome =
      r.principalIndex.isSome := by
  unfold changeMembership
  split <;> simp

@[simp] theorem put_isSome :
    (r.put id connection).principalIndex.isSome = r.principalIndex.isSome := rfl

@[simp] theorem stop_isSome :
    (r.stop id connection).principalIndex.isSome = r.principalIndex.isSome := by
  simp [stop, removePrincipalMembershipParts]

@[simp] theorem replaceIdentity_isSome :
    (r.replaceIdentity id connection current replacement).principalIndex.isSome =
      r.principalIndex.isSome := by
  simp [replaceIdentity, removePrincipalMembershipParts, addPrincipalMembershipParts]

theorem removeConnection_isSome :
    (r.removeConnection id).1.principalIndex.isSome = r.principalIndex.isSome := by
  unfold removeConnection
  split <;> simp [removePrincipalMembershipParts]

/-! ## The view of the connections -/

def Member (r : ConnectionRegistry) (key : PrincipalTargetKey) (id : Uuid) : Prop :=
  ∃ connection, r.lookup id = some connection ∧ connection.state = .connected ∧
    connection.namespaceName = key.namespaceName ∧ connection.principalId = some key.principalId

/-- The index, if there is one, stores the relation. -/
def Stores (r : ConnectionRegistry) (R : PrincipalTargetKey → Uuid → Prop) : Prop :=
  ∀ index, r.principalIndex = some index → Indexes index R

def Others (r : ConnectionRegistry) (id : Uuid) (key : PrincipalTargetKey) (id' : Uuid) : Prop :=
  r.Member key id' ∧ id' ≠ id

theorem Stores.congr {R R' : PrincipalTargetKey → Uuid → Prop} (h : r.Stores R)
    (hindex : r'.principalIndex = r.principalIndex) (hR : ∀ key id, R' key id ↔ R key id) :
    r'.Stores R' := by
  intro index hsome
  rw [hindex] at hsome
  exact (h index hsome).congr hR

theorem others_of_lookup_none (h : r.lookup id = none) (key : PrincipalTargetKey) (id' : Uuid) :
    r.Others id key id' ↔ r.Member key id' := by
  refine and_iff_left_of_imp ?_
  rintro ⟨connection, hlookup, -⟩ rfl
  cases h.symm.trans hlookup

/-- Without its own entry the index stores the other members. -/
theorem Stores.remove (h : r.Stores r.Member) (hlookup : r.lookup id = some connection) :
    (r.removePrincipalMembershipParts connection.namespaceName id connection.identity).Stores
      (r.Others id) := by
  have hmember : ∀ key, r.Member key id → connection.namespaceName = key.namespaceName ∧
      connection.principalId = some key.principalId := by
    rintro key ⟨found, hfound, -, hkey⟩
    cases hlookup.symm.trans hfound
    exact hkey
  unfold removePrincipalMembershipParts changeMembership
  split
  next hanonymous =>
    refine h.congr rfl fun key id' => and_iff_left_of_imp ?_
    rintro hmem rfl
    cases hanonymous.symm.trans (hmember key hmem).2
  next principalId hprincipal =>
    intro index hindex
    obtain ⟨before, hbefore, rfl⟩ := Option.map_eq_some_iff.mp hindex
    refine (h before hbefore).removeMember fun key id' => and_congr_right fun hmem =>
      not_congr ⟨?_, fun heq => heq.2⟩
    rintro rfl
    obtain ⟨hname, hid⟩ := hmember key hmem
    cases hprincipal.symm.trans hid
    exact ⟨by rw [hname], rfl⟩

section Change

variable {base : ConnectionRegistry} (h : r.Stores (base.Others id))
  (hothers : ∀ id', id' ≠ id → r'.lookup id' = base.lookup id')

include h hothers

theorem Stores.leave (hindex : r'.principalIndex = r.principalIndex)
    (hgone : ∀ connection, r'.lookup id = some connection → connection.state ≠ .connected) :
    r'.Stores r'.Member := by
  refine h.congr hindex fun key id' => ?_
  by_cases hid : id' = id
  · subst hid
    refine iff_of_false ?_ fun hother => hother.2 rfl
    rintro ⟨connection, hlookup, hstate, -⟩
    exact hgone connection hlookup hstate
  · simp [Member, Others, hothers id' hid, hid]

theorem Stores.join (hindex : r'.principalIndex =
      (r.addPrincipalMembershipParts connection.namespaceName id
        connection.identity).principalIndex)
    (hlookup : r'.lookup id = some connection) (hstate : connection.state = .connected) :
    r'.Stores r'.Member := by
  have hmember : ∀ key id', r'.Member key id' ↔ base.Others id key id' ∨
      id' = id ∧ connection.namespaceName = key.namespaceName ∧
        connection.principalId = some key.principalId := by
    intro key id'
    by_cases hid : id' = id
    · subst hid
      simp [Member, Others, hlookup, hstate]
    · simp [Member, Others, hothers id' hid, hid]
  unfold addPrincipalMembershipParts changeMembership at hindex
  split at hindex
  next hanonymous =>
    refine h.congr hindex fun key id' => (hmember key id').trans (or_iff_left ?_)
    rintro ⟨-, -, hprincipal⟩
    cases hanonymous.symm.trans hprincipal
  next principalId hprincipal =>
    intro index hsome
    rw [hindex] at hsome
    obtain ⟨before, hbefore, rfl⟩ := Option.map_eq_some_iff.mp hsome
    refine (h before hbefore).addMember fun key id' => (hmember key id').trans (or_congr_right ?_)
    obtain ⟨name, principal⟩ := key
    rw [show connection.principalId = some principalId from hprincipal, and_comm]
    simp [eq_comm]

end Change

variable (h : r.Stores r.Member)

include h

theorem Stores.add (hfresh : r.lookup id = none) (hstate : connection.state = .connected) :
    ((r.addPrincipalMembershipParts connection.namespaceName id connection.identity).put id
      connection).Stores
      ((r.addPrincipalMembershipParts connection.namespaceName id connection.identity).put id
        connection).Member := by
  have hothers : r.Stores (r.Others id) := h.congr rfl (others_of_lookup_none hfresh)
  refine hothers.join (fun id' hid => ?_) rfl ?_ hstate
  · simp [put_lookup, hid]
  · simp [put_lookup]

variable (hlookup : r.lookup id = some connection)

include hlookup

theorem Stores.stop : (r.stop id connection).Stores (r.stop id connection).Member := by
  refine (h.remove hlookup).leave (fun id' hid => ?_) rfl fun found hfound => ?_
  · simp [stop_lookup, hid]
  · simp only [stop_lookup, ↓reduceIte, Option.some.injEq] at hfound
    simp [← hfound]

omit hlookup in
theorem Stores.touch (now : SystemTime) (hlookup : r.lookup id = some connection) :
    (r.put id { connection with lastApplicationActivityAt := now }).Stores
      (r.put id { connection with lastApplicationActivityAt := now }).Member := by
  refine h.congr rfl fun key id' => ?_
  by_cases hid : id' = id
  · subst hid
    simp [Member, put_lookup, hlookup, Connection.principalId]
  · simp [Member, put_lookup, hid]

theorem Stores.removeStopped (hstate : connection.state ≠ .connected) :
    (r.removePrincipalMembershipParts connection.namespaceName id connection.identity).Stores
      (r.removePrincipalMembershipParts connection.namespaceName id
        connection.identity).Member := by
  refine (h.remove hlookup).leave (fun id' hid => ?_) rfl fun found hfound => ?_
  · simp
  · rw [removePrincipalMembershipParts_lookup] at hfound
    cases hlookup.symm.trans hfound
    exact hstate

theorem Stores.replaceIdentity {current replacement : WebSocketIdentitySnapshot}
    (hidentity : connection.identity = some current) (hstate : connection.state = .connected) :
    (r.replaceIdentity id connection current replacement).Stores
      (r.replaceIdentity id connection current replacement).Member := by
  have hremoved := h.remove hlookup
  rw [hidentity] at hremoved
  have hput : ((r.removePrincipalMembershipParts connection.namespaceName id (some current)).put id
      { connection with identity := some replacement }).Stores (r.Others id) :=
    hremoved.congr rfl fun _ _ => Iff.rfl
  have hlookup' : (r.replaceIdentity id connection current replacement).lookup id =
      some { connection with identity := some replacement } := by
    simp [replaceIdentity_lookup]
  refine hput.join (fun id' hid => ?_) rfl hlookup' hstate
  simp [replaceIdentity_lookup, hid]

theorem Stores.removeConnection (hid : connection.id = id) :
    (r.removeConnection id).1.Stores (r.removeConnection id).1.Member := by
  have hafter : (r.removeConnection id).1 =
      { r with connections := r.connections.erase id }.removePrincipalMembershipParts
        connection.namespaceName id connection.identity := by
    simp [ConnectionRegistry.removeConnection, hlookup, hid]
  rw [hafter]
  refine (h.remove hlookup).leave (fun id' hne => ?_) ?_ fun found hfound => ?_
  · rw [removePrincipalMembershipParts_lookup]
    exact AList.lookup_erase_ne hne
  · unfold removePrincipalMembershipParts changeMembership
    split <;> rfl
  · rw [removePrincipalMembershipParts_lookup] at hfound
    exact absurd ((AList.lookup_erase id r.connections).symm.trans hfound) nofun

end ConnectionRegistry

end Lily.Websocket
