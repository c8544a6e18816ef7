import Lily.Websocket.PrincipalIndex

/-!
# Sections of the registry lock

Every change of the registry is one section under its lock. There are three kinds of them: a
connection is added, an identity is replaced, or the identities stay as they are.
-/

namespace Lily.Websocket

open Collection Validation

/-- What is under the lock, with the time and the address of the next transport. -/
structure Node where
  registry : ConnectionRegistry
  now : Instant := 0
  nextGeneration : Generation := 0

/-- One section of the lock, or time that passes. -/
inductive Section where
  | tick (elapsed : Nat)
  | add (checkedAt : Instant) (created : SystemTime) (id : Uuid) (namespaceName : Option String)
      (identity : Option WebSocketIdentitySnapshot) (groupAccepts : Bool)
  | remove (id : Uuid)
  | closeSlowConsumer (id : Uuid) (generation : Generation)
  | requestCloseFrame (id : Uuid)
  | markClosing (id : Uuid)
  | reauthenticate (id : Uuid) (expectedRevision : Revision)
      (replacement : AuthenticatedWebSocketIdentity)
  | claimIdentityExpiry (id : Uuid) (revision : Revision) (expected : Option Generation)
  | cleanupInactiveConnections (now : SystemTime) (timeout : Nat)
  | recordApplicationActivity (now : SystemTime) (id : Uuid)

/-- The changes that a section makes to identities, and the generations it decides to close. -/
inductive Change where
  | added (generation : Generation) (identity : Option WebSocketIdentitySnapshot)
  | replaced (generation : Generation) (revision : Revision)
  | closed (generation : Generation)

/-- A section that fails has no effect. -/
def Node.enter (identityIndexEnabled : Bool) (n : Node) : Section → Node × List Change
  | .tick elapsed => ({ n with now := n.now + elapsed }, [])
  | .add checkedAt created id namespaceName identity groupAccepts =>
    match n.registry.addConnection identityIndexEnabled checkedAt created n.nextGeneration id
        namespaceName identity groupAccepts with
    | .error _ => (n, [])
    | .ok registry =>
      ({ n with registry, nextGeneration := n.nextGeneration + 1 },
        [.added n.nextGeneration identity])
  | .remove id => ({ n with registry := (n.registry.removeConnection id).1 }, [])
  | .closeSlowConsumer id generation =>
    match n.registry.closeSlowConsumer id generation with
    | none => (n, [])
    | some registry => ({ n with registry }, [.closed generation])
  | .requestCloseFrame id =>
    match n.registry.requestCloseFrame n.now id with
    | .error _ => (n, [])
    | .ok (registry, generation, _) => ({ n with registry }, [.closed generation])
  | .markClosing id =>
    match n.registry.markClosing id with
    | .error _ => (n, [])
    | .ok (registry, generation) => ({ n with registry }, (generation.map Change.closed).toList)
  | .reauthenticate id expectedRevision replacement =>
    match n.registry.reauthenticate n.now id expectedRevision replacement with
    | .ok (registry, .updated revision) =>
      ({ n with registry },
        ((n.registry.lookup id).map (Change.replaced ·.generation revision)).toList)
    | .ok (registry, _) => ({ n with registry }, [])
    | .error _ => (n, [])
  | .claimIdentityExpiry id revision expected =>
    match n.registry.claimIdentityExpiry n.now id revision expected with
    | .ok (registry, .closing generation) => ({ n with registry }, [.closed generation])
    | .ok (registry, .superseded) => ({ n with registry }, [])
    | .error _ => (n, [])
  | .cleanupInactiveConnections now timeout =>
    ({ n with registry := (n.registry.cleanupInactiveConnections now timeout).1 },
      (n.registry.cleanupInactiveConnections now timeout).2.map Change.closed)
  | .recordApplicationActivity now id =>
    match n.registry.recordApplicationActivity now id with
    | .error _ => (n, [])
    | .ok registry => ({ n with registry }, [])

/-! ## What the sections do -/

/-- Every connection that is registered afterwards was registered before, with the same transport
and the same identity. -/
def ConnectionRegistry.Keeps (r r' : ConnectionRegistry) : Prop :=
  ∀ id connection', r'.lookup id = some connection' →
    ∃ connection, r.lookup id = some connection ∧ connection'.id = connection.id ∧
      connection'.generation = connection.generation ∧ connection'.identity = connection.identity

namespace ConnectionRegistry

variable {r r' r'' : ConnectionRegistry} {id : Uuid} {connection : Connection}

/-- Entries may be taken away. -/
theorem Keeps.of_lookup (h : ∀ id connection, r'.lookup id = some connection →
    r.lookup id = some connection) : r.Keeps r' :=
  fun id connection hlookup => ⟨connection, h id connection hlookup, rfl, rfl, rfl⟩

theorem Keeps.trans (h : r.Keeps r') (h' : r'.Keeps r'') : r.Keeps r'' := by
  intro id connection hlookup
  obtain ⟨middle, hmiddle, hid, hgeneration, hidentity⟩ := h' id connection hlookup
  obtain ⟨first, hfirst, hid', hgeneration', hidentity'⟩ := h id middle hmiddle
  exact ⟨first, hfirst, hid.trans hid', hgeneration.trans hgeneration',
    hidentity.trans hidentity'⟩

/-- One entry is written with the transport and the identity that it had. -/
theorem Keeps.update {next : Connection} (hlookup : r.lookup id = some connection)
    (hafter : ∀ id', r'.lookup id' = if id' = id then some next else r.lookup id')
    (hid : next.id = connection.id) (hgeneration : next.generation = connection.generation)
    (hidentity : next.identity = connection.identity) : r.Keeps r' := by
  intro id' connection' hlookup'
  rw [hafter] at hlookup'
  split at hlookup'
  next heq =>
    cases hlookup'
    exact ⟨connection, heq ▸ hlookup, hid, hgeneration, hidentity⟩
  next => exact ⟨connection', hlookup', rfl, rfl, rfl⟩

theorem keeps_removeConnection (r : ConnectionRegistry) (id : Uuid) :
    r.Keeps (r.removeConnection id).1 := by
  refine .of_lookup fun id' connection' hlookup => ?_
  unfold removeConnection at hlookup
  split at hlookup
  next => exact hlookup
  next removed _ =>
    rw [removePrincipalMembershipParts_lookup] at hlookup
    have herase : (r.connections.erase id).lookup id' = some connection' := hlookup
    rw [lookup_erase_ite] at herase
    split at herase
    next => cases herase
    next => exact herase

/-- What holds through every stop holds through a cleanup. -/
theorem cleanupInactiveConnections_induct {P : ConnectionRegistry → Prop} (start : P r)
    (next : ∀ r id connection, P r → r.lookup id = some connection → P (r.stop id connection))
    (now : SystemTime) (timeout : Nat) : P (r.cleanupInactiveConnections now timeout).1 := by
  have hfold (ids : List Uuid) (claim : ConnectionRegistry × List Generation) (hclaim : P claim.1) :
      P (ids.foldl claimStale claim).1 := by
    induction ids generalizing claim with
    | nil => exact hclaim
    | cons id rest ih =>
      refine ih (claimStale claim id) ?_
      unfold claimStale
      split
      next => exact hclaim
      next connection hlookup => exact next claim.1 id connection hclaim hlookup
  exact hfold (r.staleIds now timeout) (r, []) start

/-! ### Replies -/

variable {generation : Generation}

theorem addConnection_ok {identityIndexEnabled groupAccepts : Bool} {checkedAt : Instant}
    {created : SystemTime} {namespaceName : Option String}
    {identity : Option WebSocketIdentitySnapshot}
    (h : r.addConnection identityIndexEnabled checkedAt created generation id namespaceName identity
      groupAccepts = .ok r') :
    ∃ connection : Connection, r.lookup id = none ∧ connection.id = id ∧
      connection.generation = generation ∧ namespaceName = some connection.namespaceName ∧
      connection.identity = identity ∧ connection.state = .connected ∧
      r' = (r.addPrincipalMembershipParts connection.namespaceName id connection.identity).put id
        connection := by
  unfold addConnection at h
  split at h
  next => cases h
  next name =>
    simp only [bind_ok_iff, ensure_ok_iff] at h
    obtain ⟨-, -, -, -, -, hfresh, -, -, hafter⟩ := h
    cases hafter
    exact ⟨⟨id, generation, name, identity, .connected, created⟩, hfresh, rfl, rfl, rfl, rfl,
      rfl, rfl⟩

theorem closeSlowConsumer_some (h : r.closeSlowConsumer id generation = some r') :
    ∃ connection, r.lookup id = some connection ∧ connection.generation = generation ∧
      connection.state = .connected ∧ r' = r.stop id connection := by
  revert h
  fun_cases r.closeSlowConsumer id generation with
  | case3 connection hlookup hcurrent =>
    rw [not_or, not_not, not_not] at hcurrent
    rintro ⟨⟩
    exact ⟨connection, hlookup, hcurrent.1, hcurrent.2, rfl⟩
  | _ => nofun

variable {now : Instant}

/-- A reauthentication that is not accepted changes nothing. -/
theorem reauthenticate_ok {expectedRevision : Revision}
    {replacement : AuthenticatedWebSocketIdentity} {outcome : WebSocketIdentityUpdateOutcome}
    (h : r.reauthenticate now id expectedRevision replacement = .ok (r', outcome)) :
    r' = r ∧ (∀ revision, outcome ≠ .updated revision) ∨
    ∃ connection current, r.lookup id = some connection ∧ connection.state = .connected ∧
      connection.identity = some current ∧ current.revision = expectedRevision ∧
      current.expired now = false ∧ replacement.expired now = false ∧
      outcome = .updated (expectedRevision + 1) ∧
      r' = r.replaceIdentity id connection current ⟨expectedRevision + 1, some replacement⟩ := by
  revert h
  fun_cases r.reauthenticate now id expectedRevision replacement
  all_goals grind [WebSocketIdentitySnapshot.withReplacement]

/-- A claim that closes is for the connection registered, at the revision it has, after its
expiry. -/
theorem claimIdentityExpiry_ok {revision : Revision} {expected : Option Generation}
    {claim : IdentityExpiryClaim}
    (h : r.claimIdentityExpiry now id revision expected = .ok (r', claim)) :
    r' = r ∧ claim = .superseded ∨
    ∃ connection current, r.lookup id = some connection ∧
      (∀ generation, expected = some generation → connection.generation = generation) ∧
      connection.identity = some current ∧ current.revision = revision ∧
      current.expired now = true ∧ claim = .closing connection.generation ∧
      r' = if connection.state = .connected then r.stop id connection
        else r.removePrincipalMembershipParts connection.namespaceName id connection.identity := by
  revert h
  fun_cases r.claimIdentityExpiry now id revision expected
  all_goals grind

/-- What a section does that changes no identity: it stops connections, takes one away, notes its
activity or leaves all as they are. -/
inductive Calm (r : ConnectionRegistry) : ConnectionRegistry → Prop where
  | same : Calm r r
  | stop {middle : ConnectionRegistry} {id : Uuid} {connection : Connection} (h : Calm r middle)
      (hlookup : middle.lookup id = some connection) : Calm r (middle.stop id connection)
  | removeStopped {id : Uuid} {connection : Connection} (hlookup : r.lookup id = some connection)
      (hstate : connection.state ≠ .connected) :
      Calm r (r.removePrincipalMembershipParts connection.namespaceName id connection.identity)
  | remove (id : Uuid) : Calm r (r.removeConnection id).1
  | touch {id : Uuid} {connection : Connection} (now : SystemTime)
      (hlookup : r.lookup id = some connection) :
      Calm r (r.put id { connection with lastApplicationActivityAt := now })

namespace Calm

theorem keeps (h : Calm r r') : r.Keeps r' := by
  induction h with
  | same => exact .of_lookup fun _ _ hlookup => hlookup
  | stop _ hlookup ih => exact ih.trans (.update hlookup (fun _ => stop_lookup) rfl rfl rfl)
  | removeStopped _ _ =>
    exact .of_lookup fun _ _ h => removePrincipalMembershipParts_lookup _ _ ▸ h
  | remove id => exact keeps_removeConnection r id
  | touch now hlookup => exact .update hlookup (fun _ => put_lookup) rfl rfl rfl

theorem isSome (h : Calm r r') : r'.principalIndex.isSome = r.principalIndex.isSome := by
  induction h with
  | same => rfl
  | stop _ _ ih => exact stop_isSome.trans ih
  | removeStopped _ _ => exact changeMembership_isSome _ _ _
  | remove id => exact removeConnection_isSome
  | touch now _ => exact put_isSome

theorem stores (h : Calm r r') (hids : ∀ id connection, r.lookup id = some connection →
    connection.id = id) (hstores : r.Stores r.Member) : r'.Stores r'.Member := by
  induction h with
  | same => exact hstores
  | stop _ hlookup ih => exact ih.stop hlookup
  | removeStopped hlookup hstate => exact hstores.removeStopped hlookup hstate
  | remove id =>
    cases hlookup : r.lookup id with
    | none => simpa [removeConnection, hlookup] using hstores
    | some connection => exact hstores.removeConnection hlookup (hids id connection hlookup)
  | touch now hlookup => exact hstores.touch now hlookup

theorem closeSlowConsumer (h : r.closeSlowConsumer id generation = some r') : r.Calm r' := by
  obtain ⟨connection, hlookup, -, -, rfl⟩ := closeSlowConsumer_some h
  exact .stop .same hlookup

theorem requestCloseFrame {expired : Bool}
    (h : r.requestCloseFrame now id = .ok (r', generation, expired)) : r.Calm r' := by
  unfold ConnectionRegistry.requestCloseFrame at h
  split at h
  next => cases h
  next connection hlookup =>
    cases h
    split
    · exact .stop .same hlookup
    · exact .same

theorem markClosing {generation : Option Generation}
    (h : r.markClosing id = .ok (r', generation)) : r.Calm r' := by
  unfold ConnectionRegistry.markClosing at h
  split at h
  next => cases h
  next connection hlookup =>
    split at h <;> cases h
    · exact .same
    · exact .stop .same hlookup

theorem claimIdentityExpiry {revision : Revision} {expected : Option Generation}
    {claim : IdentityExpiryClaim}
    (h : r.claimIdentityExpiry now id revision expected = .ok (r', claim)) : r.Calm r' := by
  obtain ⟨rfl, -⟩ | ⟨connection, current, hlookup, -, -, -, -, -, rfl⟩ :=
    claimIdentityExpiry_ok h
  · exact .same
  · split
    next => exact .stop .same hlookup
    next hstate => exact .removeStopped hlookup hstate

theorem cleanupInactiveConnections (r : ConnectionRegistry) (now : SystemTime) (timeout : Nat) :
    r.Calm (r.cleanupInactiveConnections now timeout).1 :=
  cleanupInactiveConnections_induct .same (fun _ _ _ h hlookup => .stop h hlookup) now timeout

theorem recordApplicationActivity {now : SystemTime}
    (h : r.recordApplicationActivity now id = .ok r') : r.Calm r' := by
  unfold ConnectionRegistry.recordApplicationActivity at h
  split at h
  next => cases h
  next connection hlookup =>
    cases h
    exact .touch now hlookup

end Calm

end ConnectionRegistry

/-- What a locked section can do to the registry. -/
inductive Effect (n : Node) : Section → Node → List Change → Prop where
  | calm {sec : Section} {n' : Node} {changes : List Change} (h : n.registry.Calm n'.registry)
      (hnext : n'.nextGeneration = n.nextGeneration)
      (hchanges : ∀ change ∈ changes, ∃ generation, change = .closed generation) :
      Effect n sec n' changes
  | add {checkedAt created id namespaceName groupAccepts} {connection : Connection}
      (hfresh : n.registry.lookup id = none) (hid : connection.id = id)
      (hgeneration : connection.generation = n.nextGeneration)
      (hstate : connection.state = .connected) :
      Effect n (.add checkedAt created id namespaceName connection.identity groupAccepts)
        { n with
          registry := (n.registry.addPrincipalMembershipParts connection.namespaceName id
            connection.identity).put id connection
          nextGeneration := n.nextGeneration + 1 }
        [.added n.nextGeneration connection.identity]
  | replace {id} {expectedRevision : Revision} {replacement : AuthenticatedWebSocketIdentity}
      {connection : Connection} {current : WebSocketIdentitySnapshot}
      (hlookup : n.registry.lookup id = some connection) (hstate : connection.state = .connected)
      (hidentity : connection.identity = some current)
      (hrevision : current.revision = expectedRevision) (hcurrent : current.expired n.now = false)
      (hreplacement : replacement.expired n.now = false) :
      Effect n (.reauthenticate id expectedRevision replacement)
        { n with
          registry := n.registry.replaceIdentity id connection current
            ⟨expectedRevision + 1, some replacement⟩ }
        [.replaced connection.generation (expectedRevision + 1)]

theorem enter_effect (identityIndexEnabled : Bool) (n : Node) (sec : Section) :
    Effect n sec (n.enter identityIndexEnabled sec).1 (n.enter identityIndexEnabled sec).2 := by
  fun_cases n.enter identityIndexEnabled sec with
  | case3 checkedAt created id namespaceName identity groupAccepts registry hadd =>
    obtain ⟨connection, hfresh, hid, hgeneration, -, rfl, hstate, rfl⟩ :=
      ConnectionRegistry.addConnection_ok hadd
    exact .add hfresh hid hgeneration hstate
  | case4 id => exact .calm (.remove id) rfl nofun
  | case6 id generation registry hclose => exact .calm (.closeSlowConsumer hclose) rfl (by simp)
  | case8 id registry generation expired hclose =>
    exact .calm (.requestCloseFrame hclose) rfl (by simp)
  | case10 id registry generation hmark => exact .calm (.markClosing hmark) rfl (by simp)
  | case11 id expectedRevision replacement registry revision hupdate =>
    obtain ⟨-, hother⟩ | ⟨connection, current, hlookup, hstate, hidentity, hrevision, hcurrent,
      hreplacement, hupdated, rfl⟩ := ConnectionRegistry.reauthenticate_ok hupdate
    · exact absurd rfl (hother revision)
    · cases hupdated
      rw [hlookup]
      exact .replace hlookup hstate hidentity hrevision hcurrent hreplacement
  | case12 id expectedRevision replacement registry outcome hother hreply =>
    obtain ⟨rfl, -⟩ | ⟨_, _, -, -, -, -, -, -, hupdated, -⟩ :=
      ConnectionRegistry.reauthenticate_ok hreply
    · exact .calm .same rfl nofun
    · exact absurd hupdated (hother _)
  | case14 id revision expected registry generation hclaim =>
    exact .calm (.claimIdentityExpiry hclaim) rfl (by simp)
  | case15 id revision expected registry hclaim =>
    exact .calm (.claimIdentityExpiry hclaim) rfl nofun
  | case17 now timeout => exact .calm (.cleanupInactiveConnections _ now timeout) rfl (by simp)
  | case19 now id registry hrecord => exact .calm (.recordApplicationActivity hrecord) rfl nofun
  | _ => exact .calm .same rfl nofun

end Lily.Websocket
