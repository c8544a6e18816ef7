import Lily.Collection.Index
import Lily.Control.Validation

/-!
# The registry of WebSocket connections

The connections of a node by their id, and an index of the connections of each principal. Both are
under one lock, and a function here is the section under it. The transport of a connection is made
with it: its queue, its byte budget and its close slot. One number stands for the generation of all
three, since the code compares the addresses of the budgets.

A section that reads the clock reads it once.
-/

namespace Lily.Websocket

open Collection Validation

abbrev Uuid := Nat

abbrev PrincipalId := String

/-- A time of the monotonic clock. -/
abbrev Instant := Nat

abbrev SystemTime := Nat

/-- The transport of a connection, by the address of its budget. -/
abbrev Generation := Nat

abbrev Revision := Nat

/-! ## Identities -/

structure AuthenticatedWebSocketIdentity where
  principalId : PrincipalId
  expiresAt : Option Instant

def AuthenticatedWebSocketIdentity.expired (identity : AuthenticatedWebSocketIdentity)
    (now : Instant) : Bool :=
  identity.expiresAt.any (· ≤ now)

/-- An identity and its revision. The identity is absent as long as the client is anonymous. -/
structure WebSocketIdentitySnapshot where
  revision : Revision := 0
  authenticated : Option AuthenticatedWebSocketIdentity

namespace WebSocketIdentitySnapshot

variable (snapshot : WebSocketIdentitySnapshot)

def principalId : Option PrincipalId :=
  snapshot.authenticated.map AuthenticatedWebSocketIdentity.principalId

def expired (now : Instant) : Bool := snapshot.authenticated.any (·.expired now)

/-- Revisions are 64-bit numbers; there is nothing after the last one. -/
def withReplacement (replacement : AuthenticatedWebSocketIdentity) :
    Option WebSocketIdentitySnapshot :=
  if snapshot.revision + 1 < 2 ^ 64 then some ⟨snapshot.revision + 1, some replacement⟩ else none

end WebSocketIdentitySnapshot

/-! ## Connections -/

inductive ConnectionState where
  | connecting
  | connected
  | closing
  | closed
  deriving DecidableEq

/-- A connection has no identity if the application has not configured any, which is not the same
as an anonymous one. -/
structure Connection where
  id : Uuid
  generation : Generation
  namespaceName : String
  identity : Option WebSocketIdentitySnapshot
  state : ConnectionState
  lastApplicationActivityAt : SystemTime

namespace Connection

variable (connection : Connection)

def principalId : Option PrincipalId :=
  connection.identity.bind WebSocketIdentitySnapshot.principalId

def identityExpired (now : Instant) : Bool := connection.identity.any (·.expired now)

end Connection

structure PrincipalTargetKey where
  namespaceName : String
  principalId : PrincipalId
  deriving DecidableEq

inductive ConnectionError where
  | connectionNotFound (id : Uuid)
  | connectionClosed (id : Uuid)
  | backpressure (id : Uuid)
  | missingNamespace
  | identityLifecycleUnavailable
  | identityExpired
  | duplicateConnection (id : Uuid)
  | identityRevisionExhausted
  | invalidApplicationFrame
  | outboundMessageTooLarge
  | group

inductive WebSocketIdentityUpdateOutcome where
  | updated (revision : Revision)
  | stale (revision : Revision)
  | alreadyClosing

inductive IdentityExpiryClaim where
  | superseded
  | closing (generation : Generation)

/-- The connections and, where identities are indexed, those of each principal. -/
structure ConnectionRegistry where
  connections : AList (fun _ : Uuid => Connection) := ∅
  principalIndex : Option (AList fun _ : PrincipalTargetKey => Finset Uuid)

namespace ConnectionRegistry

def new (identityIndexEnabled : Bool) : ConnectionRegistry :=
  { principalIndex := if identityIndexEnabled then some ∅ else none }

variable (r : ConnectionRegistry)

variable (now : Instant) (id : Uuid) (expectedRevision : Revision)
  (replacement : AuthenticatedWebSocketIdentity)

def lookup : Option Connection := r.connections.lookup id

/-- The entry of a connection is written. -/
def put (connection : Connection) : ConnectionRegistry :=
  { r with connections := r.connections.insert id connection }

/-- The index entry that an identity belongs to is changed. An anonymous connection has none. -/
def changeMembership
    (change : AList (fun _ : PrincipalTargetKey => Finset Uuid) → PrincipalTargetKey → Uuid →
      AList fun _ : PrincipalTargetKey => Finset Uuid)
    (namespaceName : String) (id : Uuid) (identity : Option WebSocketIdentitySnapshot) :
    ConnectionRegistry :=
  match identity.bind WebSocketIdentitySnapshot.principalId with
  | none => r
  | some principalId =>
    { r with principalIndex := r.principalIndex.map (change · ⟨namespaceName, principalId⟩ id) }

def removePrincipalMembershipParts : String → Uuid → Option WebSocketIdentitySnapshot →
    ConnectionRegistry :=
  r.changeMembership removeMember

def addPrincipalMembershipParts : String → Uuid → Option WebSocketIdentitySnapshot →
    ConnectionRegistry :=
  r.changeMembership addMember

/-! ## Sections -/

/-- `add_connection_with_control_and_identity`. The expiry was checked before the lock was taken.
The group manager refuses a namespace that it does not know. -/
def addConnection (identityIndexEnabled : Bool) (checkedAt : Instant) (created : SystemTime)
    (generation : Generation) (id : Uuid) (namespaceName : Option String)
    (identity : Option WebSocketIdentitySnapshot) (groupAccepts : Bool) :
    Except ConnectionError ConnectionRegistry :=
  match namespaceName with
  | none => .error .missingNamespace
  | some namespaceName => do
    ensure (identity.isSome = identityIndexEnabled) .identityLifecycleUnavailable
    ensure (identity.any (·.expired checkedAt) = false) .identityExpired
    ensure (r.lookup id = none) (.duplicateConnection id)
    ensure (groupAccepts = true) .group
    return (r.addPrincipalMembershipParts namespaceName id identity).put id
      ⟨id, generation, namespaceName, identity, .connected, created⟩

/-- `remove_connection`. The budget of the connection is closed after the section. -/
def removeConnection : ConnectionRegistry × Option Connection :=
  match r.lookup id with
  | none => (r, none)
  | some connection =>
    ({ r with connections := r.connections.erase id }.removePrincipalMembershipParts
      connection.namespaceName connection.id connection.identity, some connection)

/-- The connection leaves the index and is closing. -/
def stop (connection : Connection) : ConnectionRegistry :=
  (r.removePrincipalMembershipParts connection.namespaceName id connection.identity).put id
    { connection with state := .closing }

/-- `close_slow_consumer`, for the generation that the admission has waited for. -/
def closeSlowConsumer (generation : Generation) : Option ConnectionRegistry :=
  match r.lookup id with
  | none => none
  | some connection =>
    if connection.generation ≠ generation ∨ connection.state ≠ .connected then none
    else some (r.stop id connection)

/-- `request_close_frame` up to the request. An identity that has expired decides the close
frame. -/
def requestCloseFrame : Except ConnectionError (ConnectionRegistry × Generation × Bool) :=
  match r.lookup id with
  | none => .error (.connectionNotFound id)
  | some connection =>
    .ok (if connection.state = .connected then r.stop id connection else r,
      connection.generation, connection.identityExpired now)

/-- `mark_closing`, with the generation whose budget it closes. -/
def markClosing : Except ConnectionError (ConnectionRegistry × Option Generation) :=
  match r.lookup id with
  | none => .error (.connectionNotFound id)
  | some connection =>
    if connection.state = .closing ∨ connection.state = .closed then .ok (r, none)
    else .ok (r.stop id connection, some connection.generation)

/-- The identity of a connection is published in place of the current one. -/
def replaceIdentity (connection : Connection)
    (current replacement : WebSocketIdentitySnapshot) : ConnectionRegistry :=
  ((r.removePrincipalMembershipParts connection.namespaceName id (some current)).put id
    { connection with identity := some replacement }).addPrincipalMembershipParts
      connection.namespaceName id (some replacement)

def reauthenticate : Except ConnectionError (ConnectionRegistry × WebSocketIdentityUpdateOutcome) :=
  match r.lookup id with
  | none => .error (.connectionNotFound id)
  | some connection =>
    match connection.identity with
    | none => .error .identityLifecycleUnavailable
    | some current =>
      if connection.state ≠ .connected then .ok (r, .alreadyClosing)
      else if current.revision ≠ expectedRevision then .ok (r, .stale current.revision)
      else if current.expired now then .error .identityExpired
      else if replacement.expired now then .error .identityExpired
      else
        match current.withReplacement replacement with
        | none => .error .identityRevisionExhausted
        | some next =>
          .ok (r.replaceIdentity id connection current next, .updated next.revision)

/-- `claim_identity_expiry_for_generation` up to the request for the close frame. A claim that names
no generation is made for the connection that is registered. -/
def claimIdentityExpiry (revision : Revision) (expected : Option Generation) :
    Except ConnectionError (ConnectionRegistry × IdentityExpiryClaim) :=
  match r.lookup id with
  | none => .error (if expected.isSome then .connectionClosed id else .connectionNotFound id)
  | some connection =>
    if expected.any (· ≠ connection.generation) then .error (.connectionClosed id)
    else
      match connection.identity with
      | none => .error .identityLifecycleUnavailable
      | some current =>
        if ¬(current.revision = revision ∧ current.expired now) then .ok (r, .superseded)
        else if connection.state = .connected then
          .ok (r.stop id connection, .closing connection.generation)
        else
          .ok (r.removePrincipalMembershipParts connection.namespaceName id (some current),
            .closing connection.generation)

/-- The connections without an application message for longer than the timeout. A message from
after `now` does not count as one without. -/
def staleIds (now : SystemTime) (timeout : Nat) : List Uuid :=
  r.connections.entries.filterMap fun entry =>
    if entry.2.state = .connected ∧ entry.2.lastApplicationActivityAt ≤ now ∧
        timeout < now - entry.2.lastApplicationActivityAt then some entry.1
    else none

/-- One stale connection is stopped. -/
def claimStale (claim : ConnectionRegistry × List Generation) (id : Uuid) :
    ConnectionRegistry × List Generation :=
  match claim.1.lookup id with
  | none => claim
  | some connection => (claim.1.stop id connection, claim.2 ++ [connection.generation])

/-- `cleanup_inactive_connections` up to the close requests, which are made after the section of the
generations it returns. -/
def cleanupInactiveConnections (now : SystemTime) (timeout : Nat) :
    ConnectionRegistry × List Generation :=
  (r.staleIds now timeout).foldl claimStale (r, [])

def recordApplicationActivity (now : SystemTime) (id : Uuid) :
    Except ConnectionError ConnectionRegistry :=
  match r.lookup id with
  | none => .error (.connectionNotFound id)
  | some connection => .ok (r.put id { connection with lastApplicationActivityAt := now })

end ConnectionRegistry

end Lily.Websocket
