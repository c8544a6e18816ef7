import Lily.Collection.Membership
import Lily.Transition.Interleaving
import Lily.Websocket.Names
import Lily.Websocket.Registry

/-!
# Namespaces and rooms

The group manager has the connections of each namespace and of each of its rooms, under a lock of
its own. The namespaces are those of the application; rooms come and go with their members.

Joins and leaves hold the registry lock while they change a group, and so does an addition. A
removal does not: it takes the connection out of the registry in one section and out of its groups
in a second one.
-/

namespace Lily.Websocket

open Collection Transition

structure NamespaceGroup where
  rooms : AList (fun _ : String => Finset Uuid) := ∅
  connections : Finset Uuid := ∅

inductive GroupError where
  | namespaceNotFound (name : String)
  | invalidRoomName (maximum : Nat)
  | connectionRoomLimit (id : Uuid) (maximum : Nat)

structure GroupManager where
  namespaces : AList (fun _ : String => NamespaceGroup) := ∅

namespace GroupManager

/-- `with_namespaces`. -/
def withNamespaces (names : List String) : GroupManager :=
  ⟨names.foldl (fun namespaces name =>
    if (namespaces.lookup name).isSome then namespaces else namespaces.insert name {}) ∅⟩

variable (g : GroupManager)

variable (name : String) (id : Uuid)

def lookup : Option NamespaceGroup := g.namespaces.lookup name

def put (group : NamespaceGroup) : GroupManager :=
  ⟨g.namespaces.insert name group⟩

def addConnectionToNamespace : Except GroupError GroupManager :=
  match g.lookup name with
  | none => .error (.namespaceNotFound name)
  | some group => .ok (g.put name { group with connections := insert id group.connections })

/-- `remove_connection_from_namespace`: rooms without members go with their last one. -/
def removeConnectionFromNamespace : GroupManager :=
  match g.lookup name with
  | none => g
  | some group =>
    g.put name ⟨withdrawMember group.rooms id, group.connections.erase id⟩

def joinRoomBounded (name room : String) (id : Uuid)
    (maxRoomsPerConnection maxRoomNameLength : Nat) :
    Except GroupError GroupManager :=
  if isCanonicalRoom room maxRoomNameLength = false then
    .error (.invalidRoomName (min maxRoomNameLength maxCanonicalRoomBytes))
  else
    match g.lookup name with
    | none => .error (.namespaceNotFound name)
    | some group =>
      let alreadyJoined := (group.rooms.lookup room).any (id ∈ ·)
      if alreadyJoined = false ∧ maxRoomsPerConnection ≤ memberships group.rooms id then
        .error (.connectionRoomLimit id maxRoomsPerConnection)
      else .ok (g.put name { group with rooms := addMember group.rooms room id })

def leaveRoom (name room : String) (id : Uuid) : GroupManager :=
  match g.lookup name with
  | none => g
  | some group => g.put name { group with rooms := removeMember group.rooms room id }

end GroupManager

/-! ## The machine -/

namespace Groups

structure Config where
  identityIndexEnabled : Bool
  maxRoomsPerConnection : Nat
  maxRoomNameLength : Nat
  namespaces : List String

/-- What is under the two locks, and the address of the next transport. -/
structure Node where
  registry : ConnectionRegistry
  groups : GroupManager
  nextGeneration : Generation := 0

/-- A removal between its two sections. -/
inductive Task where
  | idle
  | removing (name : String) (id : Uuid)
  deriving DecidableEq

/-- The calls of the registry and of the groups. -/
inductive Event where
  | add (checkedAt : Instant) (created : SystemTime) (id : Uuid) (name : Option String)
      (identity : Option WebSocketIdentitySnapshot)
  | remove (id : Uuid)
  | withdraw
  | join (name : String) (id : Uuid) (room : String)
  | leave (name : String) (id : Uuid) (room : String)

inductive Action where
  | added (generation : Generation)
  | withdrawn (name : String) (id : Uuid)

namespace Node

variable (config : Config) (n : Node)

/-- `add_connection_with_control_and_identity`, in both locks. -/
def add (checkedAt : Instant) (created : SystemTime) (id : Uuid) (name : Option String)
    (identity : Option WebSocketIdentitySnapshot) : Node × List Action :=
  let group := n.groups.addConnectionToNamespace (name.getD "") id
  match n.registry.addConnection config.identityIndexEnabled checkedAt created n.nextGeneration id
      name identity group.isOk, group with
  | .ok registry, .ok groups =>
    (⟨registry, groups, n.nextGeneration + 1⟩, [.added n.nextGeneration])
  | _, _ => (n, [])

variable (name : String) (id : Uuid) (room : String)

/-- The connection that a join or a leave is for, of a namespace with a canonical name. -/
def member : Option Connection :=
  (n.registry.lookup id).filter fun connection =>
    isCanonicalNamespace name ∧ connection.namespaceName = name

def join : Node :=
  match n.member name id with
  | none => n
  | some _ =>
    match n.groups.joinRoomBounded name room id config.maxRoomsPerConnection
        config.maxRoomNameLength with
    | .error _ => n
    | .ok groups => { n with groups }

def leave : Node :=
  match n.member name id with
  | none => n
  | some _ => { n with groups := n.groups.leaveRoom name room id }

end Node

def act (config : Config) (event : Event) (n : Node) (task : Task) : Turn Node Task Action :=
  match task, event with
  | .idle, .add checkedAt created id name identity =>
    let (n, actions) := n.add config checkedAt created id name identity
    ⟨n, .idle, actions⟩
  | .idle, .remove id =>
    match n.registry.removeConnection id with
    | (registry, none) => ⟨{ n with registry }, .idle, []⟩
    | (registry, some connection) =>
      ⟨{ n with registry }, .removing connection.namespaceName id, []⟩
  | .removing name id, .withdraw =>
    ⟨{ n with groups := n.groups.removeConnectionFromNamespace name id }, .idle,
      [.withdrawn name id]⟩
  | .idle, .join name id room => ⟨n.join config name id room, .idle, []⟩
  | .idle, .leave name id room => ⟨n.leave name id room, .idle, []⟩
  | task, _ => ⟨n, task, []⟩

def memberships (config : Config) : Machine Nat Node Task Event Action where
  act _ := act config

def initial (config : Config) : World Nat Node Task Action :=
  ⟨{ registry := .new config.identityIndexEnabled
     groups := .withNamespaces config.namespaces }, fun _ => .idle, []⟩

end Groups

end Lily.Websocket
