import Lily.Websocket.Groups
import Lily.Websocket.Sections

/-!
# Groups and the registry

Between the two sections of a removal a connection is in its groups and not in the registry. When no
removal is under way, whatever is in a group is registered in its namespace.
-/

namespace Lily.Websocket

open Collection Transition

namespace GroupManager

variable {g g' : GroupManager} {name name' room room' : String} {id id' : Uuid} {max : Nat}

def Listed (g : GroupManager) (name : String) (id : Uuid) : Prop :=
  ∃ group, g.lookup name = some group ∧ id ∈ group.connections

def Joined (g : GroupManager) (name room : String) (id : Uuid) : Prop :=
  ∃ group members, g.lookup name = some group ∧ group.rooms.lookup room = some members ∧
    id ∈ members

/-- No room is empty, and no connection is in too many. -/
def Tidy (g : GroupManager) (max : Nat) : Prop :=
  ∀ name group, g.lookup name = some group →
    (∀ room, group.rooms.lookup room ≠ some ∅) ∧ ∀ id, memberships group.rooms id ≤ max

theorem put_lookup {group : NamespaceGroup} :
    (g.put name group).lookup name' = if name' = name then some group else g.lookup name' :=
  lookup_insert_ite

theorem rooms_indexes {rooms : AList fun _ : String => Finset Uuid}
    (h : ∀ room, rooms.lookup room ≠ some ∅) :
    Indexes rooms fun room id => ∃ members, rooms.lookup room = some members ∧ id ∈ members :=
  ⟨fun _ _ => Iff.rfl, h⟩

theorem Tidy.put {group : NamespaceGroup} (h : g.Tidy max)
    (hrooms : ∀ room, group.rooms.lookup room ≠ some ∅)
    (hlimit : ∀ id, memberships group.rooms id ≤ max) : (g.put name group).Tidy max := by
  intro name' found hfound
  rw [put_lookup] at hfound
  split at hfound
  next =>
    cases hfound
    exact ⟨hrooms, hlimit⟩
  next => exact h name' found hfound

/-- What becomes of the groups, in terms of what they were. -/
structure Becomes (g g' : GroupManager) (max : Nat) (listed : String → Uuid → Prop)
    (joined : String → String → Uuid → Prop) : Prop where
  listed : ∀ name id, g'.Listed name id ↔ listed name id
  joined : ∀ name room id, g'.Joined name room id → joined name room id
  tidy : g.Tidy max → g'.Tidy max
  known : ∀ name, (g'.lookup name).isSome = (g.lookup name).isSome

theorem Becomes.refl (g : GroupManager) (max : Nat) : g.Becomes g max g.Listed g.Joined :=
  ⟨fun _ _ => Iff.rfl, fun _ _ _ => id, id, fun _ => rfl⟩

theorem Becomes.put {group group' : NamespaceGroup} {listed : String → Uuid → Prop}
    {joined : String → String → Uuid → Prop} (hlookup : g.lookup name = some group)
    (hlisted : ∀ id, listed name id ↔ id ∈ group'.connections)
    (hjoined : ∀ room id, (∃ members, group'.rooms.lookup room = some members ∧ id ∈ members) →
      joined name room id)
    (hothers : ∀ name', name' ≠ name → ∀ id, (listed name' id ↔ g.Listed name' id) ∧
      ∀ room, g.Joined name' room id → joined name' room id)
    (htidy : g.Tidy max → (∀ room, group'.rooms.lookup room ≠ some ∅) ∧
      ∀ id, memberships group'.rooms id ≤ max) :
    g.Becomes (g.put name group') max listed joined where
  listed name' id := by
    unfold Listed
    rw [put_lookup]
    obtain rfl | hname := eq_or_ne name' name
    · simp [hlisted]
    · simp [hname, (hothers name' hname id).1, Listed]
  joined name' room id := by
    rintro ⟨found, members, hfound, hmem⟩
    rw [put_lookup] at hfound
    split at hfound
    next hname =>
      cases hfound
      exact hname ▸ hjoined room id ⟨members, hmem⟩
    next hname => exact (hothers name' hname id).2 room ⟨found, members, hfound, hmem⟩
  tidy h := h.put (htidy h).1 (htidy h).2
  known name' := by
    rw [put_lookup]
    split
    next hname => simp [hname, hlookup]
    next => rfl

theorem addConnectionToNamespace_becomes (max : Nat)
    (h : g.addConnectionToNamespace name id = .ok g') :
    g.Becomes g' max (fun name' id' => g.Listed name' id' ∨ name' = name ∧ id' = id)
      g.Joined := by
  unfold addConnectionToNamespace at h
  split at h
  next => cases h
  next group hlookup =>
    cases h
    refine .put hlookup (fun id' => ?_) (fun room id' ⟨members, hmem⟩ => ?_)
      (fun name' hname id' => ⟨?_, fun _ hmem => hmem⟩) fun htidy => htidy name group hlookup
    · simp [Listed, hlookup, or_comm]
    · exact ⟨group, members, hlookup, hmem⟩
    · simp [hname]

theorem removeConnectionFromNamespace_becomes (name : String) (id : Uuid) (htidy : g.Tidy max) :
    g.Becomes (g.removeConnectionFromNamespace name id) max
      (fun name' id' => g.Listed name' id' ∧ ¬(name' = name ∧ id' = id))
      (fun name' room id' => g.Joined name' room id' ∧ ¬(name' = name ∧ id' = id)) := by
  unfold removeConnectionFromNamespace
  split
  next hnone =>
    refine ⟨fun name' id' => (and_iff_left_of_imp ?_).symm, fun name' room id' hmem => ⟨hmem, ?_⟩,
      fun h => h, fun _ => rfl⟩
    · rintro ⟨group, hlookup, -⟩ ⟨rfl, -⟩
      cases hnone.symm.trans hlookup
    · rintro ⟨rfl, -⟩
      obtain ⟨group, members, hlookup, -⟩ := hmem
      cases hnone.symm.trans hlookup
  next group hlookup =>
    obtain ⟨hrooms, hlimit⟩ := htidy name group hlookup
    have hindexes := (rooms_indexes hrooms).withdrawMember (a := id) fun _ _ => Iff.rfl
    refine .put hlookup (fun id' => ?_) (fun room id' hmem => ?_) (fun name' hname id' => ?_)
      fun _ => ⟨hindexes.nonempty,
        fun id' => (memberships_withdrawMember_le id').trans (hlimit id')⟩
    · simp [Listed, hlookup, and_comm]
    · obtain ⟨⟨members, hmem'⟩, hne⟩ := (hindexes.members room id').mp hmem
      exact ⟨⟨group, members, hlookup, hmem'⟩, fun heq => hne heq.2⟩
    · simp [hname]

theorem joinRoomBounded_becomes {maxRoomNameLength : Nat} (htidy : g.Tidy max)
    (h : g.joinRoomBounded name room id max maxRoomNameLength = .ok g') :
    g.Becomes g' max g.Listed
      (fun name' room' id' => g.Joined name' room' id' ∨ name' = name ∧ id' = id) := by
  revert h
  fun_cases g.joinRoomBounded name room id max maxRoomNameLength with
  | case4 _ group hlookup alreadyJoined hroom =>
    rintro ⟨⟩
    subst alreadyJoined
    obtain ⟨hrooms, hlimit⟩ := htidy name group hlookup
    have hindexes := (rooms_indexes hrooms).addMember (k := room) (a := id) fun _ _ => Iff.rfl
    refine .put hlookup (fun id' => ?_) (fun room' id' hmem => ?_)
      (fun name' hname id' => ⟨Iff.rfl, fun _ => .inl⟩) fun _ =>
      ⟨hindexes.nonempty, fun id' => ?_⟩
    · simp [Listed, hlookup]
    · obtain ⟨members, hmem'⟩ | ⟨-, heq⟩ := (hindexes.members room' id').mp hmem
      · exact .inl ⟨group, members, hlookup, hmem'⟩
      · exact .inr ⟨rfl, heq⟩
    · rw [memberships_addMember]
      split
      next hnew =>
        -- The room is a new one for the connection, so it has a room left.
        have hfree : ¬max ≤ memberships group.rooms id := by
          intro hfull
          refine hroom ⟨?_, hfull⟩
          cases hmembers : group.rooms.lookup room with
          | none => rfl
          | some members => simpa using hnew.2 members hmembers
        rw [hnew.1]
        omega
      next => exact hlimit id'
  | _ => rintro ⟨⟩

theorem leaveRoom_becomes (name room : String) (id : Uuid) (htidy : g.Tidy max) :
    g.Becomes (g.leaveRoom name room id) max g.Listed g.Joined := by
  unfold leaveRoom
  split
  next => exact .refl g max
  next group hlookup =>
    obtain ⟨hrooms, hlimit⟩ := htidy name group hlookup
    have hindexes := (rooms_indexes hrooms).removeMember (k := room) (a := id) fun _ _ => Iff.rfl
    refine .put hlookup (fun id' => ?_) (fun room' id' hmem => ?_)
      (fun name' hname id' => ⟨Iff.rfl, fun _ hmem => hmem⟩)
      fun _ => ⟨hindexes.nonempty, fun id' => (memberships_removeMember_le id').trans (hlimit id')⟩
    · simp [Listed, hlookup]
    · obtain ⟨⟨members, hmem'⟩, -⟩ := (hindexes.members room' id').mp hmem
      exact ⟨group, members, hlookup, hmem'⟩

end GroupManager

namespace Groups

variable {config : Config}

/-! ## What the moves do -/

/-- What a move can do to the node and to its task. -/
inductive Effect (config : Config) (n : Node) : Task → Node → Task → List Action → Prop where
  | stay {task : Task} : Effect config n task n task []
  | add {n' : Node} {id : Uuid} {connection : Connection}
      (hfresh : n.registry.lookup id = none)
      (hregistry : ∀ id', n'.registry.lookup id' =
        if id' = id then some connection else n.registry.lookup id')
      (hgroups : n.groups.Becomes n'.groups config.maxRoomsPerConnection
        (fun name id' => n.groups.Listed name id' ∨ name = connection.namespaceName ∧ id' = id)
        n.groups.Joined) :
      Effect config n .idle n' .idle [.added connection.generation]
  | remove {registry : ConnectionRegistry} {id : Uuid} {connection : Connection}
      (hlookup : n.registry.lookup id = some connection)
      (hregistry : ∀ id', registry.lookup id' = if id' = id then none else n.registry.lookup id') :
      Effect config n .idle { n with registry } (.removing connection.namespaceName id) []
  | withdraw (name : String) (id : Uuid) :
      Effect config n (.removing name id)
        { n with groups := n.groups.removeConnectionFromNamespace name id } .idle
        [.withdrawn name id]
  | regroup {groups : GroupManager} {name : String} {id : Uuid} {connection : Connection}
      (hlookup : n.registry.lookup id = some connection)
      (hname : connection.namespaceName = name)
      (hgroups : n.groups.Becomes groups config.maxRoomsPerConnection n.groups.Listed
        fun name' room id' => n.groups.Joined name' room id' ∨ name' = name ∧ id' = id) :
      Effect config n .idle { n with groups } .idle []

theorem Node.member_some {n : Node} {name : String} {id : Uuid} {connection : Connection}
    (h : n.member name id = some connection) :
    n.registry.lookup id = some connection ∧ connection.namespaceName = name := by
  obtain ⟨hlookup, haccepted⟩ := Option.filter_eq_some_iff.mp h
  rw [decide_eq_true_eq] at haccepted
  exact ⟨hlookup, haccepted.2⟩

theorem Node.add_effect (n : Node) (checkedAt : Instant) (created : SystemTime) (id : Uuid)
    (name : Option String) (identity : Option WebSocketIdentitySnapshot) :
    Effect config n .idle (n.add config checkedAt created id name identity).1 .idle
      (n.add config checkedAt created id name identity).2 := by
  unfold Node.add
  dsimp only
  split
  next registry groups hregistry hgroups =>
    obtain ⟨connection, hfresh, -, hgeneration, rfl, -, -, rfl⟩ :=
      ConnectionRegistry.addConnection_ok hregistry
    rw [← hgeneration]
    refine .add hfresh (fun id' => ?_) (GroupManager.addConnectionToNamespace_becomes _ hgroups)
    simp [ConnectionRegistry.put_lookup]
  next => exact .stay

/-- Every move has one of the effects. -/
theorem act_effect (config : Config) (event : Event) (n : Node) (task : Task)
    (htidy : n.groups.Tidy config.maxRoomsPerConnection) :
    Effect config n task (act config event n task).shared (act config event n task).own
      (act config event n task).emitted := by
  unfold act
  split
  next checkedAt created id name identity => exact n.add_effect checkedAt created id name identity
  next id =>
    cases hlookup : n.registry.lookup id with
    | none =>
      have hsame : n.registry.removeConnection id = (n.registry, none) := by
        simp [ConnectionRegistry.removeConnection, hlookup]
      rw [hsame]
      exact .stay
    | some connection =>
      have hremoved : n.registry.removeConnection id =
          ((n.registry.removeConnection id).1, some connection) := by
        simp [ConnectionRegistry.removeConnection, hlookup]
      rw [hremoved]
      refine .remove hlookup fun id' => ?_
      simp only [ConnectionRegistry.removeConnection, hlookup,
        ConnectionRegistry.removePrincipalMembershipParts_lookup]
      exact lookup_erase_ite
  next name id => exact .withdraw name id
  next name id room =>
    dsimp only [Node.join]
    split
    next => exact .stay
    next connection hmember =>
      obtain ⟨hlookup, hname⟩ := Node.member_some hmember
      split
      next => exact .stay
      next groups hjoin =>
        exact .regroup hlookup hname (GroupManager.joinRoomBounded_becomes htidy hjoin)
  next name id room =>
    dsimp only [Node.leave]
    split
    next => exact .stay
    next connection hmember =>
      obtain ⟨hlookup, hname⟩ := Node.member_some hmember
      have hleft := GroupManager.leaveRoom_becomes name room id htidy
      exact .regroup hlookup hname { hleft with joined := fun _ _ _ => .inl ∘ hleft.joined _ _ _ }
  next => exact .stay

/-! ## Runs -/

/-- The connection is registered in the namespace, or its removal has not yet reached the groups. -/
def Owned (w : World Nat Node Task Action) (name : String) (id : Uuid) : Prop :=
  (∃ connection, w.shared.registry.lookup id = some connection ∧
    connection.namespaceName = name) ∨ ∃ i, w.locals i = .removing name id

/-- Since its addition the connection is in the index, unless a removal has passed through the
groups under its name. -/
def Indexed (w : World Nat Node Task Action) (id : Uuid) (connection : Connection) : Prop :=
  ∃ before after, w.actions = before ++ .added connection.generation :: after ∧
    (.withdrawn connection.namespaceName id ∉ after →
      w.shared.groups.Listed connection.namespaceName id)

/-- Every membership belongs to a connection that the registry has. -/
structure Sound (config : Config) (w : World Nat Node Task Action) : Prop where
  tidy : w.shared.groups.Tidy config.maxRoomsPerConnection
  listed : ∀ name id, w.shared.groups.Listed name id → Owned w name id
  joined : ∀ name room id, w.shared.groups.Joined name room id → Owned w name id
  indexed : ∀ id connection, w.shared.registry.lookup id = some connection →
    Indexed w id connection
  known : ∀ name, (w.shared.groups.lookup name).isSome = true ↔ name ∈ config.namespaces

/-- A move with the state it leaves. -/
structure Follows (config : Config) (w w' : World Nat Node Task Action) (i : Nat)
    (added : List Action) : Prop where
  effect : Effect config w.shared (w.locals i) w'.shared (w'.locals i) added
  others : ∀ j, j ≠ i → w'.locals j = w.locals j
  actions : w'.actions = w.actions ++ added

variable {w w' : World Nat Node Task Action} {i : Nat} {added : List Action}

variable {name : String} {id : Uuid}

/-- What the groups become: whoever is still a member was one, or is registered. -/
theorem Follows.becomes (h : Follows config w w' i added)
    (htidy : w.shared.groups.Tidy config.maxRoomsPerConnection) : ∃ listed joined,
      w.shared.groups.Becomes w'.shared.groups config.maxRoomsPerConnection listed joined ∧
      (∀ name id, .withdrawn name id ∉ added → w.shared.groups.Listed name id → listed name id) ∧
      (∀ name id, listed name id →
        w.shared.groups.Listed name id ∧ .withdrawn name id ∉ added ∨ Owned w' name id) ∧
      ∀ name room id, joined name room id →
        w.shared.groups.Joined name room id ∧ .withdrawn name id ∉ added ∨ Owned w' name id := by
  have heffect := h.effect
  generalize w.locals i = task at heffect
  generalize w'.locals i = task' at heffect
  generalize hshared : w'.shared = n' at heffect ⊢
  cases heffect with
  | stay | remove =>
    exact ⟨_, _, .refl _ _, fun _ _ _ => id, fun _ _ hmem => .inl ⟨hmem, List.not_mem_nil⟩,
      fun _ _ _ hmem => .inl ⟨hmem, List.not_mem_nil⟩⟩
  | add _ hregistry hgroups =>
    refine ⟨_, _, hgroups, fun _ _ _ => .inl, ?_, fun _ _ _ hmem => .inl ⟨hmem, by simp⟩⟩
    rintro name id (hmem | ⟨rfl, rfl⟩)
    · exact .inl ⟨hmem, by simp⟩
    · exact .inr (.inl ⟨_, by rw [hshared, hregistry, if_pos rfl], rfl⟩)
  | withdraw oldName oldId =>
    have hkept : ∀ name id, Action.withdrawn name id ∉ [.withdrawn oldName oldId] ↔
        ¬(name = oldName ∧ id = oldId) := by simp
    simp only [hkept]
    exact ⟨_, _, GroupManager.removeConnectionFromNamespace_becomes oldName oldId htidy,
      fun _ _ hne hmem => ⟨hmem, hne⟩, fun _ _ => .inl, fun _ _ _ => .inl⟩
  | @regroup _ _ _ connection hlookup hname hgroups =>
    refine ⟨_, _, hgroups, fun _ _ _ => id, fun _ _ hmem => .inl ⟨hmem, List.not_mem_nil⟩, ?_⟩
    rintro name' room id' (hmem | ⟨rfl, rfl⟩)
    · exact .inl ⟨hmem, List.not_mem_nil⟩
    · exact .inr (.inl ⟨connection, by rw [hshared]; exact hlookup, hname⟩)

variable {n n' : Node} {task task' : Task} {connection : Connection}

theorem Effect.unregister (h : Effect config n task n' task' added)
    (hlookup : n.registry.lookup id = some connection) :
    n'.registry.lookup id = some connection ∨ task' = .removing connection.namespaceName id := by
  cases h with
  | stay | withdraw | regroup => exact .inl hlookup
  | add hfresh hregistry =>
    left
    rw [hregistry, if_neg, hlookup]
    rintro rfl
    cases hfresh.symm.trans hlookup
  | @remove registry oldId _ hold hregistry =>
    obtain rfl | hid := eq_or_ne id oldId
    · cases hold.symm.trans hlookup
      exact .inr rfl
    · left
      rw [hregistry, if_neg hid, hlookup]

theorem Effect.register (h : Effect config n task n' task' added)
    (hlookup : n'.registry.lookup id = some connection) :
    n.registry.lookup id = some connection ∨
      added = [.added connection.generation] ∧ n'.groups.Listed connection.namespaceName id := by
  cases h with
  | stay | withdraw | regroup => exact .inl hlookup
  | add _ hregistry hgroups =>
    rw [hregistry] at hlookup
    split at hlookup
    next heq =>
      cases hlookup
      exact .inr ⟨rfl, (hgroups.listed _ _).mpr (.inr ⟨rfl, heq⟩)⟩
    next => exact .inl hlookup
  | remove _ hregistry =>
    rw [hregistry] at hlookup
    split at hlookup
    next => cases hlookup
    next => exact .inl hlookup

/-- What has an owner has one until its removal passes through the groups. -/
theorem Owned.follow (h : Owned w name id) (hfollows : Follows config w w' i added)
    (hkeep : .withdrawn name id ∉ added) : Owned w' name id := by
  rcases h with ⟨connection, hlookup, rfl⟩ | ⟨j, hj⟩
  · rcases hfollows.effect.unregister hlookup with hlookup' | hremoving
    · exact .inl ⟨connection, hlookup', rfl⟩
    · exact .inr ⟨i, hremoving⟩
  · refine .inr ⟨j, ?_⟩
    obtain rfl | hij := eq_or_ne j i
    · have heffect := hfollows.effect
      rw [hj] at heffect
      generalize w'.shared = n' at heffect
      generalize w'.locals j = task' at heffect ⊢
      cases heffect with
      | stay => rfl
      | withdraw => exact absurd (List.mem_singleton_self _) hkeep
    · rw [hfollows.others j hij, hj]

theorem Sound.follow (h : Sound config w) (hfollows : Follows config w w' i added) :
    Sound config w' := by
  obtain ⟨listed, joined, hgroups, hkept, hlisted, hjoined⟩ := hfollows.becomes h.tidy
  constructor
  case tidy => exact hgroups.tidy h.tidy
  case listed =>
    intro name id hmem
    rcases hlisted name id ((hgroups.listed name id).mp hmem) with ⟨hold, hkeep⟩ | howned
    · exact (h.listed name id hold).follow hfollows hkeep
    · exact howned
  case joined =>
    intro name room id hmem
    rcases hjoined name room id (hgroups.joined name room id hmem) with ⟨hold, hkeep⟩ | howned
    · exact (h.joined name room id hold).follow hfollows hkeep
    · exact howned
  case indexed =>
    intro id connection hlookup
    rcases hfollows.effect.register hlookup with hold | ⟨rfl, hmem⟩
    · obtain ⟨before, after, heq, hafter⟩ := h.indexed id connection hold
      refine ⟨before, after ++ added, by simp [hfollows.actions, heq], fun hmem => ?_⟩
      rw [List.mem_append, not_or] at hmem
      exact (hgroups.listed _ _).mpr (hkept _ _ hmem.2 (hafter hmem.1))
    · exact ⟨w.actions, [], hfollows.actions, fun _ => hmem⟩
  case known =>
    intro name
    rw [hgroups.known]
    exact h.known name

theorem withNamespaces_lookup (names : List String) (name : String) :
    (GroupManager.withNamespaces names).lookup name = if name ∈ names then some {} else none := by
  have hfold (names : List String) (namespaces : AList fun _ : String => NamespaceGroup) :
      (names.foldl (fun namespaces name => if (namespaces.lookup name).isSome then namespaces
        else namespaces.insert name {}) namespaces).lookup name =
        (namespaces.lookup name).or (if name ∈ names then some {} else none) := by
    induction names generalizing namespaces with
    | nil => simp
    | cons first rest ih =>
      rw [List.foldl_cons, ih]
      obtain rfl | heq := eq_or_ne name first
      · cases hlookup : namespaces.lookup name with
        | none => simp
        | some group => simp [hlookup]
      · split <;> simp [heq]
  exact hfold names ∅

theorem initial_lookup {group : NamespaceGroup}
    (h : (initial config).shared.groups.lookup name = some group) : group = {} := by
  rw [initial, withNamespaces_lookup] at h
  split at h
  next => exact (Option.some.inj h).symm
  next => cases h

theorem Sound.initial (config : Config) : Sound config (initial config) where
  tidy name group hlookup := by
    cases initial_lookup hlookup
    exact ⟨fun room => by simp, fun id => Nat.zero_le _⟩
  listed name id hmem := by
    obtain ⟨group, hlookup, hid⟩ := hmem
    cases initial_lookup hlookup
    cases hid
  joined name room id hmem := by
    obtain ⟨group, members, hlookup, hroom, -⟩ := hmem
    cases initial_lookup hlookup
    cases hroom
  indexed := nofun
  known name := by simp [Groups.initial, withNamespaces_lookup]

theorem Sound.run (config : Config) (moves : List (Nat × Event)) :
    Sound config ((memberships config).run (Groups.initial config) moves) := by
  refine (memberships config).run_induct (P := Sound config) (.initial config)
    (fun w i event h => ?_) moves
  have hfollows : Follows config w ((memberships config).step w (i, event)) i
      (act config event w.shared (w.locals i)).emitted := by
    refine ⟨?_, fun j hj => (memberships config).step_locals_other w i j event hj, ?_⟩
    · rw [(memberships config).step_locals_self]
      exact act_effect config event w.shared (w.locals i) h.tidy
    · exact (memberships config).step_actions w i event
  exact h.follow hfollows

/-- The groups agree with the registry. -/
structure Matches (config : Config) (w : World Nat Node Task Action) : Prop where
  /-- What is in the index of a namespace is registered there. -/
  listed : ∀ name id, w.shared.groups.Listed name id →
    ∃ connection, w.shared.registry.lookup id = some connection ∧ connection.namespaceName = name
  /-- What is registered is in the index, if no removal of an earlier connection of that id and
  namespace came to the groups after the connection was added. -/
  indexed : ∀ id connection, w.shared.registry.lookup id = some connection →
    (∀ before after, w.actions = before ++ .added connection.generation :: after →
      .withdrawn connection.namespaceName id ∉ after) →
    w.shared.groups.Listed connection.namespaceName id
  joined : ∀ name room id, w.shared.groups.Joined name room id →
    ∃ connection, w.shared.registry.lookup id = some connection ∧ connection.namespaceName = name
  nonempty : ∀ name group room, w.shared.groups.lookup name = some group →
    group.rooms.lookup room ≠ some ∅
  limit : ∀ name group id, w.shared.groups.lookup name = some group →
    Collection.memberships group.rooms id ≤ config.maxRoomsPerConnection
  namespaces : ∀ name, (w.shared.groups.lookup name).isSome = true ↔ name ∈ config.namespaces

theorem groups_match_registry (config : Config) (moves : List (Nat × Event))
    (hquiet : ∀ i, ((memberships config).run (initial config) moves).locals i = .idle) :
    Matches config ((memberships config).run (initial config) moves) := by
  have h := Sound.run config moves
  have howned : ∀ name id, Owned ((memberships config).run (initial config) moves) name id →
      ∃ connection, ((memberships config).run (initial config) moves).shared.registry.lookup id =
        some connection ∧ connection.namespaceName = name := by
    rintro name id (hregistered | ⟨i, hremoving⟩)
    · exact hregistered
    · cases (hquiet i).symm.trans hremoving
  exact {
    listed := fun name id hmem => howned name id (h.listed name id hmem)
    indexed := by
      intro id connection hlookup hcurrent
      obtain ⟨before, after, heq, hafter⟩ := h.indexed id connection hlookup
      exact hafter (hcurrent before after heq)
    joined := fun name room id hmem => howned name id (h.joined name room id hmem)
    nonempty := fun name group room hlookup => (h.tidy name group hlookup).1 room
    limit := fun name group id hlookup => (h.tidy name group hlookup).2 id
    namespaces := h.known }

/-- Two connections of one namespace, of which one joins a room and the other is removed. -/
def visits : List (Nat × Event) :=
  [(0, .add 0 0 7 (some "chat") none), (0, .add 0 0 8 (some "chat") none),
    (0, .join "chat" 7 "lobby"), (0, .remove 8), (0, .withdraw)]

theorem visits_match :
    Matches ⟨false, 4, 64, ["chat"]⟩
      ((memberships ⟨false, 4, 64, ["chat"]⟩).run (initial ⟨false, 4, 64, ["chat"]⟩) visits) := by
  refine groups_match_registry _ visits fun i => ?_
  obtain rfl | hi := eq_or_ne i 0
  · decide
  · refine (memberships _).run_locals_idle (initial _) ?_
    simpa [visits] using hi

/-- The namespace of an application stays when its last connection has gone. -/
theorem empty_namespace_kept :
    let w := (memberships ⟨false, 4, 64, ["chat"]⟩).run (initial ⟨false, 4, 64, ["chat"]⟩)
      [(0, .add 0 0 7 (some "chat") none), (0, .remove 7), (0, .withdraw)]
    (∀ i, w.locals i = .idle) ∧ (w.shared.registry.lookup 7).isNone ∧
      (w.shared.groups.lookup "chat").map NamespaceGroup.connections = some ∅ ∧
      (w.shared.groups.lookup "chat").map (·.rooms.entries) = some [] := by
  refine ⟨fun i => ?_, by decide⟩
  obtain rfl | hi := eq_or_ne i 0
  · decide
  · refine (memberships _).run_locals_idle (initial _) ?_
    simpa using hi

end Groups

end Lily.Websocket
