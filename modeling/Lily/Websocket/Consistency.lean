import Lily.Transition.Interleaving
import Lily.Websocket.Sections

/-!
# The registry along runs

Sections follow each other in any order, and an id may be used again after its connection has been
removed. Whenever the lock is free the index agrees with the connections, and the revision of an
identity is the number of the times that it was replaced.
-/

namespace Lily.Websocket.Lock

open Transition ConnectionRegistry

variable (identityIndexEnabled : Bool) (w : World Nat Node Unit Change) (i : Nat) (sec : Section)

/-- Sections follow each other in any order. -/
def sections : Machine Nat Node Unit Section Change where
  act _ sec n _ :=
    ⟨(n.enter identityIndexEnabled sec).1, (), (n.enter identityIndexEnabled sec).2⟩

def start : World Nat Node Unit Change :=
  ⟨{ registry := .new identityIndexEnabled }, fun _ => (), []⟩

def replaces (generation : Generation) : Change → Bool
  | .replaced generation' _ => generation' = generation
  | _ => false

def changes : List Change := w.log.map Prod.snd

theorem changes_step : changes ((sections identityIndexEnabled).step w (i, sec)) =
      changes w ++ (w.shared.enter identityIndexEnabled sec).2 := by
  simp [changes, sections, Function.comp_def]

/-- The invariant of the runs. -/
structure Sound (identityIndexEnabled : Bool) (n : Node) (history : List Change) : Prop where
  enabled : n.registry.principalIndex.isSome = identityIndexEnabled
  stores : n.registry.Stores n.registry.Member
  ids : ∀ id connection, n.registry.lookup id = some connection → connection.id = id
  old : ∀ id connection, n.registry.lookup id = some connection →
    connection.generation < n.nextGeneration
  distinct : ∀ id id' connection connection', n.registry.lookup id = some connection →
    n.registry.lookup id' = some connection' → connection.generation = connection'.generation →
      id = id'
  replaced : ∀ generation revision, Change.replaced generation revision ∈ history →
    generation < n.nextGeneration
  revisions : ∀ id connection current, n.registry.lookup id = some connection →
    connection.identity = some current → ∃ initial : WebSocketIdentitySnapshot,
      Change.added connection.generation (some initial) ∈ history ∧
        current.revision =
          initial.revision + history.countP (replaces connection.generation)

namespace Sound

variable {identityIndexEnabled : Bool} {n n' : Node} {history : List Change}

theorem start (identityIndexEnabled : Bool) :
    Sound identityIndexEnabled { registry := .new identityIndexEnabled } [] where
  enabled := by cases identityIndexEnabled <;> rfl
  stores := by
    intro index hindex
    have hempty : index = ∅ := by
      cases identityIndexEnabled <;> cases hindex
      rfl
    rw [hempty]
    exact .empty fun key id => nofun
  ids := nofun
  old := nofun
  distinct := nofun
  replaced := nofun
  revisions := nofun

variable (h : Sound identityIndexEnabled n history)

include h

/-- Sections that keep the identities keep their revisions. -/
theorem calm {added : List Change} (hcalm : n.registry.Calm n'.registry)
    (hnext : n'.nextGeneration = n.nextGeneration)
    (hadded : ∀ change ∈ added, ∃ generation, change = .closed generation) :
    Sound identityIndexEnabled n' (history ++ added) where
  enabled := hcalm.isSome.trans h.enabled
  stores := hcalm.stores h.ids h.stores
  ids id connection hlookup := by
    obtain ⟨before, hbefore, hid, -⟩ := hcalm.keeps id connection hlookup
    exact hid.trans (h.ids id before hbefore)
  old id connection hlookup := by
    obtain ⟨before, hbefore, -, hgeneration, -⟩ := hcalm.keeps id connection hlookup
    rw [hgeneration, hnext]
    exact h.old id before hbefore
  distinct id id' connection connection' hlookup hlookup' hsame := by
    obtain ⟨before, hbefore, -, hgeneration, -⟩ := hcalm.keeps id connection hlookup
    obtain ⟨before', hbefore', -, hgeneration', -⟩ := hcalm.keeps id' connection' hlookup'
    rw [hgeneration, hgeneration'] at hsame
    exact h.distinct id id' before before' hbefore hbefore' hsame
  replaced generation revision hmem := by
    rw [hnext]
    obtain hmem | hmem := List.mem_append.mp hmem
    · exact h.replaced generation revision hmem
    · obtain ⟨_, hclosed⟩ := hadded _ hmem
      cases hclosed
  revisions id connection current hlookup hidentity := by
    obtain ⟨before, hbefore, -, hgeneration, hsame⟩ := hcalm.keeps id connection hlookup
    obtain ⟨initial, hinitial, hcount⟩ := h.revisions id before current hbefore (hsame ▸ hidentity)
    have hnone : added.countP (replaces before.generation) = 0 := by
      rw [List.countP_eq_zero]
      intro change hchange
      obtain ⟨generation, rfl⟩ := hadded change hchange
      exact Bool.false_ne_true
    rw [hgeneration, List.countP_append, hnone, Nat.add_zero]
    exact ⟨initial, List.mem_append_left _ hinitial, hcount⟩

variable {id : Uuid} {connection : Connection}

theorem add (hfresh : n.registry.lookup id = none)
    (hid : connection.id = id) (hgeneration : connection.generation = n.nextGeneration)
    (hstate : connection.state = .connected) :
    Sound identityIndexEnabled
      { n with
        registry := (n.registry.addPrincipalMembershipParts connection.namespaceName id
          connection.identity).put id connection
        nextGeneration := n.nextGeneration + 1 }
      (history ++ [.added n.nextGeneration connection.identity]) := by
  have hlookups : ∀ id' : Uuid, ((n.registry.addPrincipalMembershipParts connection.namespaceName id
      connection.identity).put id connection).lookup id' =
        if id' = id then some connection else n.registry.lookup id' := by
    intro id'
    simp [put_lookup]
  constructor <;> simp only [hlookups]
  case enabled =>
    simpa [addPrincipalMembershipParts] using h.enabled
  case stores => exact h.stores.add hfresh hstate
  case ids =>
    have := h.ids
    grind
  case old =>
    have := h.old
    grind
  case distinct =>
    have := h.distinct
    have := h.old
    grind
  case replaced =>
    have := h.replaced
    grind
  case revisions =>
    intro id' connection' current hlookup hidentity
    split at hlookup
    next =>
      -- No identity of the new generation has been replaced yet.
      cases hlookup
      have hnone : history.countP (replaces connection.generation) = 0 := by
        rw [List.countP_eq_zero]
        intro change hchange hreplaces
        cases change with
        | replaced generation revision =>
          have hlt := h.replaced generation revision hchange
          simp only [replaces, decide_eq_true_eq] at hreplaces
          rw [hreplaces, hgeneration] at hlt
          exact absurd hlt (Nat.lt_irrefl _)
        | added | closed => cases hreplaces
      refine ⟨current, ?_, ?_⟩
      · simp [hgeneration, hidentity]
      · simp [List.countP_append, hnone, replaces]
    next =>
      obtain ⟨initial, hinitial, hcount⟩ := h.revisions id' connection' current hlookup hidentity
      exact ⟨initial, List.mem_append_left _ hinitial, by
        simpa [List.countP_append, replaces] using hcount⟩

theorem replace {current next : WebSocketIdentitySnapshot}
    (hlookup : n.registry.lookup id = some connection) (hstate : connection.state = .connected)
    (hidentity : connection.identity = some current)
    (hnext : next.revision = current.revision + 1) :
    Sound identityIndexEnabled
      { n with registry := n.registry.replaceIdentity id connection current next }
      (history ++ [.replaced connection.generation next.revision]) := by
  have hlookups : ∀ id' : Uuid, (n.registry.replaceIdentity id connection current next).lookup id' =
      if id' = id then some { connection with identity := some next }
      else n.registry.lookup id' :=
    fun _ => replaceIdentity_lookup current next
  constructor <;> simp only [hlookups]
  case enabled => simpa using h.enabled
  case stores => exact h.stores.replaceIdentity hlookup hidentity hstate
  case ids =>
    have := h.ids
    grind
  case old =>
    have := h.old
    grind
  case distinct =>
    have := h.distinct
    grind
  case replaced =>
    have := h.replaced
    have := h.old
    grind
  case revisions =>
    intro id' connection' current' hlookup' hidentity'
    split at hlookup'
    next =>
      cases hlookup'
      cases hidentity'
      obtain ⟨initial, hinitial, hcount⟩ := h.revisions id connection current hlookup hidentity
      refine ⟨initial, List.mem_append_left _ hinitial, ?_⟩
      simp [List.countP_append, replaces, hnext, hcount, Nat.add_assoc]
    next hid =>
      obtain ⟨initial, hinitial, hcount⟩ :=
        h.revisions id' connection' current' hlookup' hidentity'
      refine ⟨initial, List.mem_append_left _ hinitial, ?_⟩
      have hother : connection.generation ≠ connection'.generation :=
        fun hsame => hid (h.distinct id' id connection' connection hlookup' hlookup hsame.symm)
      simpa [List.countP_append, replaces, hother] using hcount

/-- Every effect keeps the indexes in step with the history. -/
theorem step {sec : Section} {added : List Change}
    (heffect : Effect n sec n' added) : Sound identityIndexEnabled n' (history ++ added) := by
  cases heffect with
  | calm hcalm hnext hadded => exact h.calm hcalm hnext hadded
  | add hfresh hid hgeneration hstate => exact h.add hfresh hid hgeneration hstate
  | replace hlookup hstate hidentity hrevision _ _ =>
    exact h.replace hlookup hstate hidentity (by rw [hrevision])
omit h

theorem run (identityIndexEnabled : Bool) (moves : List (Nat × Section)) :
    Sound identityIndexEnabled
      ((sections identityIndexEnabled).run (Lock.start identityIndexEnabled) moves).shared
      (changes ((sections identityIndexEnabled).run (Lock.start identityIndexEnabled) moves)) := by
  refine (sections identityIndexEnabled).run_induct
    (P := fun w => Sound identityIndexEnabled w.shared (changes w)) (start identityIndexEnabled)
    (fun w i sec h => ?_) moves
  rw [changes_step]
  exact h.step (enter_effect identityIndexEnabled w.shared sec)

end Sound

/-- An identity is replaced only where it is expected, in a connection that is connected, before it
expires and by one that has not expired. -/
theorem replacement_accepted {n n' : Node} {sec : Section} {added : List Change}
    (h : Effect n sec n' added) {id : Uuid} {connection connection' : Connection}
    (hlookup : n.registry.lookup id = some connection)
    (hlookup' : n'.registry.lookup id = some connection')
    (hchanged : connection'.identity ≠ connection.identity) :
    ∃ expectedRevision replacement current,
      sec = .reauthenticate id expectedRevision replacement ∧
      connection.state = .connected ∧ connection.identity = some current ∧
      current.revision = expectedRevision ∧ current.expired n.now = false ∧
      replacement.expired n.now = false ∧
      connection'.identity = some ⟨expectedRevision + 1, some replacement⟩ ∧
      added = [.replaced connection.generation (expectedRevision + 1)] := by
  cases h with
  | calm hcalm _ _ =>
    obtain ⟨before, hbefore, -, -, hsame⟩ := hcalm.keeps id connection' hlookup'
    cases hlookup.symm.trans hbefore
    exact absurd hsame hchanged
  | add hfresh _ _ _ =>
    simp only [put_lookup,
      addPrincipalMembershipParts_lookup] at hlookup'
    split at hlookup'
    next heq =>
      rw [heq, hfresh] at hlookup
      cases hlookup
    next =>
      cases hlookup.symm.trans hlookup'
      exact absurd rfl hchanged
  | replace hfound hstate hidentity hrevision hcurrent hreplacement =>
    simp only [replaceIdentity_lookup] at hlookup'
    split at hlookup'
    next heq =>
      subst heq
      cases hlookup.symm.trans hfound
      cases hlookup'
      exact ⟨_, _, _, rfl, hstate, hidentity, hrevision, hcurrent, hreplacement, rfl, rfl⟩
    next =>
      cases hlookup.symm.trans hlookup'
      exact absurd rfl hchanged

/-- The registry whenever the lock is free. -/
structure Consistent (identityIndexEnabled : Bool) (w : World Nat Node Unit Change) : Prop where
  enabled : w.shared.registry.principalIndex.isSome = identityIndexEnabled
  /-- The index has the connections of each principal, and no entry without one. -/
  index : ∀ index, w.shared.registry.principalIndex = some index →
    (∀ key id, (∃ members, index.lookup key = some members ∧ id ∈ members) ↔
      ∃ connection, w.shared.registry.lookup id = some connection ∧
        connection.state = .connected ∧ connection.namespaceName = key.namespaceName ∧
        connection.principalId = some key.principalId) ∧
    ∀ key, index.lookup key ≠ some ∅
  /-- The revision counts the replacements since the connection was added. -/
  revision : ∀ id connection current, w.shared.registry.lookup id = some connection →
    connection.identity = some current → ∃ initial : WebSocketIdentitySnapshot,
      Change.added connection.generation (some initial) ∈ changes w ∧
        current.revision =
          initial.revision + (changes w).countP (replaces connection.generation)
  /-- A section that changes an identity is an accepted reauthentication. -/
  replacement : ∀ i sec id connection connection',
    w.shared.registry.lookup id = some connection →
    ((sections identityIndexEnabled).step w (i, sec)).shared.registry.lookup id =
      some connection' →
    connection'.identity ≠ connection.identity →
    ∃ (expectedRevision : Revision) (replacement : AuthenticatedWebSocketIdentity)
      (current : WebSocketIdentitySnapshot),
      sec = .reauthenticate id expectedRevision replacement ∧
      connection.state = .connected ∧ connection.identity = some current ∧
      current.revision = expectedRevision ∧ current.expired w.shared.now = false ∧
      replacement.expired w.shared.now = false ∧
      connection'.identity = some ⟨expectedRevision + 1, some replacement⟩ ∧
      changes ((sections identityIndexEnabled).step w (i, sec)) =
        changes w ++ [.replaced connection.generation (expectedRevision + 1)]
  /-- An expiry claim that has any effect closes the connection it was made for. -/
  claim : ∀ id revision expected,
    w.shared.enter identityIndexEnabled (.claimIdentityExpiry id revision expected) ≠
      (w.shared, []) →
    ∃ connection current, w.shared.registry.lookup id = some connection ∧
      (∀ generation, expected = some generation → connection.generation = generation) ∧
      connection.identity = some current ∧ current.revision = revision ∧
      current.expired w.shared.now = true ∧
      (w.shared.enter identityIndexEnabled (.claimIdentityExpiry id revision expected)).2 =
        [.closed connection.generation] ∧
      ∀ id', id' ≠ id →
        (w.shared.enter identityIndexEnabled
          (.claimIdentityExpiry id revision expected)).1.registry.lookup id' =
            w.shared.registry.lookup id'

/-- The principal index is exact after any sections, and identities change only by accepted
reauthentications. -/
theorem principal_index_exact (identityIndexEnabled : Bool) (moves : List (Nat × Section)) :
    Consistent identityIndexEnabled
      ((sections identityIndexEnabled).run (start identityIndexEnabled) moves) := by
  have h := Sound.run identityIndexEnabled moves
  exact {
    enabled := h.enabled
    index := fun index hindex => ⟨(h.stores index hindex).members, (h.stores index hindex).nonempty⟩
    revision := h.revisions
    replacement := by
      intro i sec id connection connection' hlookup hlookup' hchanged
      simp only [changes_step, List.append_cancel_left_eq]
      exact replacement_accepted (enter_effect identityIndexEnabled _ sec) hlookup hlookup' hchanged
    claim := by
      intro id revision expected hchanged
      dsimp only [Node.enter] at hchanged ⊢
      split at hchanged
      next registry generation hclaim =>
        obtain ⟨-, hsuperseded⟩ | ⟨connection, current, hlookup, hexpected, hidentity, hrevision,
          hexpired, hclosing, rfl⟩ := claimIdentityExpiry_ok hclaim
        · cases hsuperseded
        · cases hclosing
          refine ⟨connection, current, hlookup, hexpected, hidentity, hrevision, hexpired, rfl, ?_⟩
          intro id' hid
          split <;> simp [stop_lookup, hid]
      next registry hclaim =>
        obtain ⟨rfl, -⟩ | ⟨_, _, -, -, -, -, -, hclosing, -⟩ := claimIdentityExpiry_ok hclaim
        · exact absurd rfl hchanged
        · cases hclosing
      next => exact absurd rfl hchanged }

/-- A reauthentication moves the connection to the entry of its new principal. -/
example :
    ((((sections true).run (start true)
      [(0, .add 0 0 7 (some "chat") (some ⟨0, some ⟨"ada", some 5⟩⟩) true),
        (0, .reauthenticate 7 0 ⟨"grace", none⟩)]).shared.registry.principalIndex.getD
          ∅).entries.map fun entry => (entry.1.principalId, entry.2)) = [("grace", {7})] := by
  decide

end Lily.Websocket.Lock
