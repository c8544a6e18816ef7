import Lily.Control.Validation
import Lily.Injection.Ordering

/-!
# Accepted service graphs

What the analysis accepts, in terms of the services alone: the indices of the list are gone, and
with them the order in which the services were declared.
-/

namespace Lily.Injection

open Graph Relation Validation

/-- The ids under which a service can be requested. -/
def ServiceMetadata.Registers (service : ServiceMetadata) (typeId : TypeId) : Prop :=
  service.typeId = typeId ∨ service.traitTypeId = some typeId

instance (service : ServiceMetadata) (typeId : TypeId) : Decidable (service.Registers typeId) :=
  inferInstanceAs (Decidable (_ ∨ _))

def resolvableIds (metadata : List ServiceMetadata) : List TypeId :=
  metadata.map ServiceMetadata.typeId ++ metadata.filterMap ServiceMetadata.traitTypeId

/-- A service declares a dependency on an id of the other one. -/
def Uses (metadata : List ServiceMetadata) (service dependency : ServiceMetadata) : Prop :=
  dependency ∈ metadata ∧ ∃ typeId ∈ service.dependencies, dependency.Registers typeId

/-- What the validation of the metadata stands for. -/
structure WellFormed (metadata : List ServiceMetadata) : Prop where
  unique : (resolvableIds metadata).Nodup
  registered : ∀ service ∈ metadata, ∀ typeId ∈ service.dependencies,
    ∃ dependency ∈ metadata, dependency.Registers typeId
  lifetimes : ∀ service ∈ metadata, ∀ dependency, Uses metadata service dependency →
    validateLifetimeCompatibility service.lifetime dependency.lifetime = .ok ()
  acyclic : ∀ service ∈ metadata, ¬ TransGen (Uses metadata) service service

theorem WellFormed.perm {metadata metadata' : List ServiceMetadata} (h : WellFormed metadata)
    (hperm : metadata.Perm metadata') : WellFormed metadata' := by
  have hmem : ∀ service, service ∈ metadata' ↔ service ∈ metadata := fun _ => hperm.mem_iff.symm
  have huses : Uses metadata' = Uses metadata := by
    funext service dependency
    rw [Uses, hmem, Uses]
  refine ⟨?_, ?_, ?_, ?_⟩
  · exact ((hperm.map _).append (hperm.filterMap _)).nodup_iff.mp h.unique
  · simpa only [hmem] using h.registered
  · simpa only [hmem, huses] using h.lifetimes
  · simpa only [hmem, huses] using h.acyclic

def Failure.Local (failure : Failure) : Prop :=
  ∃ error, failure = .rejected error ∧ ∀ cycle, error ≠ .circularDependency cycle

/-! ## Registration -/

section Register

variable (metadata : List ServiceMetadata)

/-- All registrations in the order in which they are made. -/
def registrationPairs : List (TypeId × Fin metadata.length) :=
  (List.finRange metadata.length).map (fun service => ((metadata.get service).typeId, service)) ++
    (List.finRange metadata.length).filterMap fun service =>
      (metadata.get service).traitTypeId.map fun traitTypeId => (traitTypeId, service)

def registerPair (registrations : Registrations metadata)
    (pair : TypeId × Fin metadata.length) : Except Failure (Registrations metadata) :=
  registerResolvableType metadata registrations pair.1 pair.2

theorem register_eq :
    register metadata =
      (registrationPairs metadata).foldlM (registerPair metadata) fun _ => none := by
  have htrait : ∀ (services : List (Fin metadata.length)) (registrations : Registrations metadata),
      services.foldlM (registerTrait metadata) registrations =
      (services.filterMap fun service =>
        (metadata.get service).traitTypeId.map fun traitTypeId => (traitTypeId, service)).foldlM
        (registerPair metadata) registrations := by
    intro services
    induction services with
    | nil => exact fun _ => rfl
    | cons service rest ih =>
      intro registrations
      rw [List.foldlM_cons, List.filterMap_cons, registerTrait]
      cases (metadata.get service).traitTypeId with
      | none => exact ih registrations
      | some traitTypeId =>
        simp only [Option.map_some, List.foldlM_cons, registerPair]
        exact bind_congr fun next => ih next
  rw [register, registrationPairs, List.foldlM_append, List.foldlM_map]
  exact bind_congr fun concrete => htrait _ concrete

theorem registrationPairs_fst :
    (registrationPairs metadata).map Prod.fst = resolvableIds metadata := by
  have hall :
      (List.finRange metadata.length).map (fun service => metadata.get service) = metadata :=
    List.map_get_finRange metadata
  have hconcrete : ((List.finRange metadata.length).map fun service =>
      ((metadata.get service).typeId, service)).map Prod.fst =
        metadata.map ServiceMetadata.typeId := by
    conv_rhs => rw [← hall]
    simp only [List.map_map, Function.comp_def]
  have htrait : ((List.finRange metadata.length).filterMap fun service =>
      (metadata.get service).traitTypeId.map fun traitTypeId => (traitTypeId, service)).map
        Prod.fst = metadata.filterMap ServiceMetadata.traitTypeId := by
    conv_rhs => rw [← hall]
    simp only [List.map_filterMap, List.filterMap_map, Option.map_map, Function.comp_def,
      Option.map_id']
  rw [registrationPairs, List.map_append, hconcrete, htrait, resolvableIds]

theorem mem_registrationPairs {typeId : TypeId} {service : Fin metadata.length} :
    (typeId, service) ∈ registrationPairs metadata ↔ (metadata.get service).Registers typeId := by
  simp only [registrationPairs, List.mem_append, List.mem_map, List.mem_filterMap,
    List.mem_finRange, true_and, Prod.mk.injEq, Option.map_eq_some_iff]
  constructor
  · rintro (⟨same, hid, rfl⟩ | ⟨same, _, htrait, rfl, rfl⟩)
    · exact .inl hid
    · exact .inr htrait
  · rintro (hid | htrait)
    · exact .inl ⟨service, hid, rfl⟩
    · exact .inr ⟨service, typeId, htrait, rfl, rfl⟩

variable {metadata}

/-- No id comes twice, and the map has what was registered; or some id does come twice. -/
theorem register_outcome :
    Outcome (fun registrations => (resolvableIds metadata).Nodup ∧ ∀ typeId service,
        registrations typeId = some service ↔ (metadata.get service).Registers typeId)
      (fun failure => failure.Local ∧ ¬ (resolvableIds metadata).Nodup) (register metadata) := by
  simp only [register_eq, ← registrationPairs_fst, ← mem_registrationPairs]
  refine foldlM_outcome (P := fun done (registrations : Registrations metadata) =>
    (done.map Prod.fst).Nodup ∧
      ∀ typeId service, registrations typeId = some service ↔ (typeId, service) ∈ done)
    ⟨List.nodup_nil, by simp⟩ fun done pair rest registrations hsplit hdone => ?_
  obtain ⟨typeId, service⟩ := pair
  obtain ⟨hnodup, hlookup⟩ := hdone
  rw [registerPair, registerResolvableType]
  cases hfound : registrations typeId with
  | some existing =>
    refine ⟨⟨_, rfl, nofun⟩, fun hall => ?_⟩
    rw [hsplit, List.map_append, List.map_cons] at hall
    exact (List.nodup_append.mp hall).2.2 typeId
      (List.mem_map_of_mem ((hlookup typeId existing).mp hfound)) typeId List.mem_cons_self rfl
  | none =>
    have hfresh : typeId ∉ done.map Prod.fst := by simp [← hlookup, hfound]
    refine ⟨by simpa using hnodup.concat hfresh, fun id other => ?_⟩
    obtain rfl | hid := eq_or_ne id typeId
    · simp [← hlookup, hfound, eq_comm]
    · simp [← hlookup, hid]

theorem register_ok_iff :
    (∃ registrations, register metadata = .ok registrations) ↔ (resolvableIds metadata).Nodup := by
  cases h : register metadata with
  | ok registrations => exact iff_of_true ⟨_, rfl⟩ (register_outcome.of_ok h).1
  | error failure => exact iff_of_false nofun (register_outcome.of_error h).2

theorem register_lookup {registrations : Registrations metadata}
    (h : register metadata = .ok registrations) (typeId : TypeId) (service : Fin metadata.length) :
    registrations typeId = some service ↔ (metadata.get service).Registers typeId :=
  (register_outcome.of_ok h).2 typeId service

end Register

/-! ## Edges -/

section Edges

variable {metadata : List ServiceMetadata} {registrations : Registrations metadata}

/-- A declared dependency that the analysis lets pass. -/
def Admissible (registrations : Registrations metadata) (service : Fin metadata.length)
    (typeId : TypeId) : Prop :=
  ∃ dependency, registrations typeId = some dependency ∧
    validateLifetimeCompatibility (metadata.get service).lifetime
      (metadata.get dependency).lifetime = .ok ()

variable {service : Fin metadata.length} {edges : List (Fin metadata.length)} {typeId : TypeId}

/-- A rejection of a dependency that is not admissible. -/
def Refused (registrations : Registrations metadata) (failure : Failure) : Prop :=
  failure.Local ∧ ∃ service : Fin metadata.length, ∃ typeId ∈ (metadata.get service).dependencies,
    ¬ Admissible registrations service typeId

theorem addDependency_outcome (hid : typeId ∈ (metadata.get service).dependencies) :
    Outcome (fun edges' => Admissible registrations service typeId ∧ ∀ dependency,
        dependency ∈ edges' ↔ dependency ∈ edges ∨ registrations typeId = some dependency)
      (Refused registrations) (addDependency metadata registrations service edges typeId) := by
  rw [addDependency]
  cases hfound : registrations typeId with
  | none => exact ⟨⟨_, rfl, nofun⟩, service, typeId, hid, by simp [Admissible, hfound]⟩
  | some dependency =>
    dsimp only
    cases hlifetime : validateLifetimeCompatibility (metadata.get service).lifetime
        (metadata.get dependency).lifetime with
    | error message =>
      refine ⟨⟨_, rfl, nofun⟩, service, typeId, hid, ?_⟩
      rintro ⟨same, hsame, hok⟩
      cases hfound.symm.trans hsame
      cases hlifetime.symm.trans hok
    | ok _ =>
      refine ⟨⟨dependency, hfound, hlifetime⟩, fun other => ?_⟩
      split_ifs with hmem
      · exact ⟨.inl, fun hother => hother.elim id fun heq => Option.some.inj heq ▸ hmem⟩
      · simp [eq_comm]

def EdgesOf (registrations : Registrations metadata) (service : Fin metadata.length)
    (typeIds : List TypeId) (edges : List (Fin metadata.length)) : Prop :=
  (∀ typeId ∈ typeIds, Admissible registrations service typeId) ∧
    ∀ dependency, dependency ∈ edges ↔ ∃ typeId ∈ typeIds, registrations typeId = some dependency

theorem edges_outcome :
    Outcome (EdgesOf registrations service (metadata.get service).dependencies)
      (Refused registrations) ((metadata.get service).dependencies.foldlM
        (addDependency metadata registrations service) []) := by
  refine foldlM_outcome ⟨nofun, by simp⟩ ?_
  rintro done typeId rest edges hsplit ⟨hadmissible, hmem⟩
  have hid : typeId ∈ (metadata.get service).dependencies := by rw [hsplit]; simp
  refine (addDependency_outcome hid).imp fun edges' ⟨hnew, hmem'⟩ => ?_
  refine ⟨List.forall_mem_append.mpr ⟨hadmissible, by simpa using hnew⟩, fun dependency => ?_⟩
  rw [hmem', hmem]
  simp only [List.mem_append, List.mem_singleton, or_and_right, exists_or, exists_eq_left]

/-- The graph of the services that have been processed. -/
def GraphOf (registrations : Registrations metadata) (services : List (Fin metadata.length))
    (graph : Fin metadata.length → List (Fin metadata.length)) : Prop :=
  ∀ service, (service ∈ services →
      EdgesOf registrations service (metadata.get service).dependencies (graph service)) ∧
    (service ∉ services → graph service = [])

variable {services : List (Fin metadata.length)}
  {graph : Fin metadata.length → List (Fin metadata.length)}

theorem addDependencies_outcome (hgraph : GraphOf registrations services graph)
    (hfresh : service ∉ services) :
    Outcome (GraphOf registrations (services ++ [service])) (Refused registrations)
      (addDependencies metadata registrations graph service) := by
  rw [addDependencies, (hgraph service).2 hfresh]
  refine edges_outcome.bind fun edges hedges other => ?_
  obtain rfl | hother := eq_or_ne other service
  · rw [Function.update_self]
    exact ⟨fun _ => hedges, fun hnot => absurd (by simp) hnot⟩
  · rw [Function.update_of_ne hother]
    simpa [hother] using hgraph other

theorem not_mem_of_finRange {done rest : List (Fin metadata.length)}
    (hsplit : List.finRange metadata.length = done ++ service :: rest) : service ∉ done := by
  have hnodup := List.nodup_finRange metadata.length
  rw [hsplit] at hnodup
  exact fun hmem => (List.nodup_append.mp hnodup).2.2 _ hmem _ List.mem_cons_self rfl

theorem dependencyGraph_outcome :
    Outcome (GraphOf registrations (List.finRange metadata.length)) (Refused registrations)
      (dependencyGraph metadata registrations) :=
  foldlM_outcome (fun _ => ⟨nofun, fun _ => rfl⟩) fun _ _ _ _ hsplit hgraph =>
    addDependencies_outcome hgraph (not_mem_of_finRange hsplit)

theorem dependencyGraph_ok (h : dependencyGraph metadata registrations = .ok graph)
    (service : Fin metadata.length) :
    EdgesOf registrations service (metadata.get service).dependencies (graph service) :=
  (dependencyGraph_outcome.of_ok h service).1 (List.mem_finRange service)

end Edges

/-! ## Services instead of indices -/

theorem exists_index {metadata : List ServiceMetadata} {service : ServiceMetadata}
    (h : service ∈ metadata) : ∃ index : Fin metadata.length, (metadata.get index) = service := by
  obtain ⟨index, hindex, rfl⟩ := List.getElem_of_mem h
  exact ⟨⟨index, hindex⟩, rfl⟩

section Services

variable {metadata : List ServiceMetadata} {registrations : Registrations metadata}
  {graph : Fin metadata.length → List (Fin metadata.length)}
  (hregister : register metadata = .ok registrations)
  (hgraph : dependencyGraph metadata registrations = .ok graph)

include hregister

variable {service : Fin metadata.length}

theorem typeId_injective {other : Fin metadata.length}
    (h : (metadata.get service).typeId = (metadata.get other).typeId) : service = other := by
  have hself := (register_lookup hregister _ service).mpr (.inl rfl)
  have hother := (register_lookup hregister _ other).mpr (.inl rfl)
  rw [h, hother] at hself
  exact (Option.some.inj hself).symm

include hgraph

theorem dependsOn_iff {dependency : Fin metadata.length} :
    DependsOn graph service dependency ↔
      Uses metadata (metadata.get service) (metadata.get dependency) := by
  rw [DependsOn, (dependencyGraph_ok hgraph service).2 dependency, Uses]
  simp only [register_lookup hregister]
  exact (and_iff_right (List.getElem_mem _)).symm

theorem exists_chain {reached : ServiceMetadata}
    (h : TransGen (Uses metadata) (metadata.get service) reached) :
    ∃ other : Fin metadata.length, (metadata.get other) = reached ∧
      TransGen (DependsOn graph) service other := by
  induction h with
  | single huses =>
    obtain ⟨other, rfl⟩ := exists_index huses.1
    exact ⟨other, rfl, .single ((dependsOn_iff hregister hgraph).mpr huses)⟩
  | tail _ huses ih =>
    obtain ⟨middle, rfl, hchain⟩ := ih
    obtain ⟨other, rfl⟩ := exists_index huses.1
    exact ⟨other, rfl, hchain.tail ((dependsOn_iff hregister hgraph).mpr huses)⟩

theorem wellFormed_of_grounded (h : ∀ node, Grounded (DependsOn graph) node) :
    WellFormed metadata where
  unique := register_ok_iff.mp ⟨registrations, hregister⟩
  registered service hservice typeId hid := by
    obtain ⟨index, rfl⟩ := exists_index hservice
    obtain ⟨dependency, hfound, -⟩ := (dependencyGraph_ok hgraph index).1 typeId hid
    exact ⟨_, List.getElem_mem _, (register_lookup hregister _ dependency).mp hfound⟩
  lifetimes service hservice dependency huses := by
    obtain ⟨index, rfl⟩ := exists_index hservice
    obtain ⟨hmem, typeId, hid, hregisters⟩ := huses
    obtain ⟨other, rfl⟩ := exists_index hmem
    obtain ⟨found, hfound, hlifetime⟩ := (dependencyGraph_ok hgraph index).1 typeId hid
    rw [(register_lookup hregister _ other).mpr hregisters] at hfound
    exact Option.some.inj hfound ▸ hlifetime
  acyclic service hservice hcycle := by
    obtain ⟨index, rfl⟩ := exists_index hservice
    obtain ⟨other, hother, hchain⟩ := exists_chain hregister hgraph hcycle
    obtain rfl := typeId_injective hregister (congrArg ServiceMetadata.typeId hother)
    exact (h _).not_transGen hchain

theorem closedChain_services {nodes : List (Fin metadata.length)}
    (h : ClosedChain (DependsOn graph) nodes) :
    ClosedChain (Uses metadata) (nodes.map fun index => metadata.get index) := by
  obtain ⟨first, middle, rfl, hchain⟩ := h
  refine ⟨(metadata.get first), middle.map fun index => (metadata.get index), by simp, ?_⟩
  exact (List.isChain_map _).mpr (hchain.imp fun _ _ => (dependsOn_iff hregister hgraph).mp)

end Services

theorem WellFormed.admissible {metadata : List ServiceMetadata}
    {registrations : Registrations metadata} (h : WellFormed metadata)
    (hregister : register metadata = .ok registrations) (service : Fin metadata.length) :
    ∀ typeId ∈ (metadata.get service).dependencies, Admissible registrations service typeId := by
  intro typeId hid
  obtain ⟨dependency, hmem, hregisters⟩ := h.registered _ (List.getElem_mem _) typeId hid
  obtain ⟨index, rfl⟩ := exists_index hmem
  exact ⟨index, (register_lookup hregister _ index).mpr hregisters,
    h.lifetimes _ (List.getElem_mem _) _ ⟨hmem, typeId, hid, hregisters⟩⟩

/-! ## Results -/

def singletons (metadata : List ServiceMetadata) (order : List (Fin metadata.length)) :
    List TypeId :=
  order.filterMap fun index =>
    if (metadata.get index).lifetime = .singleton then some (metadata.get index).typeId else none

/-- The ways in which the analysis ends. -/
theorem analyzeServiceGraph_cases (metadata : List ServiceMetadata) :
    (∃ failure, analyzeServiceGraph metadata = .error failure ∧ failure.Local ∧
      ¬ WellFormed metadata) ∨
    (∃ cycle, analyzeServiceGraph metadata =
        .error (.rejected (.circularDependency (cycleNames metadata cycle))) ∧
      ClosedChain (Uses metadata)
        ((cycle ++ cycle.head?.toList).map fun index => metadata.get index)) ∨
    ∃ registrations graph order, register metadata = .ok registrations ∧
      dependencyGraph metadata registrations = .ok graph ∧
      analyzeServiceGraph metadata = .ok (singletons metadata order) ∧
      WellFormed metadata ∧ order.Nodup ∧ (∀ node, node ∈ order) ∧
      DependenciesFirst (DependsOn graph) order := by
  cases metadata with
  | nil =>
    refine .inr (.inr ⟨fun _ => none, fun _ => [], [], rfl, rfl, rfl, ?_, List.nodup_nil,
      fun node => node.elim0, .nil⟩)
    exact ⟨List.nodup_nil, nofun, nofun, nofun⟩
  | cons first rest =>
    rw [analyzeServiceGraph]
    generalize hmetadata : first :: rest = metadata
    have hnonempty : metadata.isEmpty = false := by rw [← hmetadata]; rfl
    simp only [hnonempty, Bool.false_eq_true, if_false]
    cases hregister : register metadata with
    | error failure =>
      obtain ⟨hlocal, hnot⟩ := register_outcome.of_error hregister
      exact .inl ⟨failure, rfl, hlocal, fun hwell => hnot hwell.unique⟩
    | ok registrations =>
      simp only [bind, Except.bind]
      cases hgraph : dependencyGraph metadata registrations with
      | error failure =>
        obtain ⟨hlocal, service, typeId, hid, hnot⟩ := dependencyGraph_outcome.of_error hgraph
        exact .inl ⟨failure, rfl, hlocal,
          fun hwell => hnot (hwell.admissible hregister service typeId hid)⟩
      | ok graph =>
        rcases findDependencyCycle_spec graph with
          ⟨cycle, hfound, hcycle⟩ | ⟨⟨states, stack, hclear⟩, hgrounded⟩
        · refine .inr (.inl ⟨cycle, ?_, closedChain_services hregister hgraph hcycle⟩)
          simp only [hfound]
        · obtain ⟨order, horder, hnodup, hall, hfirst⟩ := topologicalOrder_spec graph hgrounded
          have hlength : order.length = metadata.length := by
            have hperm : order.Perm (List.finRange metadata.length) :=
              (List.perm_ext_iff_of_nodup hnodup (List.nodup_finRange _)).mpr
                fun node => by simp [hall node]
            rw [hperm.length_eq, List.length_finRange]
          refine .inr (.inr ⟨registrations, graph, order, rfl, hgraph, ?_,
            wellFormed_of_grounded hregister hgraph hgrounded, hnodup, hall, hfirst⟩)
          simp only [hclear, horder, hlength, if_true]
          rfl

theorem cycleNames_eq (metadata : List ServiceMetadata) (cycle : List (Fin metadata.length)) :
    cycleNames metadata cycle =
      ((cycle ++ cycle.head?.toList).map fun index => metadata.get index).map
        ServiceMetadata.typeName := by
  cases cycle with
  | nil => rfl
  | cons first rest => simp [cycleNames]

theorem analyzeServiceGraph_ok_iff {metadata : List ServiceMetadata} :
    (∃ order, analyzeServiceGraph metadata = .ok order) ↔ WellFormed metadata := by
  rcases analyzeServiceGraph_cases metadata with ⟨failure, herror, -, hnot⟩ |
    ⟨cycle, herror, hcycle⟩ | ⟨registrations, graph, order, -, -, hok, hwell, -⟩
  · rw [herror]
    exact iff_of_false nofun hnot
  · rw [herror]
    refine iff_of_false nofun fun hwell => ?_
    obtain ⟨service, hmem, hreach⟩ := hcycle.transGen
    obtain ⟨index, -, rfl⟩ := List.mem_map.mp hmem
    exact hwell.acyclic _ (List.getElem_mem _) hreach
  · exact iff_of_true ⟨_, hok⟩ hwell

/-- Services of a well-formed graph have ranks: each is above its dependencies. -/
theorem WellFormed.exists_rank {metadata : List ServiceMetadata} (h : WellFormed metadata) :
    ∃ rank : ServiceMetadata → Nat, (∀ service ∈ metadata, rank service < metadata.length) ∧
      ∀ service ∈ metadata, ∀ dependency, Uses metadata service dependency →
        rank dependency < rank service := by
  obtain ⟨_, hok⟩ := analyzeServiceGraph_ok_iff.mpr h
  rcases analyzeServiceGraph_cases metadata with ⟨failure, herror, -⟩ | ⟨cycle, herror, -⟩ |
    ⟨registrations, graph, order, hregister, hgraph, -, -, hnodup, hall, hfirst⟩
  · cases hok.symm.trans herror
  · cases hok.symm.trans herror
  · let services := order.map fun index => (metadata.get index)
    have hmem : ∀ service ∈ metadata, service ∈ services := by
      intro service hservice
      obtain ⟨index, rfl⟩ := exists_index hservice
      exact List.mem_map_of_mem (hall index)
    have hservices : DependenciesFirst (Uses metadata) services := by
      intro before service after hsplit dependency huses
      obtain ⟨earlier, rest, rfl, rfl, hrest⟩ := List.map_eq_append_iff.mp hsplit
      obtain ⟨index, later, rfl, rfl, -⟩ := List.map_eq_cons_iff.mp hrest
      obtain ⟨other, rfl⟩ := exists_index huses.1
      exact List.mem_map_of_mem
        (hfirst earlier index later rfl other ((dependsOn_iff hregister hgraph).mpr huses))
    have hlength : services.length ≤ metadata.length := by
      have hcard := List.Nodup.length_le_card hnodup
      rwa [Fintype.card_fin, ← List.length_map (f := fun index => metadata.get index)] at hcard
    refine ⟨services.idxOf, fun service hservice => ?_, fun service hservice dependency huses => ?_⟩
    · exact (List.idxOf_lt_length_of_mem (hmem service hservice)).trans_le hlength
    · exact hservices.idxOf_lt (hmem service hservice) huses

theorem WellFormed.registers_unique {metadata : List ServiceMetadata} (h : WellFormed metadata)
    {service other : ServiceMetadata} {typeId : TypeId} (hservice : service ∈ metadata)
    (hother : other ∈ metadata) (hregisters : service.Registers typeId)
    (hregisters' : other.Registers typeId) : service = other := by
  obtain ⟨registrations, hregister⟩ := register_ok_iff.mpr h.unique
  obtain ⟨index, rfl⟩ := exists_index hservice
  obtain ⟨index', rfl⟩ := exists_index hother
  have hfound := (register_lookup hregister typeId index).mpr hregisters
  have hfound' := (register_lookup hregister typeId index').mpr hregisters'
  rw [Option.some.inj (hfound.symm.trans hfound')]

section Singletons

variable {metadata : List ServiceMetadata} {registrations : Registrations metadata}
  {graph : Fin metadata.length → List (Fin metadata.length)} {order : List (Fin metadata.length)}

theorem singleton_some {index : Fin metadata.length} {typeId : TypeId}
    (h : (if (metadata.get index).lifetime = .singleton then some (metadata.get index).typeId
      else none) = some typeId) :
    (metadata.get index).lifetime = .singleton ∧ (metadata.get index).typeId = typeId := by
  split_ifs at h with hlifetime
  exact ⟨hlifetime, Option.some.inj h⟩

theorem mem_singletons (hall : ∀ node, node ∈ order) {typeId : TypeId} :
    typeId ∈ singletons metadata order ↔
      ∃ service ∈ metadata, service.lifetime = .singleton ∧ service.typeId = typeId := by
  rw [singletons, List.mem_filterMap]
  constructor
  · rintro ⟨index, -, hsome⟩
    exact ⟨_, List.getElem_mem _, singleton_some hsome⟩
  · rintro ⟨service, hmem, hlifetime, rfl⟩
    obtain ⟨index, rfl⟩ := exists_index hmem
    exact ⟨index, hall index, if_pos hlifetime⟩

variable (hregister : register metadata = .ok registrations)

include hregister

theorem nodup_singletons (hnodup : order.Nodup) : (singletons metadata order).Nodup := by
  refine hnodup.filterMap fun service other typeId hservice hother => ?_
  exact typeId_injective hregister
    ((singleton_some hservice).2.trans (singleton_some hother).2.symm)

/-- Dependencies come first among the singletons, through services of any lifetime. -/
theorem reached_before (hgraph : dependencyGraph metadata registrations = .ok graph)
    (hfirst : DependenciesFirst (DependsOn graph) order) {service reached : ServiceMetadata}
    (hservice : service ∈ metadata) {before after : List TypeId}
    (hsplit : singletons metadata order = before ++ service.typeId :: after)
    (hreach : TransGen (Uses metadata) service reached)
    (hlifetime : reached.lifetime = .singleton) : reached.typeId ∈ before := by
  obtain ⟨earlier, later, rfl, rfl, hlater⟩ := List.filterMap_eq_append_iff.mp hsplit
  obtain ⟨skipped, index, rest, rfl, hskipped, hindex, -⟩ := List.filterMap_eq_cons_iff.mp hlater
  obtain ⟨self, rfl⟩ := exists_index hservice
  obtain rfl := typeId_injective hregister (singleton_some hindex).2
  obtain ⟨other, rfl, hchain⟩ := exists_chain hregister hgraph hreach
  have hother : other ∈ earlier ++ skipped :=
    hfirst.transGen (List.append_assoc earlier skipped (index :: rest)).symm hchain
  have hsome : (if (metadata.get other).lifetime = .singleton then some (metadata.get other).typeId
      else none) = some (metadata.get other).typeId := if_pos hlifetime
  rcases List.mem_append.mp hother with hearlier | hskip
  · exact List.mem_filterMap.mpr ⟨other, hearlier, hsome⟩
  · cases (hskipped other hskip).symm.trans hsome

end Singletons

theorem analyzeServiceGraph_order {metadata : List ServiceMetadata} {order : List TypeId}
    (h : analyzeServiceGraph metadata = .ok order) :
    order.Nodup ∧
    (∀ typeId, typeId ∈ order ↔
      ∃ service ∈ metadata, service.lifetime = .singleton ∧ service.typeId = typeId) ∧
    ∀ service ∈ metadata, ∀ before after, order = before ++ service.typeId :: after →
      ∀ reached, TransGen (Uses metadata) service reached → reached.lifetime = .singleton →
        reached.typeId ∈ before := by
  rcases analyzeServiceGraph_cases metadata with ⟨failure, herror, -⟩ | ⟨cycle, herror, -⟩ |
    ⟨registrations, graph, nodes, hregister, hgraph, hok, -, hnodup, hall, hfirst⟩
  · cases h.symm.trans herror
  · cases h.symm.trans herror
  · cases h.symm.trans hok
    exact ⟨nodup_singletons hregister hnodup, fun _ => mem_singletons hall,
      fun service hservice before after hsplit reached hreach hlifetime =>
        reached_before hregister hgraph hfirst hservice hsplit hreach hlifetime⟩

/-- Every list of declarations is either rejected or put into an order. -/
theorem service_graph_analyzed (metadata : List ServiceMetadata) :
    -- The analysis does not panic, and accepts the well-formed graphs.
    analyzeServiceGraph metadata ≠ .error .panic ∧
    ((∃ order, analyzeServiceGraph metadata = .ok order) ↔ WellFormed metadata) ∧
    -- The order of the declarations does not matter for that.
    (∀ metadata', metadata.Perm metadata' →
      ((∃ order, analyzeServiceGraph metadata = .ok order) ↔
        ∃ order, analyzeServiceGraph metadata' = .ok order)) ∧
    -- The result has the singletons, each after the singletons that it reaches.
    (∀ order, analyzeServiceGraph metadata = .ok order →
      order.Nodup ∧
      (∀ typeId, typeId ∈ order ↔
        ∃ service ∈ metadata, service.lifetime = .singleton ∧ service.typeId = typeId) ∧
      ∀ service ∈ metadata, ∀ before after, order = before ++ service.typeId :: after →
        ∀ reached, TransGen (Uses metadata) service reached → reached.lifetime = .singleton →
          reached.typeId ∈ before) ∧
    -- A reported cycle is one.
    (∀ names, analyzeServiceGraph metadata = .error (.rejected (.circularDependency names)) →
      ∃ services, (∀ service ∈ services, service ∈ metadata) ∧
        services.map ServiceMetadata.typeName = names ∧
        ClosedChain (Uses metadata) services) := by
  refine ⟨?_, analyzeServiceGraph_ok_iff, fun metadata' hperm => ?_,
    fun _ => analyzeServiceGraph_order, fun names hnames => ?_⟩
  · rcases analyzeServiceGraph_cases metadata with ⟨failure, herror, ⟨error, rfl, -⟩, -⟩ |
      ⟨cycle, herror, -⟩ | ⟨_, _, order, -, -, hok, -⟩
    · rw [herror]
      exact nofun
    · rw [herror]
      exact nofun
    · rw [hok]
      exact nofun
  · rw [analyzeServiceGraph_ok_iff, analyzeServiceGraph_ok_iff]
    exact ⟨fun h => h.perm hperm, fun h => h.perm hperm.symm⟩
  · rcases analyzeServiceGraph_cases metadata with ⟨failure, herror, ⟨error, rfl, hlocal⟩, -⟩ |
      ⟨cycle, herror, hcycle⟩ | ⟨_, _, order, -, -, hok, -⟩
    · cases hnames.symm.trans herror
      exact absurd rfl (hlocal names)
    · cases hnames.symm.trans herror
      refine ⟨_, fun service hservice => ?_, (cycleNames_eq metadata cycle).symm, hcycle⟩
      obtain ⟨index, -, rfl⟩ := List.mem_map.mp hservice
      exact List.getElem_mem _
    · cases hnames.symm.trans hok

-- Three services, declared before what they use.
example :
    analyzeServiceGraph
      [⟨3, "RequestHandler", none, .scoped, [2]⟩, ⟨2, "Repository", some 7, .singleton, [1, 1]⟩,
        ⟨1, "Database", none, .singleton, []⟩] = .ok [1, 2] := by
  decide

/-- A service whose trait id is its own concrete id registers that id alone, and twice. -/
theorem self_alias_rejected :
    let metadata : List ServiceMetadata := [⟨1, "Clock", some 1, .singleton, []⟩]
    (∀ service other : Fin metadata.length, ∀ typeId, (metadata.get service).Registers typeId →
      (metadata.get other).Registers typeId → service = other) ∧
    (∀ service ∈ metadata, service.dependencies = []) ∧
    analyzeServiceGraph metadata =
      .error (.rejected (.ambiguousRegistration 1 ["Clock"])) := by
  intro metadata
  refine ⟨fun service other _ _ _ => ?_, by decide, by decide⟩
  exact (by decide : ∀ first second : Fin 1, first = second) service other

end Lily.Injection
