import Lily.Injection.Startup

/-!
# Captured scopes

The analysis looks at direct dependencies: a singleton may have a transient, and a transient may
have a scoped service. Start-up follows the whole chain. A service is blocked when its resolution
at start-up comes to a point where a scope is needed, and the singletons that start are those with
no blocked dependency.
-/

namespace Lily.Injection

open Graph Relation

/-- A scoped service, or a transient that needs one. -/
inductive NeedsScope (metadata : List ServiceMetadata) : ServiceMetadata → Prop
  | here {service : ServiceMetadata} (hlifetime : service.lifetime = .scoped) :
      NeedsScope metadata service
  | through {service dependency : ServiceMetadata} (hlifetime : service.lifetime = .transient)
      (huses : Uses metadata service dependency) (hneeds : NeedsScope metadata dependency) :
      NeedsScope metadata service

/-- A singleton with a dependency that needs a scope. -/
def Captures (metadata : List ServiceMetadata) : Prop :=
  ∃ service ∈ metadata, service.lifetime = .singleton ∧
    ∃ dependency, Uses metadata service dependency ∧ NeedsScope metadata dependency

section Reach

variable {metadata : List ServiceMetadata} {service reached : ServiceMetadata}

theorem NeedsScope.reaches (h : NeedsScope metadata service) :
    ∃ reached, ReflTransGen (Uses metadata) service reached ∧ reached.lifetime = .scoped := by
  induction h with
  | here hlifetime => exact ⟨_, .refl, hlifetime⟩
  | through _ huses _ ih =>
    obtain ⟨reached, hchain, hscoped⟩ := ih
    exact ⟨reached, .head huses hchain, hscoped⟩

/-- The last singleton of a chain to a scoped service captures it. -/
theorem captures_of_chain (h : TransGen (Uses metadata) service reached)
    (hscoped : reached.lifetime = .scoped) (hservice : service ∈ metadata) :
    Captures metadata ∨ NeedsScope metadata service := by
  have hstep : ∀ {first next : ServiceMetadata}, first ∈ metadata → Uses metadata first next →
      NeedsScope metadata next → Captures metadata ∨ NeedsScope metadata first := by
    intro first next hfirst huses hneeds
    match hlifetime : first.lifetime with
    | .singleton => exact .inl ⟨first, hfirst, hlifetime, next, huses, hneeds⟩
    | .scoped => exact .inr (.here hlifetime)
    | .transient => exact .inr (.through hlifetime huses hneeds)
  induction h using TransGen.head_induction_on with
  | single huses => exact hstep hservice huses (.here hscoped)
  | head huses _ ih =>
    rcases ih huses.1 with hcaptures | hneeds
    · exact .inl hcaptures
    · exact hstep hservice huses hneeds

/-- No singleton reaches a scoped service exactly when none captures one. -/
theorem captures_iff : Captures metadata ↔
    ∃ service ∈ metadata, service.lifetime = .singleton ∧
      ∃ reached, TransGen (Uses metadata) service reached ∧ reached.lifetime = .scoped := by
  constructor
  · rintro ⟨service, hservice, hsingleton, dependency, huses, hneeds⟩
    obtain ⟨reached, hchain, hscoped⟩ := hneeds.reaches
    exact ⟨service, hservice, hsingleton, reached, .head' huses hchain, hscoped⟩
  · rintro ⟨service, hservice, hsingleton, reached, hchain, hscoped⟩
    rcases captures_of_chain hchain hscoped hservice with hcaptures | hneeds
    · exact hcaptures
    · cases hneeds with
      | here hlifetime | through hlifetime => cases hsingleton.symm.trans hlifetime

end Reach

/-! ## One resolution -/

namespace Host

/-- The resolution of this service at start-up ends for want of a scope. -/
inductive Blocked (host : Host) : ServiceMetadata → Prop
  | here {service : ServiceMetadata} (hlifetime : service.lifetime = .scoped) :
      Blocked host service
  | context {service : ServiceMetadata} (hlifetime : service.lifetime = .transient)
      (hcontext : host.processContext = true) : Blocked host service
  | through {service dependency : ServiceMetadata} (hlifetime : service.lifetime = .transient)
      (huses : Uses host.metadata service dependency) (hblocked : Blocked host dependency) :
      Blocked host service

variable {host : Host}

theorem Blocked.not_singleton {service : ServiceMetadata} (h : host.Blocked service) :
    service.lifetime ≠ .singleton := by
  intro hsingleton
  cases h with
  | here hlifetime | context hlifetime | through hlifetime => cases hsingleton.symm.trans hlifetime

/-- What a resolution comes to. It fails for want of a scope only where it is blocked, and is
blocked nowhere else; without failing hooks these are the only failures. -/
structure Comes (host : Host) (blocked : Prop) (result : Except InjectionError Unit) : Prop where
  only : ∀ error, result = .error error → error.requiresScope = true → blocked
  fails : (∀ n, host.hookFailure n = none) → blocked →
    ∃ error, result = .error error ∧ error.requiresScope = true
  succeeds : (∀ n, host.hookFailure n = none) → ¬ blocked → result = .ok ()

def Answers (host : Host) (blocked : Prop) (root : Root) (resolution : Resolution) : Prop :=
  ∃ result root', resolution = some (result, root') ∧ root'.singletons = root.singletons ∧
    host.Comes blocked result

variable {blocked : Prop} {result : Except InjectionError Unit} {root : Root}

theorem Comes.ok (h : ¬ blocked) : host.Comes blocked (.ok ()) :=
  ⟨nofun, fun _ hblocked => absurd hblocked h, fun _ _ => rfl⟩

variable {error : InjectionError}

theorem Comes.scope (h : blocked) (herror : error.requiresScope = true) :
    host.Comes blocked (.error error) :=
  ⟨fun _ _ _ => h, fun _ _ => ⟨error, rfl, herror⟩, fun _ hnot => absurd h hnot⟩

theorem Comes.hook {n : Nat} {message : String} (h : host.hookFailure n = some message)
    (herror : error.requiresScope = false) : host.Comes blocked (.error error) := by
  have hnot : ¬ ∀ n, host.hookFailure n = none := fun hall => by
    rw [hall n] at h
    cases h
  refine ⟨fun error' heq hrequires => ?_, fun hall => absurd hall hnot,
    fun hall => absurd hall hnot⟩
  cases heq
  rw [herror] at hrequires
  cases hrequires

theorem Comes.congr {blocked' : Prop} (h : host.Comes blocked result) (hiff : blocked ↔ blocked') :
    host.Comes blocked' result := by
  rwa [← propext hiff]

/-- Two errors that agree on whether they are about a scope. -/
theorem Comes.wrap {error' : InjectionError} (h : host.Comes blocked (.error error))
    (hsame : error'.requiresScope = error.requiresScope) : host.Comes blocked (.error error') := by
  refine ⟨fun other heq hrequires => ?_, fun hall hblocked => ?_, fun hall hnot => ?_⟩
  · cases heq
    exact h.only error rfl (hsame ▸ hrequires)
  · obtain ⟨other, heq, hrequires⟩ := h.fails hall hblocked
    cases heq
    exact ⟨error', rfl, hsame ▸ hrequires⟩
  · cases h.succeeds hall hnot

theorem Comes.nameRequested (h : host.Comes blocked result) (typeId : TypeId) :
    host.Comes blocked (host.nameRequested typeId result) := by
  cases result with
  | ok _ => exact h
  | error error => cases error with
    | scopeRequired service => exact h.wrap rfl
    | _ => exact h

theorem Comes.first {later : Prop}
    (h : host.Comes blocked (.error error)) : host.Comes (blocked ∨ later) (.error error) := by
  refine ⟨fun other heq hrequires => .inl (h.only other heq hrequires), fun hall _ => ?_,
    fun hall hnot => h.succeeds hall (not_or.mp hnot).1⟩
  by_cases hblocked : blocked
  · exact h.fails hall hblocked
  · cases h.succeeds hall hblocked

/-- A success, and then something else. -/
theorem Comes.second {later : Prop} (hfirst : host.Comes blocked (.ok ()))
    (h : host.Comes later result) : host.Comes (blocked ∨ later) result := by
  refine ⟨fun other heq hrequires => .inr (h.only other heq hrequires), fun hall hblocked => ?_,
    fun hall hnot => h.succeeds hall (not_or.mp hnot).2⟩
  rcases hblocked with hblocked | hlater
  · obtain ⟨error, heq, -⟩ := hfirst.fails hall hblocked
    cases heq
  · exact h.fails hall hlater

theorem runHook_comes (service : ServiceMetadata) (root : Root) (hblocked : ¬ blocked) :
    host.Comes blocked (host.runHook service root).1 := by
  rw [runHook]
  cases hhook : host.hookFailure root.hooks with
  | none => exact .ok hblocked
  | some message => exact .hook hhook rfl

variable {resolve : TypeId → Root → Resolution}

/-- The loop over the dependencies of a factory. -/
theorem resolveDependencies_answers {blockedAt : TypeId → Prop} (service : ServiceMetadata)
    (typeIds : List TypeId) (h : ∀ typeId ∈ typeIds, ∀ root', root'.singletons = root.singletons →
      host.Answers (blockedAt typeId) root' (resolve typeId root')) :
    host.Answers (∃ typeId ∈ typeIds, blockedAt typeId) root
      (host.resolveDependencies resolve service typeIds root) := by
  induction typeIds generalizing root with
  | nil => exact ⟨.ok (), root, rfl, rfl, .ok (by simp)⟩
  | cons typeId rest ih =>
    obtain ⟨hfirst, hrest⟩ := List.forall_mem_cons.mp h
    obtain ⟨result, next, hresolve, hkept, hcomes⟩ := hfirst root rfl
    rw [resolveDependencies, hresolve]
    cases result with
    | error source =>
      have hwrapped : host.Comes (blockedAt typeId ∨ ∃ id ∈ rest, blockedAt id)
          (.error (.dependencyResolutionFailed service.typeName (host.requestedName typeId)
            source)) := Comes.first (hcomes.wrap rfl)
      exact ⟨_, next, rfl, hkept, hwrapped.congr (by simp)⟩
    | ok _ =>
      obtain ⟨final, root', hfinal, hkept', hcomes'⟩ := @ih next
        fun id hid root' hsame => hrest id hid root' (hsame.trans hkept)
      exact ⟨final, root', hfinal, hkept'.trans hkept, (hcomes.second hcomes').congr (by simp)⟩

theorem createBoxed_answers {service : ServiceMetadata} {blockedAt : TypeId → Prop}
    (hseeded : ¬ (service.lifetime = .singleton ∧ host.seeded service.typeId = true))
    (h : ∀ typeId ∈ service.dependencies, ∀ root', root'.singletons = root.singletons →
      host.Answers (blockedAt typeId) root' (resolve typeId root')) :
    host.Answers (∃ typeId ∈ service.dependencies, blockedAt typeId) root
      (host.createBoxed resolve service root) := by
  obtain ⟨result, root', hresolve, hkept, hcomes⟩ :=
    resolveDependencies_answers service service.dependencies h
  rw [createBoxed, if_neg hseeded, hresolve]
  cases result with
  | error error => exact ⟨.error error, root', rfl, hkept, hcomes⟩
  | ok _ =>
    refine ⟨_, _, rfl, hkept, ?_⟩
    have hboth := hcomes.second (runHook_comes service root' not_false)
    exact hboth.congr (or_iff_left not_false)

/-- All singletons that a service reaches have been started. -/
def Settled (host : Host) (root : Root) (service : ServiceMetadata) : Prop :=
  ∀ reached, ReflTransGen (Uses host.metadata) service reached → reached.lifetime = .singleton →
    root.singletons reached.typeId = some (.ok ())

def BlockedAt (host : Host) (typeId : TypeId) : Prop :=
  ∃ dependency ∈ host.metadata, dependency.Registers typeId ∧ host.Blocked dependency

theorem exists_blockedAt_iff {service : ServiceMetadata} :
    (∃ typeId ∈ service.dependencies, host.BlockedAt typeId) ↔
      ∃ dependency, Uses host.metadata service dependency ∧ host.Blocked dependency := by
  constructor
  · rintro ⟨typeId, hid, dependency, hmem, hregisters, hblocked⟩
    exact ⟨dependency, ⟨hmem, typeId, hid, hregisters⟩, hblocked⟩
  · rintro ⟨dependency, ⟨hmem, typeId, hid, hregisters⟩, hblocked⟩
    exact ⟨typeId, hid, dependency, hmem, hregisters, hblocked⟩

theorem blocked_transient_iff {service : ServiceMetadata}
    (hlifetime : service.lifetime = .transient) (hcontext : ¬ host.processContext = true) :
    (∃ dependency, Uses host.metadata service dependency ∧ host.Blocked dependency) ↔
      host.Blocked service := by
  constructor
  · rintro ⟨dependency, huses, hblocked⟩
    exact .through hlifetime huses hblocked
  · intro hblocked
    cases hblocked with
    | here hscoped => cases hlifetime.symm.trans hscoped
    | context _ hpresent => exact absurd hpresent hcontext
    | through _ huses hblocked => exact ⟨_, huses, hblocked⟩

theorem find?_of_unique {services : List ServiceMetadata} {service : ServiceMetadata}
    {p : ServiceMetadata → Bool} (hmem : service ∈ services) (hp : p service = true)
    (hunique : ∀ found ∈ services, p found = true → found = service) :
    services.find? p = some service := by
  obtain ⟨found, hfind⟩ := Option.isSome_iff_exists.mp (List.find?_isSome.mpr ⟨service, hmem, hp⟩)
  rw [hfind, hunique found (List.mem_of_find?_eq_some hfind) (List.find?_some hfind)]

section Resolve

variable (hwell : WellFormed host.metadata)

include hwell

theorem find_registered {service : ServiceMetadata} {typeId : TypeId}
    (hservice : service ∈ host.metadata) (hregisters : service.Registers typeId) :
    host.metadata.find? (fun service => service.Registers typeId) = some service := by
  refine find?_of_unique hservice (by simpa) fun found hfound hid => ?_
  exact hwell.registers_unique hfound hservice (by simpa using hid) hregisters

theorem dependencies_answer {service : ServiceMetadata} (hservice : service ∈ host.metadata)
    (h : ∀ dependency, Uses host.metadata service dependency → ∀ typeId root',
      dependency.Registers typeId → root'.singletons = root.singletons →
      host.Answers (host.Blocked dependency) root' (resolve typeId root')) :
    ∀ typeId ∈ service.dependencies, ∀ root', root'.singletons = root.singletons →
      host.Answers (host.BlockedAt typeId) root' (resolve typeId root') := by
  intro typeId hid root' hsame
  obtain ⟨dependency, hmem, hregisters⟩ := hwell.registered service hservice typeId hid
  obtain ⟨result, next, hresolve, hkept, hcomes⟩ :=
    h dependency ⟨hmem, typeId, hid, hregisters⟩ typeId root' hregisters hsame
  refine ⟨result, next, hresolve, hkept, hcomes.congr ⟨fun hblocked => ?_, ?_⟩⟩
  · exact ⟨dependency, hmem, hregisters, hblocked⟩
  · rintro ⟨other, hother, hregisters', hblocked⟩
    exact hwell.registers_unique hother hmem hregisters' hregisters ▸ hblocked

variable {rank : ServiceMetadata → Nat} (hrank : ∀ service ∈ host.metadata, ∀ dependency,
  Uses host.metadata service dependency → rank dependency < rank service)

include hrank

/-- The provider answers for every service whose singletons have been started. -/
theorem resolveService_answers {fuel : Nat} {service : ServiceMetadata} {typeId : TypeId}
    (hservice : service ∈ host.metadata) (hregisters : service.Registers typeId)
    (hfuel : rank service < fuel) (hsettled : host.Settled root service) :
    host.Answers (host.Blocked service) root (host.resolveService fuel typeId root) := by
  induction fuel generalizing service typeId root with
  | zero => exact absurd hfuel (Nat.not_lt_zero _)
  | succ fuel ih =>
    rw [resolveService, find_registered hwell hservice hregisters]
    simp only
    match hlifetime : service.lifetime with
    | .singleton =>
      have hcell := hsettled service .refl hlifetime
      refine ⟨.ok (), root, ?_, rfl, .ok fun hblocked => hblocked.not_singleton hlifetime⟩
      simp only [resolveAny, hlifetime, getSingletonAny, hcell, Option.map_some, nameRequested]
    | .scoped =>
      refine ⟨.error (.scopeRequired (host.requestedName typeId)), root, ?_, rfl,
        .scope (.here hlifetime) rfl⟩
      simp only [resolveAny, hlifetime, getScopedAny, Option.map_some, nameRequested]
    | .transient =>
      by_cases hcontext : host.processContext = true
      · refine ⟨.error (.scopeRequired (host.requestedName typeId)), root, ?_, rfl,
          .scope (.context hlifetime hcontext) rfl⟩
        simp only [resolveAny, hlifetime, createTransientAny, if_pos hcontext,
          Option.map_some, nameRequested]
      · have hseeded : ¬ (service.lifetime = .singleton ∧
            host.seeded service.typeId = true) := by
          rw [hlifetime]
          exact fun hboth => nomatch hboth.1
        have hanswers : host.Answers (∃ typeId ∈ service.dependencies, host.BlockedAt typeId) root
            (host.createBoxed (host.resolveService fuel) service root) := by
          refine createBoxed_answers hseeded (dependencies_answer hwell hservice
            fun dependency huses typeId root' hid hsame => ?_)
          have hlower := hrank service hservice dependency huses
          refine ih huses.1 hid (by omega) fun reached hreach hsingleton => ?_
          rw [hsame]
          exact hsettled reached (.head huses hreach) hsingleton
        obtain ⟨result, root', hcreate, hkept, hcomes⟩ := hanswers
        refine ⟨_, root', ?_, hkept, (hcomes.congr ?_).nameRequested typeId⟩
        · simp only [resolveAny, hlifetime, createTransientAny, if_neg hcontext, hcreate,
            Option.map_some]
        · rw [exists_blockedAt_iff, blocked_transient_iff hlifetime hcontext]

end Resolve

/-! ## Start-up -/

/-- A singleton that is built by its factory and has a blocked dependency. -/
def FailsFor (host : Host) (service : ServiceMetadata) : Prop :=
  host.seeded service.typeId = false ∧
    ∃ dependency, Uses host.metadata service dependency ∧ host.Blocked dependency

theorem startupError_requiresScope (typeId : TypeId) (error : InjectionError) :
    (host.startupError typeId error).requiresScope = error.requiresScope := by
  cases error <;> rfl

section Startup

variable (hwell : WellFormed host.metadata)

include hwell

theorem find_typeId {service : ServiceMetadata} (hservice : service ∈ host.metadata) :
    host.metadata.find? (fun other => other.typeId = service.typeId) = some service := by
  refine find?_of_unique hservice (by simp) fun found hfound hid => ?_
  exact hwell.registers_unique hfound hservice (.inl (by simpa using hid)) (.inl rfl)

/-- The factory of a singleton all of whose singletons have been started. -/
theorem singleton_comes {service : ServiceMetadata} (hservice : service ∈ host.metadata)
    (hlifetime : service.lifetime = .singleton)
    (hsettled : ∀ reached, TransGen (Uses host.metadata) service reached →
      reached.lifetime = .singleton → root.singletons reached.typeId = some (.ok ())) :
    host.Answers (host.FailsFor service) root
      (host.createBoxed (host.resolveService host.metadata.length) service root) := by
  cases hseeded : host.seeded service.typeId with
  | true =>
    have hnot : ¬ host.FailsFor service := fun hfails => by
      rw [FailsFor, hseeded] at hfails
      cases hfails.1
    refine ⟨_, (host.runHook service root).2, ?_, rfl, runHook_comes service root hnot⟩
    rw [createBoxed, if_pos ⟨hlifetime, hseeded⟩]
  | false =>
    obtain ⟨rank, hbound, hrank⟩ := hwell.exists_rank
    have hiff : host.FailsFor service ↔ ∃ typeId ∈ service.dependencies, host.BlockedAt typeId := by
      rw [exists_blockedAt_iff, FailsFor, hseeded]
      simp
    rw [hiff]
    refine createBoxed_answers (by simp [hseeded]) (dependencies_answer hwell hservice
      fun dependency huses typeId root' hid hsame => ?_)
    refine resolveService_answers hwell hrank huses.1 hid (hbound dependency huses.1)
      fun reached hreach hsingleton => ?_
    rw [hsame]
    exact hsettled reached (.head' huses hreach) hsingleton

/-- The cells after some singletons have been started. -/
def started (done : List TypeId) (typeId : TypeId) : Option (Except InjectionError Unit) :=
  if typeId ∈ done then some (.ok ()) else none

omit hwell in
theorem started_concat (done : List TypeId) (typeId : TypeId) :
    Function.update (started done) typeId (some (.ok ())) = started (done ++ [typeId]) := by
  funext other
  by_cases hother : other = typeId <;> simp [hother, started]

variable {order : List TypeId} (hnodup : order.Nodup)
  (hmem : ∀ typeId, typeId ∈ order ↔
    ∃ service ∈ host.metadata, service.lifetime = .singleton ∧ service.typeId = typeId)
  (hfirst : ∀ service ∈ host.metadata, ∀ before after, order = before ++ service.typeId :: after →
    ∀ reached, TransGen (Uses host.metadata) service reached → reached.lifetime = .singleton →
      reached.typeId ∈ before)

include hnodup hmem hfirst

theorem startAll_comes {done rest : List TypeId} (hsplit : order = done ++ rest)
    (hroot : root.singletons = started done) :
    ∃ result, host.startAll rest root = some result ∧
      host.Comes (∃ service ∈ host.metadata, service.lifetime = .singleton ∧
        service.typeId ∈ rest ∧ host.FailsFor service) result := by
  induction rest generalizing done root with
  | nil => exact ⟨.ok (), rfl, .ok (by simp)⟩
  | cons typeId rest ih =>
    obtain ⟨service, hservice, hlifetime, rfl⟩ := (hmem typeId).mp (by simp [hsplit])
    have hfresh : service.typeId ∉ done := by
      rw [hsplit] at hnodup
      exact fun hin => (List.nodup_append.mp hnodup).2.2 _ hin _ List.mem_cons_self rfl
    obtain ⟨result, root', hcreate, hkept, hcomes⟩ :=
      singleton_comes hwell hservice hlifetime fun reached hreach hsingleton => by
        rw [hroot, started, if_pos (hfirst service hservice done rest hsplit reached hreach
          hsingleton)]
    have hcell : root.singletons service.typeId = none := by rw [hroot, started, if_neg hfresh]
    have heager : host.resolveEagerSingleton service.typeId root = some (result, { root' with
        singletons := Function.update root'.singletons service.typeId (some result) }) := by
      simp only [resolveEagerSingleton, find_typeId hwell hservice, resolveAny, hlifetime,
        getSingletonAny, hcell, hcreate, Option.map_some]
    have hiff : (host.FailsFor service ∨ ∃ other ∈ host.metadata, other.lifetime = .singleton ∧
          other.typeId ∈ rest ∧ host.FailsFor other) ↔
        ∃ other ∈ host.metadata, other.lifetime = .singleton ∧
          other.typeId ∈ service.typeId :: rest ∧ host.FailsFor other := by
      constructor
      · rintro (hfails | ⟨other, hother, hsingleton, hin, hfails⟩)
        · exact ⟨service, hservice, hlifetime, List.mem_cons_self, hfails⟩
        · exact ⟨other, hother, hsingleton, List.mem_cons_of_mem _ hin, hfails⟩
      · rintro ⟨other, hother, hsingleton, hin, hfails⟩
        rcases List.mem_cons.mp hin with heq | hin
        · have hsame : other = service :=
            hwell.registers_unique hother hservice (.inl heq) (.inl rfl)
          exact .inl (hsame ▸ hfails)
        · exact .inr ⟨other, hother, hsingleton, hin, hfails⟩
    rw [startAll, heager]
    cases result with
    | error source =>
      exact ⟨_, rfl, ((hcomes.wrap (startupError_requiresScope _ source)).first).congr hiff⟩
    | ok _ =>
      have hcells : Root.singletons { root' with
          singletons := Function.update root'.singletons service.typeId (some (.ok ())) } =
          started (done ++ [service.typeId]) := by
        rw [← started_concat, ← hroot, ← hkept]
      obtain ⟨final, hfinal, hcomes'⟩ := ih (by rw [hsplit, List.append_assoc]; rfl) hcells
      exact ⟨final, hfinal, (hcomes.second hcomes').congr hiff⟩

end Startup

theorem build_comes {order : List TypeId} (h : analyzeServiceGraph host.metadata = .ok order) :
    ∃ result, host.build = some (result.mapError Failure.rejected) ∧
      host.Comes (∃ service ∈ host.metadata, service.lifetime = .singleton ∧
        host.FailsFor service) result := by
  have hwell := analyzeServiceGraph_ok_iff.mp ⟨order, h⟩
  obtain ⟨hnodup, hmem, hfirst⟩ := analyzeServiceGraph_order h
  have hstart : ({} : Root).singletons = started [] := rfl
  obtain ⟨result, hresult, hcomes⟩ := startAll_comes hwell hnodup hmem hfirst
    (List.nil_append order).symm hstart
  refine ⟨result, by simp only [build, h, hresult, Option.map_some], hcomes.congr ?_⟩
  refine exists_congr fun service => and_congr_right fun hservice =>
    and_congr_right fun hlifetime => and_iff_right ?_
  exact (hmem service.typeId).mpr ⟨service, hservice, hlifetime, rfl⟩

/-- Blocked by a scoped service, or by a process context without a scope. -/
theorem blocked_iff {service : ServiceMetadata} :
    host.Blocked service ↔ NeedsScope host.metadata service ∨
      host.processContext = true ∧ service.lifetime = .transient := by
  constructor
  · intro h
    induction h with
    | here hlifetime => exact .inl (.here hlifetime)
    | context hlifetime hcontext => exact .inr ⟨hcontext, hlifetime⟩
    | through hlifetime huses _ ih =>
      rcases ih with hneeds | ⟨hcontext, -⟩
      · exact .inl (.through hlifetime huses hneeds)
      · exact .inr ⟨hcontext, hlifetime⟩
  · rintro (hneeds | ⟨hcontext, hlifetime⟩)
    · induction hneeds with
      | here hlifetime => exact .here hlifetime
      | through hlifetime huses _ ih => exact .through hlifetime huses ih
    · exact .context hlifetime hcontext

end Host

/-- A build that ends, and not for want of a scope. -/
def Host.Starts (host : Host) : Prop :=
  ∃ result, host.build = some result ∧
    ∀ error, result = .error (.rejected error) → error.requiresScope = false

/-- For every accepted graph: no singleton reaches a scoped service, and no start-up fails for want
of a scope, exactly when no singleton captures a scoped service through transients, and either the
build runs outside of any process context or no factory of a singleton asks for a transient. -/
theorem start_up_unscoped_iff (metadata : List ServiceMetadata) (requestedName : TypeId → String)
    (seeded : TypeId → Bool) (processContext : Bool) (order : List TypeId)
    (h : analyzeServiceGraph metadata = .ok order) :
    ((∀ service ∈ metadata, service.lifetime = .singleton →
        ∀ reached, TransGen (Uses metadata) service reached → reached.lifetime ≠ .scoped) ∧
      ∀ hookFailure,
        Host.Starts ⟨metadata, requestedName, seeded, processContext, hookFailure⟩) ↔
    (∀ service ∈ metadata, service.lifetime = .singleton →
      ∀ dependency, Uses metadata service dependency → ¬ NeedsScope metadata dependency) ∧
    (processContext = true → ∀ service ∈ metadata, service.lifetime = .singleton →
      seeded service.typeId = false →
        ∀ dependency, Uses metadata service dependency → dependency.lifetime ≠ .transient) := by
  have hreach : (∀ service ∈ metadata, service.lifetime = .singleton →
      ∀ reached, TransGen (Uses metadata) service reached → reached.lifetime ≠ .scoped) ↔
      ∀ service ∈ metadata, service.lifetime = .singleton →
        ∀ dependency, Uses metadata service dependency → ¬ NeedsScope metadata dependency := by
    have hnot : ¬ Captures metadata ↔ _ := not_congr captures_iff
    simp only [Captures, not_exists, not_and] at hnot
    exact hnot.symm
  rw [hreach]
  refine and_congr_right fun hcaptures => ⟨fun hstarts hcontext => ?_, fun hcontext hook => ?_⟩
  · intro service hservice hlifetime hseeded dependency huses htransient
    -- With hooks that succeed, only the missing scope is left as an outcome.
    let host : Host := ⟨metadata, requestedName, seeded, processContext, fun _ => none⟩
    have hanalysis : analyzeServiceGraph host.metadata = .ok order := h
    obtain ⟨result, hbuild, hcomes⟩ := Host.build_comes hanalysis
    obtain ⟨error, rfl, hrequires⟩ := hcomes.fails (fun _ => rfl)
      ⟨service, hservice, hlifetime, hseeded, dependency, huses, .context htransient hcontext⟩
    obtain ⟨ended, hended, hfine⟩ := hstarts fun _ => none
    cases hended.symm.trans hbuild
    rw [hfine error rfl] at hrequires
    cases hrequires
  · let host : Host := ⟨metadata, requestedName, seeded, processContext, hook⟩
    have hanalysis : analyzeServiceGraph host.metadata = .ok order := h
    obtain ⟨result, hbuild, hcomes⟩ := Host.build_comes hanalysis
    refine ⟨_, hbuild, fun error herror => Bool.eq_false_iff.mpr fun hrequires => ?_⟩
    have hresult : result = .error error := by
      cases result with
      | ok _ => cases herror
      | error other =>
        cases herror
        rfl
    obtain ⟨service, hservice, hlifetime, hseeded, dependency, huses, hblocked⟩ :=
      hcomes.only error hresult hrequires
    rcases Host.blocked_iff.mp hblocked with hneeds | ⟨hpresent, htransient⟩
    · exact hcaptures service hservice hlifetime dependency huses hneeds
    · exact hcontext hpresent service hservice hlifetime hseeded dependency huses htransient

/-- A singleton that uses a transient, and a scoped service that uses both: the singleton starts. -/
theorem sample_start_up_unscoped : let metadata : List ServiceMetadata :=
      [⟨1, "Cache", none, .singleton, [2]⟩, ⟨2, "Clock", none, .transient, []⟩,
        ⟨3, "Session", none, .scoped, [1, 2]⟩]
    analyzeServiceGraph metadata = .ok [1] ∧
    ∀ hookFailure, Host.Starts ⟨metadata, toString, fun _ => false, false, hookFailure⟩ := by
  intro metadata
  have hanalysis : analyzeServiceGraph metadata = .ok [1] := by decide
  have hclock : ∀ service ∈ metadata, service.lifetime = .singleton → ∀ dependency ∈ metadata,
      (∃ typeId ∈ service.dependencies, dependency.Registers typeId) →
        dependency.lifetime = .transient ∧ dependency.dependencies = [] := by
    decide
  have hfree : ∀ service ∈ metadata, service.lifetime = .singleton →
      ∀ dependency, Uses metadata service dependency → ¬ NeedsScope metadata dependency := by
    intro service hservice hlifetime dependency ⟨hmem, huses⟩ hneeds
    obtain ⟨htransient, hnone⟩ := hclock service hservice hlifetime dependency hmem huses
    cases hneeds with
    | here hscoped => cases htransient.symm.trans hscoped
    | through _ hdeeper _ =>
      obtain ⟨-, typeId, hid, -⟩ := hdeeper
      rw [hnone] at hid
      cases hid
  have hboth := (start_up_unscoped_iff metadata toString (fun _ => false) false [1] hanalysis).mpr
    ⟨hfree, nofun⟩
  exact ⟨hanalysis, hboth.2⟩

/-- A singleton that uses a scoped service through a transient is accepted and does not start. -/
theorem captured_scope_accepted : let metadata : List ServiceMetadata :=
      [⟨1, "Cache", none, .singleton, [2]⟩, ⟨2, "Client", none, .transient, [3]⟩,
        ⟨3, "Session", none, .scoped, []⟩]
    analyzeServiceGraph metadata = .ok [1] ∧
    Host.build ⟨metadata, toString, fun _ => false, false, fun _ => none⟩ =
      some (.error (.rejected (.serviceInitializationFailed "Cache"
        (.dependencyResolutionFailed "Cache" "2"
          (.dependencyResolutionFailed "Client" "3" (.scopeRequired "3")))))) := by
  decide

end Lily.Injection
