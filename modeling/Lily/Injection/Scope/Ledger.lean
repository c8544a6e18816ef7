import Lily.Collection.Position
import Lily.Injection.Scope.Context

/-!
# The ledger of a scope

What the cache and the ledger say about the instances published so far, and what the log of the
scope says about itself.
-/

namespace Lily.Injection.Scope

open Transition LifecycleEntry

/-! ## Instances published -/

/-- The instances published, each with the instances that its factory was given. -/
def publications (log : List (Nat × Entry)) : List (ScopedInstance × List Nat) :=
  log.filterMap fun entry =>
    match entry.2 with
    | .published made resolved => some (made, resolved)
    | _ => none

def instances (log : List (Nat × Entry)) : List ScopedInstance := (publications log).map Prod.fst

theorem mem_instances {log : List (Nat × Entry)} {made : ScopedInstance} :
    made ∈ instances log ↔ ∃ i resolved, (i, Entry.published made resolved) ∈ log := by
  simp only [instances, publications, List.mem_map, List.mem_filterMap]
  constructor
  · rintro ⟨⟨found, resolved⟩, ⟨⟨i, entry⟩, hmem, hentry⟩, rfl⟩
    cases entry <;> simp only [Option.some.injEq, reduceCtorEq, Prod.mk.injEq] at hentry
    obtain ⟨rfl, rfl⟩ := hentry
    exact ⟨i, _, hmem⟩
  · rintro ⟨i, resolved, hmem⟩
    exact ⟨(made, resolved), ⟨_, hmem, rfl⟩, rfl⟩

theorem publications_append (log added : List (Nat × Entry)) :
    publications (log ++ added) = publications log ++ publications added :=
  List.filterMap_append

@[simp] theorem instances_append (log added : List (Nat × Entry)) :
    instances (log ++ added) = instances log ++ instances added := by
  simp only [instances, publications_append, List.map_append]

@[simp] theorem instances_nil : instances [] = [] :=
  rfl

@[simp] theorem instances_admitted (i : Nat) (typeId : TypeId) :
    instances [(i, Entry.admitted typeId)] = [] := by
  simp [instances, publications]

@[simp] theorem instances_published (i : Nat) (made : ScopedInstance) (resolved : List Nat) :
    instances [(i, Entry.published made resolved)] = [made] :=
  rfl

@[simp] theorem instances_taken (i : Nat) (list : List ScopedInstance) :
    instances [(i, Entry.taken list)] = [] :=
  rfl

/-! ## Cache and ledger -/

/-- The instance that an entry of the ledger stands for. -/
def LifecycleEntry.within (cache : TypeId → Option ScopedInstance) :
    LifecycleEntry → Option ScopedInstance
  | .cached typeId => cache typeId
  | .owned made => some made

def LifecycleEntry.cachedType : LifecycleEntry → Option TypeId
  | .cached typeId => some typeId
  | .owned _ => none

variable {entries : List LifecycleEntry} {cache : TypeId → Option ScopedInstance}
  {list : List ScopedInstance}

theorem map_within_update {typeId : TypeId} (h : typeId ∉ entries.filterMap cachedType)
    (cache : TypeId → Option ScopedInstance) (found : Option ScopedInstance) :
    entries.map (within (Function.update cache typeId found)) =
      entries.map (within cache) := by
  refine List.map_congr_left fun entry hentry => ?_
  cases entry with
  | owned made => rfl
  | cached other =>
    have hother : other ≠ typeId := by
      rintro rfl
      exact h (List.mem_filterMap.mpr ⟨_, hentry, rfl⟩)
    exact Function.update_of_ne hother _ _

/-- The loop finds every instance, since no type is cached twice. -/
theorem takeEntries_eq (hentries : entries.map (within cache) = list.map some)
    (hnodup : (entries.filterMap cachedType).Nodup) :
    ScopeContext.takeEntries entries cache = list := by
  induction entries generalizing cache list with
  | nil =>
    rw [List.map_nil, eq_comm, List.map_eq_nil_iff] at hentries
    exact hentries.symm
  | cons entry rest ih =>
    cases list with
    | nil => exact absurd hentries (List.cons_ne_nil _ _)
    | cons made list =>
      obtain ⟨hfirst, hrest⟩ := List.cons.inj hentries
      cases entry with
      | owned found =>
        obtain rfl := Option.some.inj hfirst
        rw [ScopeContext.takeEntries, ih hrest hnodup]
      | cached typeId =>
        have hsplit : (typeId :: rest.filterMap cachedType).Nodup := hnodup
        obtain ⟨hfree, hnodup⟩ := List.nodup_cons.mp hsplit
        have hfound : cache typeId = some made := hfirst
        simp only [ScopeContext.takeEntries, hfound]
        rw [ih ((map_within_update hfree cache none).trans hrest) hnodup]

/-- The cache and the ledger hold the instances made, in the order of their creation. -/
structure Ledger (s : ScopeContext) (made : List ScopedInstance) : Prop where
  entries : s.lifecycleInstances.map (within s.scopedInstances) = made.map some
  cachedTypes : (s.lifecycleInstances.filterMap cachedType).Nodup
  cached : ∀ typeId found, s.scopedInstances typeId = some found →
    found ∈ made ∧ found.typeId = typeId ∧ found.kind = .scopedService
  reachable : ∀ found ∈ made, found.kind = .scopedService →
    s.scopedInstances found.typeId = some found

namespace Ledger

variable {s : ScopeContext} {made : List ScopedInstance} (h : Ledger s made)

include h

theorem congr {s' : ScopeContext} (hcache : s'.scopedInstances = s.scopedInstances)
    (hentries : s'.lifecycleInstances = s.lifecycleInstances) : Ledger s' made := by
  obtain ⟨entries, cachedTypes, cached, reachable⟩ := h
  constructor <;> simpa only [hcache, hentries]

theorem unlisted {typeId : TypeId} (hfree : s.scopedInstances typeId = none) :
    typeId ∉ s.lifecycleInstances.filterMap cachedType := by
  intro hmem
  obtain ⟨entry, hentry, htype⟩ := List.mem_filterMap.mp hmem
  cases entry with
  | owned found => cases htype
  | cached other =>
    obtain rfl := Option.some.inj htype
    have hnone : none ∈ made.map some := by
      rw [← h.entries]
      exact List.mem_map.mpr ⟨_, hentry, hfree⟩
    obtain ⟨_, _, hsome⟩ := List.mem_map.mp hnone
    cases hsome

theorem cacheAny {new : ScopedInstance} (hfree : s.scopedInstances new.typeId = none)
    (hkind : new.kind = .scopedService) : Ledger (s.cacheAny new) (made ++ [new]) := by
  have hunlisted := h.unlisted hfree
  have hledger : (s.cacheAny new).lifecycleInstances =
      s.lifecycleInstances ++ [.cached new.typeId] := by
    simp only [ScopeContext.cacheAny, hfree, Option.isNone_none, if_true]
  constructor
  · rw [hledger, List.map_append, List.map_append, ← h.entries,
      ScopeContext.cacheAny, map_within_update hunlisted]
    simp [within]
  · rw [hledger, List.filterMap_append]
    refine List.nodup_append'.mpr ⟨h.cachedTypes, List.nodup_singleton _, ?_⟩
    exact List.disjoint_singleton.mpr hunlisted
  · intro typeId found hfound
    by_cases htype : typeId = new.typeId
    · subst htype
      obtain rfl : new = found := by simpa [ScopeContext.cacheAny] using hfound
      exact ⟨List.mem_append_right _ (List.mem_singleton_self _), rfl, hkind⟩
    · have hold : s.scopedInstances typeId = some found := by
        simpa [ScopeContext.cacheAny, htype] using hfound
      obtain ⟨hmem, hrest⟩ := h.cached typeId found hold
      exact ⟨List.mem_append_left _ hmem, hrest⟩
  · intro found hmem hscoped
    rcases List.mem_append.mp hmem with hold | hnew
    · have hcached := h.reachable found hold hscoped
      have htype : found.typeId ≠ new.typeId := by
        intro heq
        rw [heq, hfree] at hcached
        cases hcached
      simpa [ScopeContext.cacheAny, htype] using hcached
    · obtain rfl := List.mem_singleton.mp hnew
      simp [ScopeContext.cacheAny]

theorem track {new : ScopedInstance} (hkind : new.kind ≠ .scopedService) :
    Ledger (s.track new) (made ++ [new]) := by
  constructor
  · simp only [ScopeContext.track, List.map_append, h.entries]
    rfl
  · have hsame : (s.track new).lifecycleInstances.filterMap cachedType =
        s.lifecycleInstances.filterMap cachedType := by
      rw [ScopeContext.track, List.filterMap_append]
      exact List.append_nil _
    rw [hsame]
    exact h.cachedTypes
  · intro typeId found hfound
    obtain ⟨hmem, hrest⟩ := h.cached typeId found hfound
    exact ⟨List.mem_append_left _ hmem, hrest⟩
  · intro found hmem hscoped
    rcases List.mem_append.mp hmem with hold | hnew
    · exact h.reachable found hold hscoped
    · obtain rfl := List.mem_singleton.mp hnew
      exact absurd hscoped hkind

/-- The list taken for disposal has the instances in the reverse order of their creation. -/
theorem instancesForDisposal : s.instancesForDisposal = made.reverse := by
  refine takeEntries_eq ?_ ?_
  · rw [List.map_reverse, List.map_reverse, h.entries]
  · rw [List.filterMap_reverse]
    exact List.nodup_reverse.mpr h.cachedTypes

end Ledger

/-! ## The log -/

/-- An instance that a resolution of the type may return. -/
def Origin (lifetime : TypeId → ServiceLifetime) (made : List ScopedInstance) (typeId : TypeId)
    (value : Nat) : Prop :=
  ∃ found ∈ made, found.value = value ∧
    (lifetime typeId = .scoped → found.kind = .scopedService ∧ found.typeId = typeId)

theorem Origin.mono {lifetime : TypeId → ServiceLifetime} {made made' : List ScopedInstance}
    {typeId : TypeId} {value : Nat} (h : Origin lifetime made typeId value) (hmade : made ⊆ made') :
    Origin lifetime made' typeId value := by
  obtain ⟨found, hmem, hrest⟩ := h
  exact ⟨found, hmade hmem, hrest⟩

/-- The ledger has not been taken. -/
def Untaken (log : List (Nat × Entry)) : Prop := ∀ i list, (i, Entry.taken list) ∉ log

/-- What the log of a scope says about itself. -/
structure History (lifetime : TypeId → ServiceLifetime) (log : List (Nat × Entry)) : Prop where
  values : ((instances log).map ScopedInstance.value).Nodup
  onePerType : ∀ a ∈ instances log, ∀ b ∈ instances log, a.kind = .scopedService →
    b.kind = .scopedService → a.typeId = b.typeId → a = b
  dependencies : ∀ before made resolved after,
    publications log = before ++ (made, resolved) :: after →
    ∀ value ∈ resolved, ∃ found ∈ before.map Prod.fst, found.value = value
  results : ∀ i typeId value, (i, Entry.returned typeId value) ∈ log →
    Origin lifetime (instances log) typeId value
  last : ∀ before i list after, log = before ++ (i, Entry.taken list) :: after →
    list = (instances before).reverse ∧ after = []

namespace History

variable {lifetime : TypeId → ServiceLifetime} {log : List (Nat × Entry)}

theorem nil : History lifetime [] := by
  constructor
  · exact List.nodup_nil
  · intro a ha
    cases ha
  · intro before made resolved after h
    exact absurd h.symm (List.append_ne_nil_of_right_ne_nil _ (List.cons_ne_nil _ _))
  · intro i typeId value h
    cases h
  · intro before i list after h
    exact absurd h.symm (List.append_ne_nil_of_right_ne_nil _ (List.cons_ne_nil _ _))

theorem append (h : History lifetime log) (huntaken : Untaken log) {i : Nat} {entry : Entry}
    (hsilent : publications [(i, entry)] = [])
    (hresult : ∀ typeId value, entry = .returned typeId value →
      Origin lifetime (instances log) typeId value)
    (htaken : ∀ list, entry = .taken list → list = (instances log).reverse) :
    History lifetime (log ++ [(i, entry)]) := by
  have hpublications : publications (log ++ [(i, entry)]) = publications log := by
    rw [publications_append, hsilent, List.append_nil]
  have hinstances : instances (log ++ [(i, entry)]) = instances log := by
    rw [instances, hpublications, instances]
  constructor
  · rw [hinstances]
    exact h.values
  · rw [hinstances]
    exact h.onePerType
  · rw [hpublications]
    exact h.dependencies
  · rw [hinstances]
    intro j typeId value hmem
    rcases List.mem_append.mp hmem with hold | hnew
    · exact h.results j typeId value hold
    · obtain ⟨-, hentry⟩ := Prod.mk.inj (List.mem_singleton.mp hnew)
      exact hresult typeId value hentry.symm
  · intro before j list after heq
    rcases Position.concat_split heq with ⟨rest, hlog, -⟩ | ⟨rfl, hentry, rfl⟩
    · exact absurd (by rw [hlog]; simp) (huntaken j list)
    · obtain ⟨-, hentry⟩ := Prod.mk.inj hentry
      exact ⟨htaken list hentry.symm, rfl⟩

theorem publish (h : History lifetime log) (huntaken : Untaken log) {i : Nat}
    {new : ScopedInstance} {resolved : List Nat}
    (hvalue : ∀ found ∈ instances log, found.value ≠ new.value)
    (htype : ∀ found ∈ instances log, found.kind = .scopedService →
      new.kind = .scopedService → found.typeId ≠ new.typeId)
    (hresolved : ∀ value ∈ resolved, ∃ found ∈ instances log, found.value = value) :
    History lifetime (log ++ [(i, .published new resolved)]) := by
  constructor
  · rw [instances_append, instances_published, List.map_append]
    refine List.nodup_append'.mpr ⟨h.values, List.nodup_singleton _, ?_⟩
    refine List.disjoint_singleton.mpr fun hmem => ?_
    obtain ⟨found, hfound, heq⟩ := List.mem_map.mp hmem
    exact hvalue found hfound heq
  · rw [instances_append, instances_published]
    intro a ha b hb hascoped hbscoped hab
    rcases List.mem_append.mp ha with haold | hanew <;>
      rcases List.mem_append.mp hb with hbold | hbnew
    · exact h.onePerType a haold b hbold hascoped hbscoped hab
    · obtain rfl := List.mem_singleton.mp hbnew
      exact absurd hab (htype a haold hascoped hbscoped)
    · obtain rfl := List.mem_singleton.mp hanew
      exact absurd hab.symm (htype b hbold hbscoped hascoped)
    · rw [List.mem_singleton.mp hanew, List.mem_singleton.mp hbnew]
  · intro before made given after heq
    rw [publications_append] at heq
    rcases Position.concat_split heq with ⟨rest, hlog, -⟩ | ⟨rfl, hlast, -⟩
    · exact h.dependencies before made given rest hlog
    · obtain ⟨-, rfl⟩ := Prod.mk.inj hlast
      exact hresolved
  · intro j typeId value hmem
    rcases List.mem_append.mp hmem with hold | hnew
    · exact (h.results j typeId value hold).mono (by simp)
    · cases List.mem_singleton.mp hnew
  · intro before j list after heq
    rcases Position.concat_split heq with ⟨rest, hlog, -⟩ | ⟨-, hlast, -⟩
    · exact absurd (by rw [hlog]; simp) (huntaken j list)
    · cases hlast

end History

end Lily.Injection.Scope
