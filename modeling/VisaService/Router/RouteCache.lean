import VisaService.Lib.Run
import VisaService.Router.AllPaths

/-!
# The route cache

`get_routes` memoizes the simple paths between two nodes. A lookup that misses computes its
routes under the read lock and commits them later under the write lock; in between the
topology may change, which the generation number reveals. Removing a link or a node evicts
only the entries that a reverse index finds; every other change of links flushes the cache.

Main result: `routes_coherent`, over every interleaving of topology changes with lookups and
commits. Each call keeps `Coherent`: additions leave nothing cached, removals leave the entries
whose routes avoid what is removed.
-/
namespace VisaService

open Lib

/-! ### Cache keys -/

/-- Link attribute matches, which carry nothing yet. -/
inductive AttrMatch where
  | mk
  deriving DecidableEq, Repr

structure RouteHint where
  directOnly : Bool
  requireLinkedPath : Bool
  anyLinkHas : List AttrMatch
  noLinkHas : List AttrMatch
  allLinksHave : List AttrMatch
  deriving DecidableEq, Repr

structure RouteCacheKey where
  a : IpAddr
  b : IpAddr
  hint : Option RouteHint
  deriving DecidableEq, Repr

theorem AttrMatch.list_ext {first second : List AttrMatch} (same : first.length = second.length) :
    first = second := by
  refine List.ext_getElem same fun i _ _ => ?_
  cases first[i]
  cases second[i]
  rfl

/-- The content of a hint as numbers. -/
def RouteHint.code (hint : RouteHint) : List Nat :=
  [hint.directOnly.toNat, hint.requireLinkedPath.toNat, hint.anyLinkHas.length,
    hint.noLinkHas.length, hint.allLinksHave.length]

theorem RouteHint.code_injective : Function.Injective RouteHint.code := by
  rintro ⟨direct, linked, any, no, all⟩ ⟨direct', linked', any', no', all'⟩ same
  simp only [code, List.cons.injEq, and_true] at same
  obtain ⟨sameDirect, sameLinked, sameAny, sameNo, sameAll⟩ := same
  have flags : Function.Injective Bool.toNat := by decide
  rw [flags sameDirect, flags sameLinked, AttrMatch.list_ext sameAny, AttrMatch.list_ext sameNo,
    AttrMatch.list_ext sameAll]

/-- Position of a key in the order of the maps over keys. -/
def RouteCacheKey.code (key : RouteCacheKey) : List Nat :=
  key.a.rank :: key.b.rank :: (key.hint.map RouteHint.code).getD []

theorem RouteCacheKey.code_injective : Function.Injective RouteCacheKey.code := by
  rintro ⟨a, b, hint⟩ ⟨a', b', hint'⟩ same
  simp only [code, List.cons.injEq] at same
  obtain ⟨sameA, sameB, sameHint⟩ := same
  rw [IpAddr.rank_injective sameA, IpAddr.rank_injective sameB]
  cases hint with
  | none =>
    cases hint' with
    | none => rfl
    | some other => simp [RouteHint.code] at sameHint
  | some hint =>
    cases hint' with
    | none => simp [RouteHint.code] at sameHint
    | some other => rw [RouteHint.code_injective sameHint]

instance : Ord RouteCacheKey := ⟨compareOn RouteCacheKey.code⟩

instance : Std.TransOrd RouteCacheKey := inferInstanceAs (Std.TransCmp (compareOn _))

instance : Std.LawfulEqOrd RouteCacheKey where
  eq_of_compare same := RouteCacheKey.code_injective (Std.compare_eq_iff_eq.mp same)

/-! ### The router -/

/-- `RouterInner`. The generation is a `u64` that is counted up by one and does not wrap. -/
structure Router where
  topology : Graph
  routeCache : HashMap RouteCacheKey (List Route)
  linkToCacheKeys : Rows LinkId RouteCacheKey
  topoGeneration : Nat

/-- One link to install as part of a batch. -/
structure LinkSpec where
  a : IpAddr
  b : IpAddr
  id : LinkId
  attributes : List Attribute
  cost : UInt32

namespace Router

def new : Router :=
  { topology := .empty, routeCache := ∅, linkToCacheKeys := ∅, topoGeneration := 0 }

/-- The distinct elements of a list, as collecting into a hash set gives them. -/
def distinct {K : Type} [Ord K] [Std.TransOrd K] (keys : List K) : List K :=
  (Std.ExtTreeSet.ofList keys compare).toList

/-- Drop one cache entry, and its key from the rows of the links its routes traverse. -/
def invalidateKey (router : Router) (key : RouteCacheKey) : Router :=
  match router.routeCache[key]? with
  | none => router
  | some routes =>
    { router with
      routeCache := router.routeCache.erase key
      linkToCacheKeys := router.linkToCacheKeys.dropAll (distinct (routes.flatMap Route.links)) key }

def invalidateKeys (router : Router) (keys : List RouteCacheKey) : Router :=
  keys.foldl invalidateKey router

def flush (router : Router) : Router := { router with routeCache := ∅, linkToCacheKeys := ∅ }

/-- The keys of the cached routes that traverse the link. -/
def keysOf (router : Router) (id : LinkId) : List RouteCacheKey :=
  (router.linkToCacheKeys[id]?.map fun keys => keys.toList).getD []

/-- Put a changed topology in place. -/
def withTopology (router : Router) (topology : Graph) : Router :=
  { router with topology, topoGeneration := router.topoGeneration + 1 }

def addNode (router : Router) (node : IpAddr) : Router × Except TopologyError Unit :=
  match router.topology.addNode node with
  | .error failure => (router, .error failure)
  | .ok topology => (router.withTopology topology, .ok ())

/-- Evicts the routes over the node's links, then those from or to the node. -/
def removeNode (order : SetOrder LinkId) (router : Router) (node : IpAddr) : Router :=
  let incident := (router.topology.nodes[node]?.map fun data => order.list data.edges).getD []
  let router := router.invalidateKeys (distinct (incident.flatMap router.keysOf))
  let router := router.invalidateKeys
    (router.routeCache.keys.filter fun key => key.a = node ∨ key.b = node)
  router.withTopology (router.topology.removeNode order node)

/-- The cache is flushed before the link is checked, so a rejected link leaves it empty. -/
def addLink (order : SetOrder LinkId) (router : Router) (a b : IpAddr) (id : LinkId)
    (attributes : List Attribute) (cost : UInt32) : Router × Except TopologyError Unit :=
  let router := router.flush
  match router.topology.addLink order a b id attributes cost with
  | .error failure => (router, .error failure)
  | .ok topology => (router.withTopology topology, .ok ())

/-- The additions of a batch. At the first one that is rejected those before it are taken
out again. -/
def installBatch (order : SetOrder LinkId) :
    Graph → List LinkId → List LinkSpec → Graph × Except TopologyError Unit
  | topology, _, [] => (topology, .ok ())
  | topology, added, spec :: rest =>
    match topology.addLink order spec.a spec.b spec.id spec.attributes spec.cost with
    | .error failure => (added.reverse.foldl (Graph.removeLink order) topology, .error failure)
    | .ok topology => installBatch order topology (added ++ [spec.id]) rest

def applyLinkBatch (order : SetOrder LinkId) (router : Router) (removals : List LinkId)
    (additions : List LinkSpec) : Router × Except TopologyError Unit :=
  let removed := removals.foldl (Graph.removeLink order) router.topology
  let (topology, result) := installBatch order removed [] additions
  (router.flush.withTopology topology, result)

def removeLink (order : SetOrder LinkId) (router : Router) (id : LinkId) : Router :=
  let router := router.invalidateKeys (router.keysOf id)
  let router := { router with linkToCacheKeys := router.linkToCacheKeys.erase id }
  router.withTopology (router.topology.removeLink order id)

def replaceLinkBetween (order : SetOrder LinkId) (router : Router) (a b : IpAddr) (id : LinkId)
    (attributes : List Attribute) (cost : UInt32) : Router × Except TopologyError Unit :=
  match router.topology.replaceLink order a b id attributes cost with
  | .error failure => (router, .error failure)
  | .ok topology => (router.flush.withTopology topology, .ok ())

/-- The hint is ignored. -/
def computeRoutes (order : SetOrder LinkId) (topology : Graph) (a b : IpAddr)
    (_hint : Option RouteHint) : List Route :=
  if a = b then [.newDirect a]
  else
    (topology.getAllPaths order a b).map fun (links, cost) => { kind := .multihop, links, cost }

end Router

/-- A `get_routes` call between its two locks. -/
structure PendingRoutes where
  key : RouteCacheKey
  topoGen : Nat
  computed : List Route

namespace Router

/-- `get_routes` under the read lock: a cached list is returned, otherwise the computed one is
still to be committed. -/
def lookupRoutes (order : SetOrder LinkId) (router : Router) (key : RouteCacheKey) :
    List Route ⊕ PendingRoutes :=
  match router.routeCache[key]? with
  | some routes => .inl routes
  | none =>
    .inr { key, topoGen := router.topoGeneration
           computed := computeRoutes order router.topology key.a key.b key.hint }

/-- `get_routes` under the write lock, with the list it returns. -/
def commitRoutes (order : SetOrder LinkId) (router : Router) (pending : PendingRoutes) :
    Router × List Route :=
  let key := pending.key
  if router.topoGeneration ≠ pending.topoGen then
    (router, computeRoutes order router.topology key.a key.b key.hint)
  else
    match router.routeCache[key]? with
    | some routes => (router, routes)
    | none =>
      ({ router with
          linkToCacheKeys := router.linkToCacheKeys.addAll (pending.computed.flatMap Route.links) key
          routeCache := router.routeCache.insert key pending.computed },
        pending.computed)

end Router

/-! ### Calls in any order -/

/-- The router with the `get_routes` calls that are between their two locks. -/
structure Routing where
  router : Router
  inFlight : List PendingRoutes

inductive RouterCall where
  | addNode (node : IpAddr)
  | removeNode (node : IpAddr)
  | addLink (a b : IpAddr) (id : LinkId) (attributes : List Attribute) (cost : UInt32)
  | applyLinkBatch (removals : List LinkId) (additions : List LinkSpec)
  | removeLink (id : LinkId)
  | replaceLinkBetween (a b : IpAddr) (id : LinkId) (attributes : List Attribute) (cost : UInt32)
  | lookupRoutes (key : RouteCacheKey)
  /-- The call at this position of those in flight gets the write lock. -/
  | commitRoutes (index : Nat)

/-- A call, with the order in which the hash sets are iterated during it. -/
structure RouterEvent where
  order : SetOrder LinkId
  call : RouterCall

namespace Routing

def init : Routing := { router := .new, inFlight := [] }

/-- One call, or one of the two parts of `get_routes`. Rejected changes are calls as well. -/
def step (state : Routing) (event : RouterEvent) : Option Routing :=
  let { router, inFlight } := state
  let order := event.order
  match event.call with
  | .addNode node => some { state with router := (router.addNode node).1 }
  | .removeNode node => some { state with router := router.removeNode order node }
  | .addLink a b id attributes cost =>
    some { state with router := (router.addLink order a b id attributes cost).1 }
  | .applyLinkBatch removals additions =>
    some { state with router := (router.applyLinkBatch order removals additions).1 }
  | .removeLink id => some { state with router := router.removeLink order id }
  | .replaceLinkBetween a b id attributes cost =>
    some { state with router := (router.replaceLinkBetween order a b id attributes cost).1 }
  | .lookupRoutes key =>
    match router.lookupRoutes order key with
    | .inl _ => some state
    | .inr pending => some { state with inFlight := inFlight ++ [pending] }
  | .commitRoutes index =>
    match inFlight[index]? with
    | none => none
    | some pending =>
      some { router := (router.commitRoutes order pending).1, inFlight := inFlight.eraseIdx index }

/-- The list that `get_routes` returns with this event, and the key it was called for. -/
def returns (state : Routing) (event : RouterEvent) : Option (RouteCacheKey × List Route) :=
  match event.call with
  | .lookupRoutes key =>
    match state.router.lookupRoutes event.order key with
    | .inl routes => some (key, routes)
    | .inr _ => none
  | .commitRoutes index =>
    state.inFlight[index]?.map fun pending =>
      (pending.key, (state.router.commitRoutes event.order pending).2)
  | _ => none

end Routing

/-- As a set of links and costs, the routes are the simple paths from `a` to `b`. -/
def AllRoutes (topology : Graph) (a b : IpAddr) (routes : List Route) : Prop :=
  ∀ links cost, (∃ route ∈ routes, route.links = links ∧ route.cost = cost) ↔
    topology.SimplePath a b links ∧ cost.toNat = topology.pathCost links

/-- What holds of the router and the calls in flight. -/
structure Coherent (state : Routing) : Prop where
  wf : state.router.topology.Wf
  cached : ∀ (key : RouteCacheKey) (routes : List Route),
    state.router.routeCache[key]? = some routes →
      AllRoutes state.router.topology key.a key.b routes
  indexed : ∀ (key : RouteCacheKey) (routes : List Route),
    state.router.routeCache[key]? = some routes →
      ∀ route ∈ routes, ∀ id ∈ route.links, state.router.linkToCacheKeys.Holds id key
  inFlight : ∀ pending ∈ state.inFlight, pending.topoGen ≤ state.router.topoGeneration ∧
    (pending.topoGen = state.router.topoGeneration →
      AllRoutes state.router.topology pending.key.a pending.key.b pending.computed)

/-! ### Routes under changes of the topology -/

theorem computeRoutes_all {topology : Graph} (wf : topology.Wf) (order : SetOrder LinkId) (a b : IpAddr)
    (hint : Option RouteHint) :
    AllRoutes topology a b (Router.computeRoutes order topology a b hint) := by
  intro links cost
  rw [← topology.mem_getAllPaths wf order]
  unfold Router.computeRoutes
  split
  next same =>
    simp only [Graph.getAllPaths, if_pos same, Route.newDirect, List.mem_singleton,
      exists_eq_left, Prod.mk.injEq, eq_comm]
  next apart =>
    constructor
    · rintro ⟨route, member, rfl, rfl⟩
      obtain ⟨⟨links, cost⟩, listed, rfl⟩ := List.mem_map.mp member
      exact listed
    · exact fun listed => ⟨_, List.mem_map.mpr ⟨_, listed, rfl⟩, rfl, rfl⟩

variable {a b : IpAddr} {links : List LinkId}

theorem Graph.SimplePath.mem_edges {graph : Graph} (isPath : graph.SimplePath a b links) :
    ∀ id ∈ links, id ∈ graph.edges := by
  obtain ⟨steps, ⟨walk, -⟩, rfl⟩ := isPath
  induction walk with
  | nil v => simp
  | cons taken onward ih =>
    intro id member
    rcases List.mem_cons.mp member with rfl | later
    · obtain ⟨link, isLink, -⟩ := taken
      exact HashMap.mem_of_get isLink
    · exact ih id later

variable {first second before : Graph} {routes : List Route}

theorem Graph.SimplePath.transfer (isPath : first.SimplePath a b links)
    (same : ∀ id ∈ links, second.edges[id]? = first.edges[id]?) :
    second.SimplePath a b links := by
  obtain ⟨steps, ⟨walk, nodup⟩, rfl⟩ := isPath
  refine ⟨steps, ⟨walk.imp fun v step member joins => ?_, nodup⟩, rfl⟩
  obtain ⟨link, isLink, joined⟩ := joins
  exact ⟨link, (same step.1 (List.mem_map.mpr ⟨step, member, rfl⟩)).trans isLink, joined⟩

theorem Graph.pathCost_congr (same : ∀ id ∈ links, second.edges[id]? = first.edges[id]?) :
    second.pathCost links = first.pathCost links := by
  rw [pathCost, pathCost]
  congr 2
  refine List.map_congr_left fun id member => ?_
  rw [linkCost, linkCost, same id member]

/-- Routes that avoid what is removed are all the routes that are left. -/
theorem AllRoutes.of_removed {after : Graph} (all : AllRoutes before a b routes)
    (gone : LinkId → Prop) [DecidablePred gone]
    (edges : ∀ id : LinkId, after.edges[id]? = if gone id then none else before.edges[id]?)
    (avoids : ∀ route ∈ routes, ∀ id ∈ route.links, ¬ gone id) : AllRoutes after a b routes := by
  have kept {id : LinkId} (stays : ¬ gone id) : after.edges[id]? = before.edges[id]? := by
    rw [edges, if_neg stays]
  intro links cost
  constructor
  · rintro ⟨route, member, rfl, rfl⟩
    obtain ⟨isPath, isCost⟩ := (all route.links route.cost).mp ⟨route, member, rfl, rfl⟩
    have same : ∀ id ∈ route.links, after.edges[id]? = before.edges[id]? :=
      fun id isLink => kept (avoids route member id isLink)
    exact ⟨isPath.transfer same, isCost.trans (Graph.pathCost_congr same).symm⟩
  · rintro ⟨isPath, isCost⟩
    have same : ∀ id ∈ links, before.edges[id]? = after.edges[id]? := by
      intro id isLink
      refine (kept fun removed => ?_).symm
      have present := isPath.mem_edges id isLink
      rw [Std.ExtTreeMap.mem_iff_isSome_getElem?, edges, if_pos removed] at present
      cases present
    exact (all links cost).mpr
      ⟨isPath.transfer same, isCost.trans (Graph.pathCost_congr same).symm⟩

theorem AllRoutes.congr {after : Graph} (all : AllRoutes before a b routes)
    (same : after.edges = before.edges) :
    AllRoutes after a b routes :=
  all.of_removed (fun _ => False) (fun id => by simp [same]) (by simp)

/-! ### Eviction -/

namespace Router

theorem mem_distinct {K : Type} [DecidableEq K] [Ord K] [Std.TransOrd K] [Std.LawfulEqOrd K]
    {keys : List K} {key : K} : key ∈ distinct keys ↔ key ∈ keys := by
  rw [distinct, Std.ExtTreeSet.mem_toList, Std.ExtTreeSet.mem_ofList, List.contains_iff_mem]

variable {key : RouteCacheKey}

theorem mem_keysOf {router : Router} {id : LinkId} :
    key ∈ router.keysOf id ↔ router.linkToCacheKeys.Holds id key := by
  unfold keysOf Rows.Holds
  cases router.linkToCacheKeys[id]? with
  | none => simp
  | some keys => simp

theorem invalidateKey_cached (router : Router) (key other : RouteCacheKey) :
    (router.invalidateKey key).routeCache[other]? =
      if key = other then none else router.routeCache[other]? := by
  unfold invalidateKey
  split
  next absent =>
    by_cases same : key = other
    · subst same
      simpa using absent
    · rw [if_neg same]
  next routes found => exact HashMap.get_erase _ _ _

theorem invalidateKey_holds (router : Router) {other : RouteCacheKey} (apart : other ≠ key)
    (id : LinkId) :
    (router.invalidateKey key).linkToCacheKeys.Holds id other ↔
      router.linkToCacheKeys.Holds id other := by
  unfold invalidateKey
  split
  · rfl
  · simp [Rows.holds_dropAll, apart]

theorem invalidateKey_topology (router : Router) (key : RouteCacheKey) :
    (router.invalidateKey key).topology = router.topology ∧
      (router.invalidateKey key).topoGeneration = router.topoGeneration := by
  unfold invalidateKey
  split <;> exact ⟨rfl, rfl⟩

/-- Eviction removes the entries with these keys; the others stay, and stay indexed. -/
theorem invalidateKeys_spec (router : Router) (keys : List RouteCacheKey) :
    (router.invalidateKeys keys).topology = router.topology ∧
      (router.invalidateKeys keys).topoGeneration = router.topoGeneration ∧
      (∀ key : RouteCacheKey, (router.invalidateKeys keys).routeCache[key]? =
        if key ∈ keys then none else router.routeCache[key]?) ∧
      ∀ key, key ∉ keys → ∀ id, (router.invalidateKeys keys).linkToCacheKeys.Holds id key ↔
        router.linkToCacheKeys.Holds id key := by
  induction keys generalizing router with
  | nil => simp [invalidateKeys]
  | cons first rest ih =>
    obtain ⟨sameTopology, sameGeneration, cached, holds⟩ := ih (router.invalidateKey first)
    obtain ⟨keptTopology, keptGeneration⟩ := router.invalidateKey_topology first
    refine ⟨sameTopology.trans keptTopology, sameGeneration.trans keptGeneration, ?_, ?_⟩
    · intro key
      have tail := cached key
      rw [invalidateKey_cached] at tail
      refine tail.trans ?_
      by_cases later : key ∈ rest
      · simp [later]
      · by_cases same : first = key
        · simp [same]
        · simp [later, same, Ne.symm (Ne.intro same)]
    · intro key outside id
      obtain ⟨apart, notLater⟩ := not_or.mp (mt List.mem_cons.mpr outside)
      exact (holds key notLater id).trans (router.invalidateKey_holds apart id)

end Router

namespace Coherent

variable {state : Routing}

variable (coherent : Coherent state)
include coherent

theorem invalidateKeys (keys : List RouteCacheKey) :
    Coherent { state with router := state.router.invalidateKeys keys } := by
  obtain ⟨sameTopology, sameGeneration, cached, holds⟩ := state.router.invalidateKeys_spec keys
  have stillCached {key : RouteCacheKey} {routes : List Route}
      (found : (state.router.invalidateKeys keys).routeCache[key]? = some routes) :
      key ∉ keys ∧ state.router.routeCache[key]? = some routes := by
    rw [cached] at found
    split at found
    · cases found
    next outside => exact ⟨outside, found⟩
  refine ⟨by simpa [sameTopology] using coherent.wf, fun key routes found => ?_,
    fun key routes found route member id isLink => ?_, ?_⟩
  · simp only [sameTopology]
    exact coherent.cached key routes (stillCached found).2
  · obtain ⟨outside, before⟩ := stillCached found
    exact (holds key outside id).mpr (coherent.indexed key routes before route member id isLink)
  · simp only [sameTopology, sameGeneration]
    exact coherent.inFlight

theorem flush :
    Coherent { state with router := state.router.flush } where
  wf := coherent.wf
  cached key routes found := by simp [Router.flush] at found
  indexed key routes found := by simp [Router.flush] at found
  inFlight := coherent.inFlight

variable {topology : Graph}

theorem withTopology (wf : topology.Wf)
    (kept : ∀ (key : RouteCacheKey) (routes : List Route), state.router.routeCache[key]? =
      some routes → AllRoutes topology key.a key.b routes) :
    Coherent { state with router := state.router.withTopology topology } where
  wf := wf
  cached := kept
  indexed := coherent.indexed
  inFlight pending member := by
    have older := (coherent.inFlight pending member).1
    simp only [Router.withTopology]
    exact ⟨by omega, fun same => by omega⟩

theorem flush_withTopology (wf : topology.Wf) :
    Coherent { state with router := state.router.flush.withTopology topology } :=
  coherent.flush.withTopology wf fun key routes found => by simp [Router.flush] at found

theorem addNode (node : IpAddr) :
    Coherent { state with router := (state.router.addNode node).1 } := by
  unfold Router.addNode
  split
  · exact coherent
  next topology added =>
    refine coherent.withTopology (coherent.wf.addNode added) fun key routes found => ?_
    refine (coherent.cached key routes found).congr ?_
    unfold Graph.addNode at added
    split at added <;> cases added
    rfl

theorem addLink (order : SetOrder LinkId) (a b : IpAddr) (id : LinkId)
    (attributes : List Attribute) (cost : UInt32) :
    Coherent { state with router := (state.router.addLink order a b id attributes cost).1 } := by
  unfold Router.addLink
  simp only
  split
  · exact coherent.flush
  next topology added => exact coherent.flush_withTopology (coherent.wf.addLink added)

theorem replaceLinkBetween (order : SetOrder LinkId) (a b : IpAddr)
    (id : LinkId) (attributes : List Attribute) (cost : UInt32) :
    Coherent { state with
      router := (state.router.replaceLinkBetween order a b id attributes cost).1 } := by
  unfold Router.replaceLinkBetween
  split
  · exact coherent
  next topology replaced => exact coherent.flush_withTopology (coherent.wf.replaceLink replaced)

omit coherent

theorem installBatch_wf {order : SetOrder LinkId} {additions : List LinkSpec} (wf : topology.Wf)
    (added : List LinkId) :
    (Router.installBatch order topology added additions).1.Wf := by
  induction additions generalizing topology added with
  | nil => exact wf
  | cons spec rest ih =>
    unfold Router.installBatch
    split
    · exact wf.removeLinkAll order added.reverse
    next next installed => exact ih (wf.addLink installed) _

variable (coherent : Coherent state)
include coherent

variable (order : SetOrder LinkId)
include order

theorem applyLinkBatch (removals : List LinkId)
    (additions : List LinkSpec) :
    Coherent { state with router := (state.router.applyLinkBatch order removals additions).1 } :=
  coherent.flush_withTopology (installBatch_wf (coherent.wf.removeLinkAll order removals) [])

theorem removeLink (id : LinkId) :
    Coherent { state with router := state.router.removeLink order id } := by
  have evicted := coherent.invalidateKeys (state.router.keysOf id)
  obtain ⟨-, -, cached, -⟩ := state.router.invalidateKeys_spec (state.router.keysOf id)
  -- what is still cached does not use the link
  have avoids {key : RouteCacheKey} {routes : List Route}
      (found : (state.router.invalidateKeys (state.router.keysOf id)).routeCache[key]? =
        some routes) : ∀ route ∈ routes, ∀ other ∈ route.links, ¬ id = other := by
    rintro route member other isLink rfl
    rw [cached] at found
    split at found
    · cases found
    next outside =>
      exact outside (Router.mem_keysOf.mpr
        (coherent.indexed key routes found route member id isLink))
  have unindexed : Coherent { state with
      router := { state.router.invalidateKeys (state.router.keysOf id) with
        linkToCacheKeys :=
          (state.router.invalidateKeys (state.router.keysOf id)).linkToCacheKeys.erase id } } := by
    refine { evicted with indexed := fun key routes found route member other isLink => ?_ }
    obtain ⟨keys, isRow, isKey⟩ := evicted.indexed key routes found route member other isLink
    refine ⟨keys, ?_, isKey⟩
    simp only [HashMap.get_erase]
    rw [if_neg (avoids found route member other isLink)]
    exact isRow
  refine unindexed.withTopology ((evicted.wf.removeLinkImpl id).recompute order)
    fun key routes found => ?_
  exact (evicted.cached key routes found).of_removed (id = ·)
    (fun other => Graph.removeLinkImpl_edge _ id other) (avoids found)

theorem removeNode (node : IpAddr) :
    Coherent { state with router := state.router.removeNode order node } := by
  unfold Router.removeNode
  simp only
  generalize isIncident : (state.router.topology.nodes[node]?.map fun data =>
    order.list data.edges).getD [] = incident
  generalize areKeys : Router.distinct (incident.flatMap state.router.keysOf) = keys
  obtain ⟨sameTopology, -, cached, -⟩ := state.router.invalidateKeys_spec keys
  have evicted := coherent.invalidateKeys keys
  generalize areEnds : (state.router.invalidateKeys keys).routeCache.keys.filter
    (fun key => key.a = node ∨ key.b = node) = endpointKeys
  have evictedBoth := evicted.invalidateKeys endpointKeys
  obtain ⟨keptTopology, -, cachedBoth, -⟩ :=
    (state.router.invalidateKeys keys).invalidateKeys_spec endpointKeys
  refine evictedBoth.withTopology (evictedBoth.wf.removeNode order node) fun key routes found => ?_
  refine (evictedBoth.cached key routes found).of_removed _
    (fun other => Graph.removeNode_edge _ order node other) fun route member id isLink gone => ?_
  -- a route over one of the node's links was evicted with its key
  simp only [cachedBoth] at found
  split at found
  · cases found
  rw [cached] at found
  split at found
  · cases found
  next outside =>
    refine outside ?_
    rw [← areKeys, Router.mem_distinct, List.mem_flatMap]
    refine ⟨id, ?_, Router.mem_keysOf.mpr
      (coherent.indexed key routes found route member id isLink)⟩
    simp only [keptTopology, sameTopology, Option.any_eq_true, decide_eq_true_eq] at gone
    obtain ⟨data, isNode, listed⟩ := gone
    rw [← isIncident, isNode]
    exact order.mem_list.mpr listed

variable {pending : PendingRoutes}

theorem lookupRoutes {key : RouteCacheKey}
    (missed : state.router.lookupRoutes order key = .inr pending) :
    Coherent { state with inFlight := state.inFlight ++ [pending] } := by
  refine { coherent with inFlight := fun other member => ?_ }
  rcases List.mem_append.mp member with before | isNew
  · exact coherent.inFlight other before
  · cases List.mem_singleton.mp isNew
    unfold Router.lookupRoutes at missed
    split at missed
    · cases missed
    · cases missed
      exact ⟨Nat.le_refl _, fun _ => computeRoutes_all coherent.wf order key.a key.b key.hint⟩

theorem commitRoutes (member : pending ∈ state.inFlight) :
    Coherent { state with router := (state.router.commitRoutes order pending).1 } ∧
      AllRoutes state.router.topology pending.key.a pending.key.b
        (state.router.commitRoutes order pending).2 := by
  unfold Router.commitRoutes
  simp only
  split
  · exact ⟨coherent, computeRoutes_all coherent.wf order _ _ pending.key.hint⟩
  next current =>
    split
    next routes found => exact ⟨coherent, coherent.cached pending.key routes found⟩
    next absent =>
      have all := (coherent.inFlight pending member).2 (not_not.mp current).symm
      refine ⟨⟨coherent.wf, fun key routes found => ?_, fun key routes found => ?_,
        coherent.inFlight⟩, all⟩
      · rcases HashMap.of_get_insert found with ⟨rfl, rfl⟩ | ⟨-, before⟩
        · exact all
        · exact coherent.cached key routes before
      · intro route isRoute id isLink
        rw [Rows.holds_addAll]
        rcases HashMap.of_get_insert found with ⟨rfl, rfl⟩ | ⟨-, before⟩
        · exact .inl ⟨List.mem_flatMap.mpr ⟨route, isRoute, isLink⟩, rfl⟩
        · exact .inr (coherent.indexed key routes before route isRoute id isLink)

omit order

theorem step {next : Routing} {event : RouterEvent}
    (stepped : state.step event = some next) : Coherent next := by
  obtain ⟨order, call⟩ := event
  simp only [Routing.step] at stepped
  cases call with
  | addNode node =>
    cases stepped
    exact coherent.addNode node
  | removeNode node =>
    cases stepped
    exact coherent.removeNode order node
  | addLink a b id attributes cost =>
    cases stepped
    exact coherent.addLink order a b id attributes cost
  | applyLinkBatch removals additions =>
    cases stepped
    exact coherent.applyLinkBatch order removals additions
  | removeLink id =>
    cases stepped
    exact coherent.removeLink order id
  | replaceLinkBetween a b id attributes cost =>
    cases stepped
    exact coherent.replaceLinkBetween order a b id attributes cost
  | lookupRoutes key =>
    simp only at stepped
    split at stepped
    · cases stepped
      exact coherent
    next pending missed =>
      cases stepped
      exact coherent.lookupRoutes order missed
  | commitRoutes index =>
    simp only at stepped
    split at stepped
    · cases stepped
    next pending found =>
      cases stepped
      have committed := (coherent.commitRoutes order (List.mem_of_getElem? found)).1
      exact ⟨committed.wf, committed.cached, committed.indexed,
        fun other member => committed.inFlight other (List.mem_of_mem_eraseIdx member)⟩

omit coherent

theorem init : Coherent .init where
  wf := Graph.wf_empty
  cached key routes found := by simp [Routing.init, Router.new] at found
  indexed key routes found := by simp [Routing.init, Router.new] at found
  inFlight pending member := by cases member

end Coherent

/-- In every state that calls can lead to, cached lists are all the routes of the current
topology and their links are indexed, and whatever `get_routes` returns next is all the routes
of the topology it is returned for. -/
theorem routes_coherent {events : List RouterEvent} {state : Routing}
    (ran : run Routing.step .init events = some state) :
    (∀ (key : RouteCacheKey) (routes : List Route),
      state.router.routeCache[key]? = some routes →
        AllRoutes state.router.topology key.a key.b routes ∧
          ∀ route ∈ routes, ∀ id ∈ route.links, state.router.linkToCacheKeys.Holds id key) ∧
      ∀ event key routes, state.returns event = some (key, routes) →
        AllRoutes state.router.topology key.a key.b routes := by
  have coherent : Coherent state :=
    run_preserves (fun _ _ _ held stepped => held.step stepped) .init ran
  refine ⟨fun key routes found =>
    ⟨coherent.cached key routes found, coherent.indexed key routes found⟩, ?_⟩
  rintro ⟨order, call⟩ key routes returned
  unfold Routing.returns at returned
  split at returned
  next key' isLookup =>
    simp only [Router.lookupRoutes] at returned
    cases found : state.router.routeCache[key']? with
    | none =>
      rw [found] at returned
      cases returned
    | some cached =>
      rw [found] at returned
      cases returned
      exact coherent.cached key routes found
  next index isCommit =>
    obtain ⟨pending, found, isReturned⟩ := Option.map_eq_some_iff.mp returned
    cases isReturned
    exact (coherent.commitRoutes order (List.mem_of_getElem? found)).2
  · cases returned

namespace RoutingSample

def nodeA : IpAddr := .v4 0x0a000001
def nodeB : IpAddr := .v4 0x0a000002
def nodeC : IpAddr := .v4 0x0a000003
def nodeD : IpAddr := .v4 0x0a000004

def keyAB : RouteCacheKey := ⟨nodeA, nodeB, none⟩

/-- The routes between A and B are cached; those between C and D are computed before their
link is removed and committed after. -/
def events : List RouterEvent :=
  [.addNode nodeA, .addNode nodeB, .addNode nodeC, .addNode nodeD,
    .addLink nodeA nodeB "ab" [] 1, .addLink nodeB nodeC "bc" [] 2, .addLink nodeA nodeC "ac" [] 4,
    .addLink nodeC nodeD "cd" [] 1, .lookupRoutes keyAB, .commitRoutes 0,
    .lookupRoutes ⟨nodeC, nodeD, none⟩, .removeLink "cd", .commitRoutes 0].map
    (⟨.ascending, ·⟩)

def after : Routing := (run Routing.step .init events).getD .init

end RoutingSample

open RoutingSample in
theorem routes_coherent_after_unrelated_removal :
    after.router.routeCache[keyAB]? =
        some [⟨.multihop, ["ac", "bc"], 6⟩, ⟨.multihop, ["ab"], 1⟩] ∧
      AllRoutes after.router.topology nodeA nodeB
        [⟨.multihop, ["ac", "bc"], 6⟩, ⟨.multihop, ["ab"], 1⟩] := by
  have ran : run Routing.step .init events = some after :=
    run_eq_some_getD (by decide +kernel) .init
  have isCached : after.router.routeCache[keyAB]? =
      some [⟨.multihop, ["ac", "bc"], 6⟩, ⟨.multihop, ["ab"], 1⟩] := by decide +kernel
  exact ⟨isCached, ((routes_coherent ran).1 keyAB _ isCached).1⟩

end VisaService
