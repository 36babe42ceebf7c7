import VisaService.Lib.Backtrack
import VisaService.Router.RouteCache

/-!
# Best routes and the paths they stand for

`get_best_route` answers from a table that is computed by Dijkstra's algorithm whenever the links
change, and `route_to_path` turns the links of a route into the nodes it visits, from a given
starting node.

Main results: `routed_of_reachable`, best routes are simple paths, and `starts_of_routeToPath`,
where a simple path can be followed from.

The search keeps a tree (`Graph.Tree`): following the predecessors leads back to the start, over
nodes that are no farther away.
-/
namespace VisaService

open Lib

theorem Link.other_other {link : Link} {node : IpAddr} (ends : link.a = node ∨ link.b = node)
    (distinct : link.a ≠ link.b) :
    link.other (link.other node) = node ∧ link.other node ≠ node ∧
      (link.a = link.other node ∨ link.b = link.other node) := by
  unfold Link.other
  rcases ends with rfl | rfl
  · simp [distinct, Ne.symm distinct]
  · simp [distinct]

namespace Graph

variable {graph : Graph} {start : IpAddr} {search next : Dijkstra}

/-! ### The search tree -/

def back (graph : Graph) (prev : HashMap IpAddr LinkId) (node : IpAddr) : Option IpAddr :=
  prev[node]?.bind fun id => graph.edges[id]?.map fun link => link.other node

/-- What the search knows of the nodes it has come to. -/
structure Tree (graph : Graph) (start : IpAddr) (search : Dijkstra) : Prop where
  root : search.dist[start]? = some 0
  stop : search.prev[start]? = none
  nodes : ∀ node ∈ search.dist, node ∈ graph.nodes
  parent : ∀ (node : IpAddr) (cost : Nat), search.dist[node]? = some cost → node ≠ start →
    ∃ id link before, search.prev[node]? = some id ∧ graph.edges[id]? = some link ∧
      (link.a = node ∨ link.b = node) ∧ search.dist[link.other node]? = some before ∧
      before + link.cost.toNat ≤ cost
  traced : ∀ node ∈ search.dist, ∃ n, Leads (graph.back search.prev) start (fun _ => True) n node
  heap : ∀ cost node, (cost, node) ∈ search.heap →
    ∃ least, search.dist[node]? = some least ∧ least ≤ cost

theorem Tree.back_start (tree : Tree graph start search) : graph.back search.prev start = none := by
  simp [back, tree.stop]

variable {cost : Nat} {id : LinkId} {node : IpAddr}

theorem Tree.back_eq (tree : Tree graph start search) (found : search.dist[node]? = some cost)
    (apart : node ≠ start) :
    ∃ id link before, search.prev[node]? = some id ∧ graph.edges[id]? = some link ∧
      (link.a = node ∨ link.b = node) ∧ graph.back search.prev node = some (link.other node) ∧
      search.dist[link.other node]? = some before ∧ before + link.cost.toNat ≤ cost := by
  obtain ⟨id, link, before, isPrev, isLink, ends, isBefore, cheaper⟩ :=
    tree.parent node cost found apart
  exact ⟨id, link, before, isPrev, isLink, ends, by simp [back, isPrev, isLink], isBefore, cheaper⟩

variable {n : Nat} {heap : List (Nat × IpAddr)} {a b : IpAddr} {attributes : List Attribute}

/-- The way back goes over nodes that the search has come to and that are no farther away. -/
theorem Tree.nearer (tree : Tree graph start search) (found : search.dist[node]? = some cost)
    (leads : Leads (graph.back search.prev) start (fun _ => True) n node) :
    Leads (graph.back search.prev) start
      (fun other => ∃ nearer, search.dist[other]? = some nearer ∧ nearer ≤ cost) n node := by
  induction n generalizing node cost with
  | zero => exact ⟨leads.1, cost, found, Nat.le_refl _⟩
  | succ n ih =>
    obtain ⟨-, other, isBack, onward⟩ := leads
    have apart : node ≠ start := by
      rintro rfl
      rw [tree.back_start] at isBack
      cases isBack
    obtain ⟨id, link, before, -, -, -, isBack', isBefore, cheaper⟩ := tree.back_eq found apart
    cases isBack.symm.trans isBack'
    refine ⟨⟨cost, found, Nat.le_refl _⟩, _, isBack, (ih isBefore onward).mono ?_⟩
    rintro node ⟨nearer, isNearer, small⟩
    exact ⟨nearer, isNearer, by omega⟩

/-- A node is reached more cheaply over a link from a node that the search has come to. -/
theorem Tree.relax (wf : graph.Wf) (tree : Tree graph start search) {least : Nat}
    (found : search.dist[node]? = some least) (small : least ≤ cost)
    (incident : ∃ link, graph.edges[id]? = some link ∧ (link.a = node ∨ link.b = node)) :
    Tree graph start (graph.relax node cost search id) ∧
      ∃ least', (graph.relax node cost search id).dist[node]? = some least' ∧ least' ≤ cost := by
  obtain ⟨link, isLink, ends⟩ := incident
  obtain ⟨hasA, hasB, distinct⟩ := wf.ends id link isLink
  obtain ⟨returns, apart, farEnds⟩ := Link.other_other ends distinct
  unfold Graph.relax
  rw [isLink]
  dsimp only
  split
  next cheaper =>
    have farNode : link.other node ∈ graph.nodes := by
      rcases farEnds with same | same
      · exact same ▸ hasA
      · exact same ▸ hasB
    generalize isFar : link.other node = far at *
    have closer {old : Nat} (isOld : search.dist[far]? = some old) :
        cost + link.cost.toNat < old := by
      rw [isOld] at cheaper
      exact cheaper
    have notStart : far ≠ start := by
      rintro rfl
      exact absurd (closer tree.root) (by omega)
    have dist (other : IpAddr) :
        (search.dist.insert far (cost + link.cost.toNat))[other]? =
          if far = other then some (cost + link.cost.toNat) else search.dist[other]? :=
      HashMap.get_insert ..
    have others (other : IpAddr) (differs : other ≠ far) :
        graph.back (search.prev.insert far id) other = graph.back search.prev other := by
      unfold back
      rw [HashMap.get_insert, if_neg (Ne.symm differs)]
    have isBack : graph.back (search.prev.insert far id) far = some node := by
      unfold back
      rw [HashMap.get_insert, if_pos rfl]
      simp [isLink, returns]
    -- The way back from the node avoids the far end, which is farther away.
    obtain ⟨n, leads⟩ := tree.traced node (HashMap.mem_of_get found)
    have avoids : Leads (graph.back search.prev) start (· ≠ far) n node := by
      refine (tree.nearer found leads).mono ?_
      rintro other ⟨nearer, isNearer, near⟩ rfl
      have := closer isNearer
      omega
    refine ⟨⟨?_, ?_, ?_, ?_, ?_, ?_⟩, least, ?_, small⟩
    · rw [dist, if_neg notStart, tree.root]
    · rw [HashMap.get_insert, if_neg notStart, tree.stop]
    · intro other member
      rw [Std.ExtTreeMap.mem_insert, Std.compare_eq_iff_eq] at member
      rcases member with rfl | member
      · exact farNode
      · exact tree.nodes other member
    · intro other reached isReached otherApart
      rw [dist] at isReached
      split at isReached
      next same =>
        subst same
        cases isReached
        refine ⟨id, link, least, (HashMap.get_insert ..).trans (if_pos rfl), isLink, farEnds, ?_, ?_⟩
        · rw [dist, returns, if_neg apart, found]
        · omega
      next differs =>
        obtain ⟨id', link', before, isPrev, isLink', ends', isBefore, cheap⟩ :=
          tree.parent other reached isReached otherApart
        have isPrev' : (search.prev.insert far id)[other]? = some id' :=
          ((HashMap.get_insert ..).trans (if_neg differs)).trans isPrev
        by_cases viaFar : far = link'.other other
        · refine ⟨id', link', cost + link.cost.toNat, isPrev', isLink', ends', ?_, ?_⟩
          · rw [dist, if_pos viaFar]
          · have := closer (viaFar ▸ isBefore)
            omega
        · exact ⟨id', link', before, isPrev', isLink', ends', by rw [dist, if_neg viaFar, isBefore],
            cheap⟩
    · intro other member
      rw [Std.ExtTreeMap.mem_insert, Std.compare_eq_iff_eq] at member
      rcases member with rfl | member
      · obtain ⟨n', leads'⟩ := Leads.redirect others isBack avoids leads
        exact ⟨n' + 1, trivial, node, isBack, leads'⟩
      · obtain ⟨m, leadsOther⟩ := tree.traced other member
        exact Leads.redirect others isBack avoids leadsOther
    · intro entry other member
      rcases List.mem_cons.mp member with same | member
      · cases same
        exact ⟨_, by rw [dist, if_pos rfl], Nat.le_refl _⟩
      · obtain ⟨old, isOld, below⟩ := tree.heap entry other member
        by_cases same : far = other
        · refine ⟨_, by rw [dist, if_pos same], ?_⟩
          have := closer (same ▸ isOld)
          omega
        · exact ⟨old, by rw [dist, if_neg same, isOld], below⟩
    · rw [dist, if_neg apart, found]
  next dearer => exact ⟨tree, least, found, small⟩

theorem Tree.relaxAll (wf : graph.Wf) {ids : List LinkId}
    (incident : ∀ id ∈ ids, ∃ link, graph.edges[id]? = some link ∧ (link.a = node ∨ link.b = node))
    (tree : Tree graph start search)
    (reached : ∃ least, search.dist[node]? = some least ∧ least ≤ cost) :
    Tree graph start (ids.foldl (graph.relax node cost) search) := by
  induction ids generalizing search with
  | nil => exact tree
  | cons id rest ih =>
    obtain ⟨least, found, small⟩ := reached
    obtain ⟨relaxed, stays⟩ := tree.relax wf found small (incident id List.mem_cons_self)
    exact ih (fun id member => incident id (List.mem_cons_of_mem _ member)) relaxed stays

theorem heapMin_none (none : heapMin heap = none) : heap = [] := by
  cases heap with
  | nil => rfl
  | cons first rest =>
    unfold heapMin at none
    split at none
    · cases none
    · split at none <;> cases none

theorem heapMin_spec {least : Nat × IpAddr} (isLeast : heapMin heap = some least) :
    least ∈ heap ∧ ∀ entry ∈ heap, least.1 ≤ entry.1 := by
  induction heap generalizing least with
  | nil => cases isLeast
  | cons first rest ih =>
    unfold heapMin at isLeast
    split at isLeast
    next none =>
      cases isLeast
      simp [heapMin_none none]
    next other isOther =>
      obtain ⟨member, small⟩ := ih isOther
      split at isLeast <;> cases isLeast
      next before =>
        refine ⟨List.mem_cons_of_mem _ member, fun entry isEntry => ?_⟩
        rcases List.mem_cons.mp isEntry with rfl | later
        · omega
        · exact small entry later
      next notBefore =>
        refine ⟨List.mem_cons_self, fun entry isEntry => ?_⟩
        rcases List.mem_cons.mp isEntry with rfl | later
        · exact Nat.le_refl _
        · have := small entry later
          omega

theorem Tree.pop (tree : Tree graph start search) (entry : Nat × IpAddr) :
    Tree graph start { search with heap := search.heap.erase entry } :=
  ⟨tree.root, tree.stop, tree.nodes, tree.parent, tree.traced, fun cost node member =>
    tree.heap cost node (List.mem_of_mem_erase member)⟩

/-- The node of the least entry is expanded. -/
theorem Tree.expand (wf : graph.Wf) (order : SetOrder LinkId) (tree : Tree graph start search)
    (isLeast : heapMin search.heap = some (cost, node)) {data : Node}
    (isNode : graph.nodes[node]? = some data) :
    Tree graph start ((order.list data.edges).foldl (graph.relax node cost)
      { search with heap := search.heap.erase (cost, node) }) :=
  (tree.pop _).relaxAll wf
    (fun id member => (wf.incident node data isNode id).mp (order.mem_list.mp member))
    (tree.heap cost node (heapMin_spec isLeast).1)

theorem Tree.loop (wf : graph.Wf) (order : SetOrder LinkId) (tree : Tree graph start search)
    (fuel : Nat) : Tree graph start (dijkstraLoop order graph fuel search) := by
  induction fuel generalizing search with
  | zero => exact tree
  | succ fuel ih =>
    unfold dijkstraLoop
    split
    · exact tree
    next cost node isLeast =>
      dsimp only
      split
      · exact ih (tree.pop _)
      · split
        · exact ih (tree.pop _)
        next data isNode => exact ih (tree.expand wf order isLeast isNode)

theorem tree_start (isNode : start ∈ graph.nodes) :
    Tree graph start
      { dist := (∅ : HashMap IpAddr Nat).insert start 0, prev := ∅, heap := [(0, start)] } := by
  have only {node : IpAddr} (member : node ∈ (∅ : HashMap IpAddr Nat).insert start 0) :
      node = start := by
    rw [Std.ExtTreeMap.mem_insert, Std.compare_eq_iff_eq] at member
    exact (member.resolve_right Std.ExtTreeMap.not_mem_empty).symm
  refine ⟨(HashMap.get_insert ..).trans (if_pos rfl), by simp, fun node member => ?_,
    fun node cost found apart => ?_, fun node member => ⟨0, only member, trivial⟩,
    fun cost node member => ?_⟩
  · exact only member ▸ isNode
  · exact absurd (only (HashMap.mem_of_get found)) apart
  · cases List.mem_singleton.mp member
    exact ⟨0, (HashMap.get_insert ..).trans (if_pos rfl), Nat.le_refl 0⟩

/-- The chain of predecessors, read backwards, is a simple path. -/
theorem Tree.path (tree : Tree graph start search) {fuel : Nat} (member : node ∈ search.dist)
    (enough : n ≤ fuel) (leads : Leads (graph.back search.prev) start (fun _ => True) n node) :
    ∃ steps, IsSimplePath graph.Joins start steps node ∧
      steps.map Prod.fst = (graph.prevChain search.prev fuel node).reverse ∧
      ∀ other ∈ start :: steps.map Prod.snd,
        ∃ j ≤ n, Leads (graph.back search.prev) start (fun _ => True) j other := by
  induction n generalizing node fuel with
  | zero =>
    obtain rfl := leads.1
    have empty : graph.prevChain search.prev fuel node = [] := by
      cases fuel with
      | zero => rfl
      | succ fuel =>
        unfold prevChain
        rw [tree.stop]
    refine ⟨[], ⟨.nil node, by simp⟩, by simp [empty], fun other isStart => ?_⟩
    cases List.mem_singleton.mp isStart
    exact ⟨0, Nat.le_refl 0, leads⟩
  | succ n ih =>
    obtain ⟨fuel, rfl⟩ : ∃ less, fuel = less + 1 := ⟨fuel - 1, by omega⟩
    obtain ⟨cost, found⟩ := HashMap.get_of_mem member
    obtain ⟨-, before, isBack, onward⟩ := id leads
    have apart : node ≠ start := by
      rintro rfl
      rw [tree.back_start] at isBack
      cases isBack
    obtain ⟨id, link, reached, isPrev, isLink, ends, isBack', isReached, -⟩ :=
      tree.back_eq found apart
    cases isBack.symm.trans isBack'
    obtain ⟨steps, ⟨walk, nodup⟩, isChain, counted⟩ :=
      ih (HashMap.mem_of_get isReached) (Nat.le_of_succ_le_succ enough) onward
    have joins : graph.Joins (link.other node) id node := by
      refine ⟨link, isLink, ?_⟩
      unfold Link.other
      rcases ends with rfl | rfl
      · simp
      · split
        next same => exact .inr ⟨same, rfl⟩
        · exact .inl ⟨rfl, rfl⟩
    have visited : start :: (steps ++ [(id, node)]).map Prod.snd =
        (start :: steps.map Prod.snd) ++ [node] := by simp
    refine ⟨steps ++ [(id, node)], ⟨walk.snoc joins, ?_⟩, ?_, fun other isVisited => ?_⟩
    · rw [visited, ← List.concat_eq_append, List.nodup_concat]
      refine ⟨fun again => ?_, nodup⟩
      -- A second visit would be closer to the start.
      obtain ⟨j, small, leads'⟩ := counted node again
      have := leads.unique tree.back_start leads'
      omega
    · unfold prevChain
      rw [isPrev]
      dsimp only
      rw [isLink]
      simp [isChain]
    · rw [visited] at isVisited
      rcases List.mem_append.mp isVisited with earlier | last
      · obtain ⟨j, small, leads'⟩ := counted other earlier
        exact ⟨j, by omega, leads'⟩
      · cases List.mem_singleton.mp last
        exact ⟨n + 1, Nat.le_refl _, leads⟩

/-- The search of `dijkstra_from` when its loop has ended. -/
def finalSearch (order : SetOrder LinkId) (graph : Graph) (start : IpAddr) : Dijkstra :=
  dijkstraLoop order graph (2 * graph.edges.size + 2)
    { dist := (∅ : HashMap IpAddr Nat).insert start 0, prev := ∅, heap := [(0, start)] }

theorem dijkstraFrom_get (order : SetOrder LinkId) (graph : Graph) (start dest : IpAddr) :
    (graph.dijkstraFrom order start)[dest]? =
      if start = dest then none
      else (graph.finalSearch order start).dist[dest]?.map fun cost =>
        ((graph.prevChain (graph.finalSearch order start).prev graph.nodes.size dest).reverse,
          UInt32.ofNat (min cost u32Max)) := by
  unfold dijkstraFrom finalSearch
  rw [Std.ExtTreeMap.getElem?_map, HashMap.get_erase]
  split <;> rfl

theorem finalSearch_tree (wf : graph.Wf) (order : SetOrder LinkId) (isNode : start ∈ graph.nodes) :
    Tree graph start (graph.finalSearch order start) :=
  (tree_start isNode).loop wf order _

theorem dijkstraFrom_simplePath (wf : graph.Wf) (order : SetOrder LinkId) (isNode : start ∈ graph.nodes)
    {dest : IpAddr} {links : List LinkId} {cost : UInt32}
    (found : (graph.dijkstraFrom order start)[dest]? = some (links, cost)) :
    graph.SimplePath start dest links := by
  rw [dijkstraFrom_get] at found
  split at found
  · cases found
  obtain ⟨least, isLeast, same⟩ := Option.map_eq_some_iff.mp found
  cases same
  have tree := finalSearch_tree wf order isNode
  have member := HashMap.mem_of_get isLeast
  obtain ⟨n, leads⟩ := tree.traced dest member
  have enough : n < graph.nodes.size := by
    have inside := (tree.nearer isLeast leads).mono fun other ⟨_, isOther, _⟩ =>
      Std.ExtTreeMap.mem_keys.mpr (tree.nodes other (HashMap.mem_of_get isOther))
    exact Nat.lt_of_lt_of_eq (inside.lt_length tree.back_start) Std.ExtTreeMap.length_keys
  obtain ⟨steps, isPath, isChain, -⟩ := tree.path member (Nat.le_of_lt enough) leads
  exact ⟨steps, isPath, isChain⟩

/-! ### The table of best routes -/

/-- The best routes are simple paths of the graph. -/
def Routed (graph : Graph) : Prop :=
  ∀ (a b : IpAddr) (links : List LinkId) (cost : UInt32),
    (graph.bestRoutes[a]?.bind fun routes => routes[b]?) = some (links, cost) →
      graph.SimplePath a b links

theorem Wf.routed_recompute (wf : graph.Wf) (order : SetOrder LinkId) :
    (graph.recompute order).Routed := by
  intro a b links cost found
  obtain ⟨routes, isRoutes, isRoute⟩ := Option.bind_eq_some_iff.mp found
  unfold Graph.recompute at isRoutes
  dsimp only at isRoutes
  rw [Std.ExtTreeMap.getElem?_map] at isRoutes
  obtain ⟨data, isNode, rfl⟩ := Option.map_eq_some_iff.mp isRoutes
  exact dijkstraFrom_simplePath wf order (HashMap.mem_of_get isNode) isRoute

/-- A well-formed graph with its best routes. -/
structure Sound (graph : Graph) : Prop where
  wf : graph.Wf
  routed : graph.Routed

/-- The best routes were computed for the links of the graph; nodes may have been added since. -/
structure Settled (graph : Graph) : Prop where
  wf : graph.Wf
  table : ∃ (order : SetOrder LinkId) (before : Graph), before.Wf ∧ before.edges = graph.edges ∧
    graph.bestRoutes = (before.recompute order).bestRoutes

theorem Settled.sound (settled : graph.Settled) : graph.Sound := by
  refine ⟨settled.wf, fun a b links cost found => ?_⟩
  obtain ⟨order, before, wf, sameEdges, isTable⟩ := settled.table
  rw [isTable] at found
  exact (wf.routed_recompute order a b links cost found).transfer fun id _ => by
    rw [← sameEdges, recompute]

theorem settled_recompute {order : SetOrder LinkId} (wf : (graph.recompute order).Wf) :
    (graph.recompute order).Settled :=
  ⟨wf, order, graph, { wf with }, rfl, rfl⟩

theorem settled_empty : empty.Settled := by
  refine ⟨wf_empty, .ascending, empty, wf_empty, rfl, ?_⟩
  exact Std.ExtTreeMap.ext_getElem? fun node => by simp [empty, recompute]

variable {order : SetOrder LinkId} {after : Graph}

variable (settled : graph.Settled)
include settled

theorem Settled.addNode (added : graph.addNode node = .ok after) :
    after.Settled := by
  refine ⟨settled.wf.addNode added, ?_⟩
  unfold Graph.addNode at added
  split at added
  · cases added
  · cases added
    exact settled.table

theorem Settled.addLink {cost : UInt32}
    (added : graph.addLink order a b id attributes cost = .ok after) :
    after.Settled := by
  have wf := settled.wf.addLink added
  obtain ⟨-, -, -, -, rfl⟩ := addLink_eq_ok added
  exact settled_recompute wf

theorem Settled.removeLink (id : LinkId) :
    (graph.removeLink order id).Settled :=
  settled_recompute ((settled.wf.removeLinkImpl id).recompute order)

theorem Settled.removeLinkAll (ids : List LinkId) :
    (ids.foldl (Graph.removeLink order) graph).Settled := by
  induction ids generalizing graph with
  | nil => exact settled
  | cons id rest ih => exact ih (settled.removeLink id)

theorem Settled.replaceLink {cost : UInt32}
    (replaced : graph.replaceLink order a b id attributes cost = .ok after) :
    after.Settled := by
  have wf := settled.wf.replaceLink replaced
  obtain ⟨oldId, -, -, -, -, rfl⟩ := replaceLink_eq_ok replaced
  exact settled_recompute wf

theorem Settled.removeNode (node : IpAddr) :
    (graph.removeNode order node).Settled := by
  have wf := settled.wf.removeNode order node
  unfold Graph.removeNode at wf ⊢
  split at wf
  · exact settled
  · exact settled_recompute wf

theorem Settled.installBatch (added : List LinkId)
    (specs : List LinkSpec) : (Router.installBatch order graph added specs).1.Settled := by
  induction specs generalizing graph added with
  | nil => exact settled
  | cons spec rest ih =>
    unfold Router.installBatch
    split
    · exact settled.removeLinkAll _
    next next isAdded => exact ih (settled.addLink isAdded) _

end Graph

variable {events : List RouterEvent} {state : Routing}

theorem settled_of_reachable (ran : run Routing.step .init events = some state) :
    state.router.topology.Settled := by
  refine @run_preserves _ _ _ (fun state => state.router.topology.Settled)
    (fun state event next settled stepped => ?_) _ _ _ Graph.settled_empty ran
  obtain ⟨order, call⟩ := event
  -- Only the graph matters, whatever happens to cached routes.
  have kept (router : Router) (keys : List RouteCacheKey) :
      (router.invalidateKeys keys).topology = router.topology :=
    (router.invalidateKeys_spec keys).1
  cases call with
  | addNode node =>
    cases stepped
    unfold Router.addNode
    split
    · exact settled
    next topology isAdded => exact settled.addNode isAdded
  | removeNode node =>
    cases stepped
    change (Graph.removeNode order _ node).Settled
    rw [kept, kept]
    exact settled.removeNode node
  | addLink a b id attributes cost =>
    cases stepped
    unfold Router.addLink
    dsimp only
    split
    · exact settled
    next topology isAdded => exact Graph.Settled.addLink settled isAdded
  | applyLinkBatch removals additions =>
    cases stepped
    exact (settled.removeLinkAll removals).installBatch [] additions
  | removeLink id =>
    cases stepped
    change (Graph.removeLink order _ id).Settled
    rw [kept]
    exact settled.removeLink id
  | replaceLinkBetween a b id attributes cost =>
    cases stepped
    unfold Router.replaceLinkBetween
    split
    · exact settled
    next topology isReplaced => exact settled.replaceLink isReplaced
  | lookupRoutes key =>
    simp only [Routing.step] at stepped
    split at stepped <;> cases stepped <;> exact settled
  | commitRoutes index =>
    simp only [Routing.step] at stepped
    split at stepped
    · cases stepped
    · cases stepped
      unfold Router.commitRoutes
      dsimp only
      split
      · exact settled
      · split <;> exact settled

theorem routed_of_reachable (ran : run Routing.step .init events = some state) :
    state.router.topology.Sound :=
  (settled_of_reachable ran).sound

/-! ### Paths -/

namespace Graph

def debugLink (id : LinkId) : String := s!"LinkId(\"{id}\")"

def getBestRoute (graph : Graph) (a b : IpAddr) : Option Route :=
  if a = b then some (.newDirect a)
  else
    (graph.bestRoutes[a]?.bind fun routes => routes[b]?).map fun (links, cost) =>
      { kind := .multihop, links, cost }

/-- The nodes that the links lead to, one after the other. -/
def followLinks (graph : Graph) : IpAddr → List LinkId → Except TopologyError (List IpAddr)
  | _, [] => .ok []
  | current, id :: rest =>
    match graph.edges[id]? with
    | none => .error (.linkNotFound s!"route_to_path: link {debugLink id} not found")
    | some link =>
      if link.a = current ∨ link.b = current then
        match graph.followLinks (link.other current) rest with
        | .error failure => .error failure
        | .ok path => .ok (link.other current :: path)
      else
        .error (.nodeNotFound (s!"route_to_path: link {debugLink id} does not connect to " ++
          s!"current node {debugNode current}"))

def routeToPath (graph : Graph) (route : Route) (starting : IpAddr) :
    Except TopologyError (List IpAddr) :=
  match route.kind with
  | .directSameNode nodeId =>
    if nodeId ≠ starting then
      .error (.nodeNotFound (s!"route_to_path: starting node {debugNode starting} does not " ++
        s!"match direct-route node {debugNode nodeId}"))
    else .ok [starting]
  | .multihop =>
    match graph.followLinks starting route.links with
    | .error failure => .error failure
    | .ok path => .ok (starting :: path)

variable {graph : Graph} {a b starting : IpAddr} {links : List LinkId}

variable {route : Route} {cost : UInt32} {path : List IpAddr}

theorem Sound.getBestRoute_multihop (sound : graph.Sound)
    (best : graph.getBestRoute a b = some route) (several : route.kind = .multihop) :
    a ≠ b ∧ graph.SimplePath a b route.links := by
  unfold getBestRoute at best
  split at best
  · cases best
    cases several
  next apart =>
    obtain ⟨⟨links, cost⟩, found, rfl⟩ := Option.map_eq_some_iff.mp best
    exact ⟨apart, sound.routed a b links cost found⟩

theorem Joins.other (wf : graph.Wf) {v w : IpAddr} {id : LinkId} (joins : graph.Joins v id w) :
    ∃ link, graph.edges[id]? = some link ∧ (link.a = v ∨ link.b = v) ∧ link.other v = w ∧
      link.other w = v ∧ v ≠ w ∧ ∀ current, link.a = current ∨ link.b = current →
        current = v ∨ current = w := by
  obtain ⟨link, isLink, joined⟩ := joins
  obtain ⟨-, -, distinct⟩ := wf.ends id link isLink
  refine ⟨link, isLink, ?_⟩
  unfold Link.other
  rcases joined with ⟨rfl, rfl⟩ | ⟨rfl, rfl⟩
  · refine ⟨.inl rfl, if_pos rfl, if_neg distinct, distinct, fun current ends => ?_⟩
    exact ends.imp Eq.symm Eq.symm
  · refine ⟨.inr rfl, if_neg distinct, if_pos rfl, Ne.symm distinct, fun current ends => ?_⟩
    exact ends.symm.imp Eq.symm Eq.symm

theorem followLinks_of_walk (wf : graph.Wf) {steps : List (LinkId × IpAddr)}
    (walk : Walk graph.Joins a steps b) :
    graph.followLinks a (steps.map Prod.fst) = .ok (steps.map Prod.snd) := by
  induction walk with
  | nil v => rfl
  | cons taken onward ih =>
    obtain ⟨link, isLink, ends, leads, -⟩ := taken.other wf
    simp only [List.map_cons, followLinks, isLink, if_pos ends, leads, ih]

theorem routeToPath_of_simplePath (wf : graph.Wf) (isPath : graph.SimplePath a b links) :
    ∃ steps, IsSimplePath graph.Joins a steps b ∧ steps.map Prod.fst = links ∧
      graph.routeToPath ⟨.multihop, links, cost⟩ a = .ok (a :: steps.map Prod.snd) := by
  obtain ⟨steps, simple, rfl⟩ := isPath
  refine ⟨steps, simple, rfl, ?_⟩
  simp only [routeToPath, followLinks_of_walk wf simple.walk]

/-- A route that can be followed from a node begins there, or is a single link that ends
there. -/
theorem starts_of_routeToPath (wf : graph.Wf) (isPath : graph.SimplePath a b links) (apart : a ≠ b)
    (followed : graph.routeToPath ⟨.multihop, links, cost⟩ starting = .ok path) :
    starting = a ∨ starting = b ∧ links.length = 1 := by
  obtain ⟨steps, ⟨walk, nodup⟩, rfl⟩ := isPath
  cases walk with
  | nil => exact absurd rfl apart
  | @cons _ _ step rest taken onward =>
    obtain ⟨link, isLink, -, -, returns, notSame, only⟩ := taken.other wf
    simp only [routeToPath, List.map_cons, followLinks, isLink] at followed
    by_cases ends : link.a = starting ∨ link.b = starting
    · rcases only starting ends with rfl | rfl
      · exact .inl rfl
      right
      rw [if_pos ends, returns] at followed
      cases onward with
      | nil => exact ⟨rfl, rfl⟩
      | @cons _ _ step' rest' taken' onward' =>
        -- the second link does not lead on from the first node
        obtain ⟨link', isLink', -, -, -, -, only'⟩ := taken'.other wf
        have elsewhere : ¬ (link'.a = a ∨ link'.b = a) := by
          intro ends'
          simp only [List.map_cons, List.nodup_cons, List.mem_cons, not_or] at nodup
          rcases only' a ends' with same | same
          · exact notSame same
          · exact nodup.1.2.1 same
        simp only [List.map_cons, followLinks, isLink', if_neg elsewhere] at followed
        cases followed
    · rw [if_neg ends] at followed
      cases followed

end Graph

end VisaService
