import VisaService.Eval.Actor

/-!
# The network graph

Nodes with the sets of their links, links with their two ends, and for every pair of
connected nodes a cheapest route, recomputed after each change. Links are undirected and two
nodes may be joined by several.

The order in which a hash set is iterated is left open by the standard library. It decides
between parallel links and between routes of equal cost, and is a parameter here.
-/
namespace VisaService

open Lib

inductive TopologyError where
  | nodeExists (message : String)
  | linkExists (message : String)
  | linkToSelf (message : String)
  | nodeNotFound (message : String)
  | linkNotFound (message : String)
  deriving DecidableEq, Repr

/-- The errors of the router are told apart by their text alone. -/
def TopologyError.toServiceError : TopologyError → ServiceError
  | .nodeExists message => .internal s!"topology error: node already exists: {message}"
  | .linkExists message => .internal s!"topology error: link already exists: {message}"
  | .linkToSelf message => .internal s!"topology error: link to self is not allowed: {message}"
  | .nodeNotFound message => .internal s!"topology error: node not found: {message}"
  | .linkNotFound message => .internal s!"topology error: link not found: {message}"

def u32Max : Nat := 2 ^ 32 - 1

def u64Max : Nat := 2 ^ 64 - 1

def saturatingAdd (x y : UInt32) : UInt32 := UInt32.ofNat (min (x.toNat + y.toNat) u32Max)

theorem saturatingAdd_toNat (x y : UInt32) :
    (saturatingAdd x y).toNat = min (x.toNat + y.toNat) u32Max := by
  have bound : min (x.toNat + y.toNat) u32Max < 2 ^ 32 :=
    Nat.lt_of_le_of_lt (Nat.min_le_right _ _) (by decide)
  rw [saturatingAdd, UInt32.toNat_ofNat', Nat.mod_eq_of_lt bound]

structure Link where
  a : IpAddr
  b : IpAddr
  attributes : List Attribute
  cost : UInt32
  deriving DecidableEq, Repr

/-- The end of the link that is not the given node. -/
def Link.other (link : Link) (node : IpAddr) : IpAddr :=
  if link.a = node then link.b else link.a

structure Node where
  edges : HashSet LinkId

/-- `bestRoutes` has the pair of nodes as two keys, one after the other. -/
structure Graph where
  nodes : HashMap IpAddr Node
  edges : HashMap LinkId Link
  bestRoutes : HashMap IpAddr (HashMap IpAddr (List LinkId × UInt32))

namespace Graph

def empty : Graph := { nodes := ∅, edges := ∅, bestRoutes := ∅ }

/-! ### Cheapest routes -/

/-- Working state of Dijkstra's algorithm. Distances are `u64` sums of `u32` costs and do not
overflow. -/
structure Dijkstra where
  dist : HashMap IpAddr Nat
  prev : HashMap IpAddr LinkId
  heap : List (Nat × IpAddr)

/-- The least entry of the heap, by cost and then by node. -/
def heapMin : List (Nat × IpAddr) → Option (Nat × IpAddr)
  | [] => none
  | entry :: rest =>
    match heapMin rest with
    | none => some entry
    | some least =>
      if least.1 < entry.1 ∨ (least.1 = entry.1 ∧ least.2.rank < entry.2.rank) then some least
      else some entry

/-- Try to reach the other end of a link more cheaply. -/
def relax (graph : Graph) (node : IpAddr) (cost : Nat) (search : Dijkstra) (linkId : LinkId) :
    Dijkstra :=
  match graph.edges[linkId]? with
  | none => search
  | some link =>
    let neighbor := link.other node
    let nextCost := cost + link.cost.toNat
    if nextCost < search.dist[neighbor]?.getD u64Max then
      { dist := search.dist.insert neighbor nextCost
        prev := search.prev.insert neighbor linkId
        heap := (nextCost, neighbor) :: search.heap }
    else search

/-- Work off the heap. -/
def dijkstraLoop (order : SetOrder LinkId) (graph : Graph) : Nat → Dijkstra → Dijkstra
  | 0, search => search
  | fuel + 1, search =>
    match heapMin search.heap with
    | none => search
    | some (cost, node) =>
      let search := { search with heap := search.heap.erase (cost, node) }
      if search.dist[node]?.getD u64Max < cost then dijkstraLoop order graph fuel search
      else
        match graph.nodes[node]? with
        | none => dijkstraLoop order graph fuel search
        | some data =>
          dijkstraLoop order graph fuel
            ((order.list data.edges).foldl (graph.relax node cost) search)

/-- The links on the way back to the start, last one first. Every link on it is in the
graph, since it was followed to get here. -/
def prevChain (graph : Graph) (prev : HashMap IpAddr LinkId) : Nat → IpAddr → List LinkId
  | 0, _ => []
  | fuel + 1, node =>
    match prev[node]? with
    | none => []
    | some linkId =>
      match graph.edges[linkId]? with
      | none => []
      | some link => linkId :: prevChain graph prev fuel (link.other node)

/-- For every destination that can be reached, the links of a cheapest route and its cost.
Every node is expanded once, so the heap takes at most two entries for each link and one for
the start. -/
def dijkstraFrom (order : SetOrder LinkId) (graph : Graph) (start : IpAddr) :
    HashMap IpAddr (List LinkId × UInt32) :=
  let search := dijkstraLoop order graph (2 * graph.edges.size + 2)
    { dist := (∅ : HashMap IpAddr Nat).insert start 0, prev := ∅, heap := [(0, start)] }
  (search.dist.erase start).map fun dest cost =>
    ((graph.prevChain search.prev graph.nodes.size dest).reverse, UInt32.ofNat (min cost u32Max))

def recompute (order : SetOrder LinkId) (graph : Graph) : Graph :=
  { graph with bestRoutes := graph.nodes.map fun start _ => graph.dijkstraFrom order start }

/-! ### Changes -/

def debugNode (node : IpAddr) : String := s!"NodeId({node.display})"

def addNode (graph : Graph) (node : IpAddr) : Except TopologyError Graph :=
  if node ∈ graph.nodes then .error (.nodeExists node.display)
  else .ok { graph with nodes := graph.nodes.insert node ⟨∅⟩ }

def insertLink (graph : Graph) (id : LinkId) (link : Link) : Graph :=
  let enter (node : Node) : Node := ⟨node.edges.insert id⟩
  { graph with
    edges := graph.edges.insert id link
    nodes := (graph.nodes.modify link.a enter).modify link.b enter }

def addLink (order : SetOrder LinkId) (graph : Graph) (a b : IpAddr) (id : LinkId)
    (attributes : List Attribute) (cost : UInt32) : Except TopologyError Graph :=
  if a = b then .error (.linkToSelf "add_link: self-links are not allowed")
  else if a ∉ graph.nodes then
    .error (.nodeNotFound s!"add_link: node {debugNode a} does not exist")
  else if b ∉ graph.nodes then
    .error (.nodeNotFound s!"add_link: node {debugNode b} does not exist")
  else if id ∈ graph.edges then .error (.linkExists id)
  else .ok ((graph.insertLink id { a, b, attributes, cost }).recompute order)

/-- The first of the links whose other end is `b`. -/
def scanLinks (graph : Graph) (a b : IpAddr) : List LinkId → Option LinkId
  | [] => none
  | id :: rest =>
    match graph.edges[id]? with
    | none => none
    | some link => if link.other a = b then some id else scanLinks graph a b rest

def linkIdBetween (order : SetOrder LinkId) (graph : Graph) (a b : IpAddr) : Option LinkId :=
  match graph.nodes[a]? with
  | none => none
  | some node => graph.scanLinks a b (order.list node.edges)

/-- Remove the link from the edge map and from both ends, without a recompute. -/
def removeLinkImpl (graph : Graph) (id : LinkId) : Graph :=
  match graph.edges[id]? with
  | none => graph
  | some link =>
    let leave (node : Node) : Node := ⟨node.edges.erase id⟩
    { graph with
      edges := graph.edges.erase id
      nodes := (graph.nodes.modify link.a leave).modify link.b leave }

/-- Replace a link between `a` and `b`; nothing changes unless every check passes. -/
def replaceLink (order : SetOrder LinkId) (graph : Graph) (a b : IpAddr) (newId : LinkId)
    (attributes : List Attribute) (cost : UInt32) : Except TopologyError Graph :=
  if a = b then .error (.linkToSelf "replace_link: self-links are not allowed")
  else if a ∉ graph.nodes then
    .error (.nodeNotFound s!"replace_link: node {debugNode a} does not exist")
  else if b ∉ graph.nodes then
    .error (.nodeNotFound s!"replace_link: node {debugNode b} does not exist")
  else
    match graph.linkIdBetween order a b with
    | none =>
      .error (.linkNotFound
        s!"replace_link: no existing link between {debugNode a} and {debugNode b}")
    | some oldId =>
      if newId ≠ oldId ∧ newId ∈ graph.edges then .error (.linkExists newId)
      else
        .ok (((graph.removeLinkImpl oldId).insertLink newId
          { a, b, attributes, cost }).recompute order)

def removeLink (order : SetOrder LinkId) (graph : Graph) (id : LinkId) : Graph :=
  (graph.removeLinkImpl id).recompute order

def removeNode (order : SetOrder LinkId) (graph : Graph) (node : IpAddr) : Graph :=
  match graph.nodes[node]? with
  | none => graph
  | some data =>
    let stripped := (order.list data.edges).foldl removeLinkImpl graph
    { stripped with nodes := stripped.nodes.erase node }.recompute order

/-! ### Well-formed graphs -/

/-- Every link joins two different nodes of the graph, and the edge set of a node is exactly
the links that end there. -/
structure Wf (graph : Graph) : Prop where
  incident : ∀ (n : IpAddr) (node : Node), graph.nodes[n]? = some node →
    ∀ id, id ∈ node.edges ↔ ∃ link, graph.edges[id]? = some link ∧ (link.a = n ∨ link.b = n)
  ends : ∀ (id : LinkId) (link : Link), graph.edges[id]? = some link →
    link.a ∈ graph.nodes ∧ link.b ∈ graph.nodes ∧ link.a ≠ link.b

theorem wf_empty : empty.Wf where
  incident n node found := by simp [empty] at found
  ends id link found := by simp [empty] at found

variable {a b : IpAddr} {attributes : List Attribute} {cost : UInt32} {graph next : Graph}
  {order : SetOrder LinkId}

theorem Wf.recompute (wf : graph.Wf) (order : SetOrder LinkId) :
    (graph.recompute order).Wf :=
  { wf with }

/-- The link is entered at both of its ends. -/
theorem insertLink_node (graph : Graph) (id : LinkId) (link : Link) (n : IpAddr) :
    (graph.insertLink id link).nodes[n]? = graph.nodes[n]?.map fun node =>
      if link.a = n ∨ link.b = n then ⟨node.edges.insert id⟩ else node := by
  simp only [insertLink, HashMap.get_modify]
  by_cases atA : link.a = n
  · by_cases atB : link.b = n
    · -- a second insert of the same link changes nothing
      cases found : graph.nodes[n]? with
      | none => simp [atA, atB, found]
      | some node =>
        simp only [atA, atB, found, if_true, Option.map_some, true_or, Option.some.injEq,
          Node.mk.injEq]
        exact Std.ExtTreeSet.ext_mem fun other => by simp
    · simp [atA, atB]
  · by_cases atB : link.b = n
    · simp [atA, atB]
    · simp [atA, atB]

variable {id newId : LinkId} {link : Link} {n : IpAddr}

theorem mem_insertLink_nodes :
    n ∈ (graph.insertLink id link).nodes ↔ n ∈ graph.nodes := by
  rw [Std.ExtTreeMap.mem_iff_isSome_getElem?, insertLink_node, Option.isSome_map,
    ← Std.ExtTreeMap.mem_iff_isSome_getElem?]

theorem removeLinkImpl_edge (graph : Graph) (id other : LinkId) :
    (graph.removeLinkImpl id).edges[other]? =
      if id = other then none else graph.edges[other]? := by
  unfold removeLinkImpl
  split
  next absent =>
    by_cases same : id = other
    · subst same
      simpa using absent
    · rw [if_neg same]
  next link found => exact HashMap.get_erase _ _ _

/-- No node keeps the link. -/
theorem removeLinkImpl_node (wf : graph.Wf) (id : LinkId) (n : IpAddr) :
    ∃ change : Node → Node, (graph.removeLinkImpl id).nodes[n]? = graph.nodes[n]?.map change ∧
      ∀ node, graph.nodes[n]? = some node →
        ∀ other, other ∈ (change node).edges ↔ other ∈ node.edges ∧ other ≠ id := by
  unfold removeLinkImpl
  split
  next absent =>
    refine ⟨fun node => node, by simp, fun node found other => ?_⟩
    simp only [iff_self_and]
    rintro member rfl
    obtain ⟨link, isLink, -⟩ := (wf.incident n node found other).mp member
    rw [isLink] at absent
    cases absent
  next link found =>
    refine ⟨fun node => if link.a = n ∨ link.b = n then ⟨node.edges.erase id⟩ else node, ?_, ?_⟩
    · simp only [HashMap.get_modify]
      have distinct := (wf.ends id link found).2.2
      by_cases atA : link.a = n
      · have notB : ¬ link.b = n := fun atB => distinct (atA.trans atB.symm)
        simp [atA, notB]
      · by_cases atB : link.b = n <;> simp [atA, atB]
    · intro node isNode other
      by_cases ending : link.a = n ∨ link.b = n
      · simp [ending, and_comm, eq_comm (a := other)]
      · -- the link does not end here, so it is not in the set
        simp only [ending, if_false, iff_self_and]
        rintro member rfl
        obtain ⟨same, isLink, ends⟩ := (wf.incident n node isNode other).mp member
        rw [found] at isLink
        cases isLink
        exact ending ends

theorem mem_removeLinkImpl_nodes :
    n ∈ (graph.removeLinkImpl id).nodes ↔ n ∈ graph.nodes := by
  unfold removeLinkImpl
  split
  · rfl
  · simp only [Std.ExtTreeMap.mem_modify]

theorem Wf.addNode (wf : graph.Wf) {node : IpAddr} (added : graph.addNode node = .ok next) :
    next.Wf := by
  unfold Graph.addNode at added
  split at added
  · cases added
  next fresh =>
    cases added
    refine ⟨fun n data found id => ?_, fun id link isLink => ?_⟩
    · simp only [HashMap.get_insert] at found
      split at found
      next isNew =>
        cases found
        cases isNew
        -- no link ends at a node that was not there
        simp only [Std.ExtTreeSet.not_mem_empty, false_iff, not_exists, not_and]
        rintro link isLink (rfl | rfl)
        · exact fresh (wf.ends id link isLink).1
        · exact fresh (wf.ends id link isLink).2.1
      · exact wf.incident n data found id
    · obtain ⟨hasA, hasB, distinct⟩ := wf.ends id link isLink
      exact ⟨by simp [hasA], by simp [hasB], distinct⟩

theorem Wf.insertLink (wf : graph.Wf) (distinct : link.a ≠ link.b) (hasA : link.a ∈ graph.nodes)
    (hasB : link.b ∈ graph.nodes) (fresh : id ∉ graph.edges) :
    (graph.insertLink id link).Wf := by
  have edge (other : LinkId) : (graph.insertLink id link).edges[other]? =
      if id = other then some link else graph.edges[other]? := HashMap.get_insert _ _ _ _
  refine ⟨fun n node found other => ?_, fun other linked isLink => ?_⟩
  · rw [insertLink_node] at found
    obtain ⟨before, isBefore, rfl⟩ := Option.map_eq_some_iff.mp found
    have old := wf.incident n before isBefore other
    by_cases same : id = other
    · subst same
      have notBefore : id ∉ before.edges := by
        intro member
        obtain ⟨link, isLink, -⟩ := old.mp member
        exact fresh (HashMap.mem_of_get isLink)
      by_cases ending : link.a = n ∨ link.b = n
      · simp [edge, ending]
      · simp [edge, ending, notBefore]
    · by_cases ending : link.a = n ∨ link.b = n
      · simp [edge, ending, same, old]
      · simp [edge, ending, same, old]
  · simp only [mem_insertLink_nodes]
    rw [edge] at isLink
    split at isLink
    · cases isLink
      exact ⟨hasA, hasB, distinct⟩
    · exact wf.ends other linked isLink

theorem Wf.removeLinkImpl (wf : graph.Wf) (id : LinkId) :
    (graph.removeLinkImpl id).Wf := by
  refine ⟨fun n node found other => ?_, fun other link isLink => ?_⟩
  · obtain ⟨change, changed, remaining⟩ := removeLinkImpl_node wf id n
    rw [changed] at found
    obtain ⟨before, isBefore, rfl⟩ := Option.map_eq_some_iff.mp found
    rw [remaining before isBefore, wf.incident n before isBefore]
    simp only [removeLinkImpl_edge]
    by_cases same : id = other
    · simp [same]
    · simp [same, Ne.symm (Ne.intro same)]
  · rw [removeLinkImpl_edge] at isLink
    split at isLink
    · cases isLink
    · obtain ⟨hasA, hasB, distinct⟩ := wf.ends other link isLink
      exact ⟨mem_removeLinkImpl_nodes.mpr hasA, mem_removeLinkImpl_nodes.mpr hasB, distinct⟩

theorem Wf.removeLinks (wf : graph.Wf) (ids : List LinkId) :
    (ids.foldl Graph.removeLinkImpl graph).Wf := by
  induction ids generalizing graph with
  | nil => exact wf
  | cons id rest ih => exact ih (wf.removeLinkImpl id)

theorem Wf.removeLinkAll (wf : graph.Wf) (order : SetOrder LinkId) (ids : List LinkId) :
    (ids.foldl (Graph.removeLink order) graph).Wf := by
  induction ids generalizing graph with
  | nil => exact wf
  | cons id rest ih => exact ih ((wf.removeLinkImpl id).recompute order)

theorem foldl_edge {remove : Graph → LinkId → Graph}
    (removes : ∀ (graph : Graph) (id other : LinkId), (remove graph id).edges[other]? =
      if id = other then none else graph.edges[other]?)
    (graph : Graph) (ids : List LinkId) (other : LinkId) :
    (ids.foldl remove graph).edges[other]? = if other ∈ ids then none else graph.edges[other]? := by
  induction ids generalizing graph with
  | nil => simp
  | cons id rest ih =>
    rw [List.foldl_cons, ih, removes]
    by_cases later : other ∈ rest
    · simp [later]
    · by_cases same : id = other
      · simp [same]
      · simp [later, same, Ne.symm (Ne.intro same)]

theorem removeLinks_edge (graph : Graph) (ids : List LinkId) (other : LinkId) :
    (ids.foldl removeLinkImpl graph).edges[other]? =
      if other ∈ ids then none else graph.edges[other]? :=
  foldl_edge removeLinkImpl_edge graph ids other

/-- A new link joins two known nodes under a free id. -/
theorem addLink_eq_ok (added : graph.addLink order a b id attributes cost = .ok next) :
    a ≠ b ∧ a ∈ graph.nodes ∧ b ∈ graph.nodes ∧ id ∉ graph.edges ∧
      next = (graph.insertLink id { a, b, attributes, cost }).recompute order := by
  unfold addLink at added
  split at added
  · cases added
  next distinct =>
    split at added
    · cases added
    next hasA =>
      split at added
      · cases added
      next hasB =>
        split at added <;> cases added
        next fresh => exact ⟨distinct, not_not.mp hasA, not_not.mp hasB, fresh, rfl⟩

theorem Wf.addLink (wf : graph.Wf) (added : graph.addLink order a b id attributes cost = .ok next) :
    next.Wf := by
  obtain ⟨distinct, hasA, hasB, fresh, rfl⟩ := addLink_eq_ok added
  exact (wf.insertLink distinct hasA hasB fresh).recompute order

/-- The new link may take over the id of the old one. -/
theorem replaceLink_eq_ok (replaced : graph.replaceLink order a b newId attributes cost = .ok next)
    :
    ∃ oldId, a ≠ b ∧ a ∈ graph.nodes ∧ b ∈ graph.nodes ∧
      (newId = oldId ∨ newId ∉ graph.edges) ∧
      next = ((graph.removeLinkImpl oldId).insertLink newId
        { a, b, attributes, cost }).recompute order := by
  unfold replaceLink at replaced
  split at replaced
  · cases replaced
  next distinct =>
    split at replaced
    · cases replaced
    next hasA =>
      split at replaced
      · cases replaced
      next hasB =>
        split at replaced
        · cases replaced
        next oldId between =>
          split at replaced <;> cases replaced
          next free =>
            refine ⟨oldId, distinct, not_not.mp hasA, not_not.mp hasB, ?_, rfl⟩
            by_cases same : newId = oldId
            · exact .inl same
            · exact .inr fun used => free ⟨same, used⟩

theorem Wf.replaceLink (wf : graph.Wf)
    (replaced : graph.replaceLink order a b newId attributes cost = .ok next) : next.Wf := by
  obtain ⟨oldId, distinct, hasA, hasB, free, rfl⟩ := replaceLink_eq_ok replaced
  refine ((wf.removeLinkImpl oldId).insertLink distinct (mem_removeLinkImpl_nodes.mpr hasA)
    (mem_removeLinkImpl_nodes.mpr hasB) ?_).recompute order
  intro used
  obtain ⟨link, found⟩ := HashMap.get_of_mem used
  rw [removeLinkImpl_edge] at found
  split at found
  · cases found
  next other =>
    rcases free with same | unused
    · exact other same.symm
    · exact unused (HashMap.mem_of_get found)

theorem Wf.removeNode {graph : Graph} (wf : graph.Wf) (order : SetOrder LinkId) (node : IpAddr) :
    (graph.removeNode order node).Wf := by
  unfold Graph.removeNode
  split
  · exact wf
  next data isNode =>
    have stripped := wf.removeLinks (order.list data.edges)
    refine Wf.recompute ⟨fun n other found id => ?_, fun id link isLink => ?_⟩ order
    · exact stripped.incident n other (HashMap.of_get_erase found).2 id
    · obtain ⟨hasA, hasB, distinct⟩ := stripped.ends id link isLink
      -- a link that is left does not end at the node
      simp only [removeLinks_edge, order.mem_list] at isLink
      split at isLink
      · cases isLink
      next notOurs =>
        have apart : link.a ≠ node ∧ link.b ≠ node :=
          not_or.mp fun ends => notOurs ((wf.incident node data isNode id).mpr ⟨link, isLink, ends⟩)
        exact ⟨HashMap.mem_erase.mpr ⟨hasA, apart.1⟩, HashMap.mem_erase.mpr ⟨hasB, apart.2⟩,
          distinct⟩

/-- The links of the node go with it. -/
theorem removeNode_edge (graph : Graph) (order : SetOrder LinkId) (node : IpAddr) (other : LinkId) :
    (graph.removeNode order node).edges[other]? =
      if graph.nodes[node]?.any (fun data => decide (other ∈ data.edges)) then none
      else graph.edges[other]? := by
  unfold Graph.removeNode
  cases isNode : graph.nodes[node]? with
  | none => simp
  | some data =>
    have taken := removeLinks_edge graph (order.list data.edges) other
    simp only [order.mem_list] at taken
    simp only [Option.any_some, decide_eq_true_eq]
    exact taken

end Graph

end VisaService
