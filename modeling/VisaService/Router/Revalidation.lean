import VisaService.Router.TopologyMgr

/-!
# When the topology is revalidated

With a database that answers, `revalidateAgainstPolicy` fails for one reason only: policy gives
two of the remaining edges the same link id. The batch that installs the links cannot be refused
after that check, since an id that is still taken belongs to a link that stays as it is, and the
edge of that link has claimed the id.

## Main results

`revalidateAgainstPolicy_isOk`.
-/
namespace VisaService

open Lib

theorem Edge.code_injective : Function.Injective Edge.code := by
  rintro ⟨a, b⟩ ⟨c, d⟩ same
  simp only [Edge.code, List.cons.injEq, and_true] at same
  rw [IpAddr.rank_injective same.1, IpAddr.rank_injective same.2]

instance : Std.LawfulEqOrd Edge where
  eq_of_compare same := Edge.code_injective (Std.compare_eq_iff_eq.mp same)

def Link.edge (link : Link) : Edge := .canonicalPair link.a link.b

/-- The ends of a pair do not change, only their order. -/
theorem Edge.canonicalPair_ends (a b : IpAddr) :
    canonicalPair a b = ⟨a, b⟩ ∨ canonicalPair a b = ⟨b, a⟩ := by
  unfold canonicalPair
  split
  · exact .inl rfl
  · exact .inr rfl

theorem Edge.canonicalPair_comm (a b : IpAddr) : canonicalPair a b = canonicalPair b a := by
  unfold canonicalPair
  split <;> split
  next le ge => rw [IpAddr.rank_injective (Nat.le_antisymm le ge)]
  · rfl
  · rfl
  next lt gt => omega

namespace Graph

variable {graph : Graph} {order : SetOrder LinkId} {a b : IpAddr} {id : LinkId} {link : Link}

/-- No two links have the same ends. -/
def Simple (graph : Graph) : Prop :=
  ∀ (id other : LinkId) (link second : Link), graph.edges[id]? = some link →
    graph.edges[other]? = some second → link.edge = second.edge → id = other

theorem scanLinks_eq (ids : List LinkId) (member : id ∈ ids)
    (found : graph.edges[id]? = some link) (joins : link.other a = b)
    (only : ∀ other ∈ ids, ∃ second, graph.edges[other]? = some second ∧
      (second.other a = b → other = id)) :
    graph.scanLinks a b ids = some id := by
  induction ids with
  | nil => cases member
  | cons first rest ih =>
    obtain ⟨second, isSecond, unique⟩ := only first List.mem_cons_self
    rw [scanLinks, isSecond]
    dsimp only
    split
    next same => rw [unique same]
    next differs =>
      refine ih ?_ fun other later => only other (List.mem_cons_of_mem _ later)
      refine (List.mem_cons.mp member).resolve_left ?_
      rintro rfl
      cases isSecond.symm.trans found
      exact differs joins

/-- In a simple graph a link is found by its ends. -/
theorem linkIdBetween_eq (wf : graph.Wf) (simple : graph.Simple)
    (found : graph.edges[id]? = some link)
    (ends : (a = link.a ∧ b = link.b) ∨ (a = link.b ∧ b = link.a)) :
    graph.linkIdBetween order a b = some id := by
  obtain ⟨hasA, hasB, distinct⟩ := wf.ends id link found
  have isNode : a ∈ graph.nodes := by
    rcases ends with ⟨rfl, -⟩ | ⟨rfl, -⟩
    · exact hasA
    · exact hasB
  have atEnd : link.a = a ∨ link.b = a := by
    rcases ends with ⟨rfl, -⟩ | ⟨rfl, -⟩
    · exact .inl rfl
    · exact .inr rfl
  have joins : link.other a = b := by
    rcases ends with ⟨rfl, rfl⟩ | ⟨rfl, rfl⟩
    · simp [Link.other]
    · simp [Link.other, distinct]
  obtain ⟨node, found'⟩ := HashMap.get_of_mem isNode
  have incident := wf.incident a node found'
  rw [linkIdBetween, found']
  dsimp only
  refine scanLinks_eq _ (order.mem_list.mpr ((incident id).mpr ⟨link, found, atEnd⟩)) found joins
    fun other member => ?_
  obtain ⟨second, isSecond, secondAt⟩ := (incident other).mp (order.mem_list.mp member)
  refine ⟨second, isSecond, fun reaches => simple other id second link isSecond found ?_⟩
  -- both links join the same two nodes, in one order or the other
  have secondEnds : second.edge = .canonicalPair a b := by
    rcases secondAt with rfl | rfl
    · rw [Link.other, if_pos rfl] at reaches
      rw [Link.edge, reaches]
    · obtain ⟨-, -, apart⟩ := wf.ends other second isSecond
      rw [Link.other, if_neg apart] at reaches
      rw [Link.edge, reaches, Edge.canonicalPair_comm]
  rw [secondEnds]
  rcases ends with ⟨rfl, rfl⟩ | ⟨rfl, rfl⟩
  · rfl
  · exact Edge.canonicalPair_comm _ _

theorem removeLink_edges (graph : Graph) (ids : List LinkId) (other : LinkId) :
    (ids.foldl (removeLink order) graph).edges[other]? =
      if other ∈ ids then none else graph.edges[other]? :=
  @foldl_edge (removeLink order) removeLinkImpl_edge graph ids other

theorem mem_removeLink_nodes (graph : Graph) (ids : List LinkId) (node : IpAddr) :
    node ∈ (ids.foldl (removeLink order) graph).nodes ↔ node ∈ graph.nodes := by
  induction ids generalizing graph with
  | nil => rfl
  | cons id rest ih =>
    rw [List.foldl_cons, ih]
    exact mem_removeLinkImpl_nodes

/-- A batch of new links between nodes of the graph goes through. -/
theorem installBatch_ok {additions : List LinkSpec} {added : List LinkId}
    (fits : ∀ spec ∈ additions, spec.a ≠ spec.b ∧ spec.a ∈ graph.nodes ∧ spec.b ∈ graph.nodes ∧
      spec.id ∉ graph.edges)
    (distinct : (additions.map LinkSpec.id).Nodup) :
    (Router.installBatch order graph added additions).2 = .ok () := by
  induction additions generalizing graph added with
  | nil => rfl
  | cons spec rest ih =>
    obtain ⟨apart, hasA, hasB, free⟩ := fits spec List.mem_cons_self
    obtain ⟨fresh, distinct⟩ := List.nodup_cons.mp distinct
    simp only [Router.installBatch, addLink, if_neg apart, hasA, hasB, free, not_true, if_false]
    refine ih (fun other later => ?_) distinct
    obtain ⟨apart, hasA, hasB, free⟩ := fits other (List.mem_cons_of_mem _ later)
    refine ⟨apart, mem_insertLink_nodes.mpr hasA, mem_insertLink_nodes.mpr hasB, fun taken => ?_⟩
    rcases Std.ExtTreeMap.mem_insert.mp taken with same | earlier
    · exact fresh (List.mem_map.mpr ⟨other, later, (Std.compare_eq_iff_eq.mp same).symm⟩)
    · exact free earlier

end Graph

theorem Router.removeNode_topology (router : Router) (order : SetOrder LinkId) (node : IpAddr) :
    (router.removeNode order node).topology = router.topology.removeNode order node := by
  simp only [Router.removeNode, Router.withTopology, (Router.invalidateKeys_spec _ _).1]

namespace TopologyMgr

/-- What the manager keeps true of its graph and its stored edges. -/
structure Sound (mgr : TopologyMgr) : Prop where
  wf : mgr.router.topology.Wf
  simple : mgr.router.topology.Simple
  apart : ∀ edge ∈ mgr.edges, edge.a ≠ edge.b

theorem mem_workEdges {mgr : TopologyMgr} {edge : Edge} :
    edge ∈ mgr.workEdges ↔ (∃ stored ∈ mgr.edges, Edge.canonicalPair stored.a stored.b = edge) ∨
      ∃ (id : LinkId) (link : Link), mgr.router.topology.edges[id]? = some link ∧
        link.edge = edge := by
  simp [workEdges, Std.ExtTreeSet.mem_ofList, Link.edge]

/-! ### Decisions -/

section Decisions

variable (policy : LinkPolicy) (now : Nat) (known : HashSet IpAddr)

/-- How policy describes an edge between nodes that stay. -/
def description (edge : Edge) : Option LinkDescription :=
  if edge.a ∉ known ∨ edge.b ∉ known then none
  else (policy.describeLinkEither now edge.a edge.b).toOption

/-- Policy gives each remaining edge a link id of its own. -/
def IdsApart (mgr : TopologyMgr) : Prop :=
  ∀ edge ∈ mgr.workEdges, ∀ other ∈ mgr.workEdges, ∀ desc second,
    description policy now known edge = some desc →
    description policy now known other = some second → desc.linkId = second.linkId → edge = other

variable {policy now known} in
theorem known_of_description {edge : Edge} {desc : LinkDescription}
    (described : description policy now known edge = some desc) :
    edge.a ∈ known ∧ edge.b ∈ known := by
  unfold description at described
  split at described
  · cases described
  next stays => exact ⟨not_not.mp (not_or.mp stays).1, not_not.mp (not_or.mp stays).2⟩

theorem describeLink_error {a b : IpAddr} {failure : TopologyError}
    (failed : policy.describeLink now a b = .error failure) :
    ∃ text, failure = .linkNotFound text := by
  unfold LinkPolicy.describeLink at failed
  split at failed
  · cases failed
  · exact ⟨_, (Except.error.inj failed).symm⟩

theorem decideEdge_eq (edge : Edge) :
    decideEdge policy now known edge.a edge.b =
      .ok ((description policy now known edge).elim .gc .install) := by
  unfold decideEdge description
  split
  · rfl
  have notFound (failure : TopologyError)
      (failed : policy.describeLinkEither now edge.a edge.b = .error failure) :
      ∃ text, failure = .linkNotFound text := by
    unfold LinkPolicy.describeLinkEither at failed
    split at failed
    · exact describeLink_error policy now failed
    · exact describeLink_error policy now failed
  cases described : policy.describeLinkEither now edge.a edge.b with
  | ok desc => rfl
  | error failure =>
    obtain ⟨text, rfl⟩ := notFound failure described
    rfl

variable (order : SetOrder LinkId) (router : Router) (persistedSet : HashSet Edge)

def survivor (edge : Edge) : Option Surviving :=
  (description policy now known edge).map fun desc =>
    ⟨edge, decide (edge ∈ persistedSet), desc,
      actionFor (router.linkBetween order edge.a edge.b) desc⟩

def dropped (edge : Edge) : Option DroppedEdge :=
  if (description policy now known edge).isSome then none
  else some ⟨edge, decide (edge ∈ persistedSet),
    (router.linkBetween order edge.a edge.b).map RouterLink.id⟩

theorem decideEdges_eq (edges : List Edge) (surviving : List Surviving)
    (removals : List DroppedEdge) :
    decideEdges policy now known order router persistedSet edges (surviving, removals) =
      .ok (surviving ++ edges.filterMap (survivor policy now known order router persistedSet),
        removals ++ edges.filterMap (dropped policy now known order router persistedSet)) := by
  induction edges generalizing surviving removals with
  | nil => simp [decideEdges]
  | cons edge rest ih =>
    rw [decideEdges, decideEdge_eq]
    cases described : description policy now known edge with
    | none => simp [ih, survivor, dropped, described]
    | some desc => simp [ih, survivor, dropped, described]

end Decisions

theorem rejectCollisions_isOk {surviving : List Surviving} {claimed : HashSet LinkId} :
    rejectCollisions surviving claimed = .ok () ↔
      (surviving.map (·.desc.linkId)).Nodup ∧ ∀ item ∈ surviving, item.desc.linkId ∉ claimed := by
  induction surviving generalizing claimed with
  | nil => simp [rejectCollisions]
  | cons item rest ih =>
    rw [rejectCollisions]
    split
    next taken => simp [taken]
    next free =>
      rw [ih, List.map_cons, List.nodup_cons]
      simp only [HashSet.mem_insert, not_or, List.forall_mem_cons, List.mem_map, not_exists,
        not_and]
      constructor
      · rintro ⟨distinct, apart⟩
        exact ⟨⟨fun other member => (apart other member).1, distinct⟩, free,
          fun other member => (apart other member).2⟩
      · rintro ⟨⟨apart, distinct⟩, -, unclaimed⟩
        exact ⟨distinct, fun other member => ⟨apart other member, unclaimed other member⟩⟩

/-! ### After the decisions -/

theorem persistMissing_ok {answer : TopologyAnswer} (fine : answer.Fine)
    (surviving : List Surviving) (mgr : TopologyMgr) (report : RevalidationReport) :
    ∃ total next, persistMissing answer surviving mgr report = (.ok total, next) ∧
      next.router = mgr.router := by
  induction surviving generalizing mgr report with
  | nil => exact ⟨report, mgr, rfl, rfl⟩
  | cons item rest ih =>
    unfold persistMissing
    split
    · exact ih mgr report
    · simp only [persistEdge, fine.writes]
      exact ih ⟨mgr.router, mgr.edges.insert (.canonical item.edge.a item.edge.b)⟩ _

theorem removeEdge_router (answer : TopologyAnswer) (mgr : TopologyMgr) (a b : IpAddr) :
    (mgr.removeEdge answer a b).router = mgr.router := by
  unfold removeEdge
  dsimp only
  split <;> rfl

theorem dropRemovals_router (answer : TopologyAnswer) (removals : List DroppedEdge)
    (mgr : TopologyMgr) : (dropRemovals answer removals mgr).router = mgr.router := by
  induction removals generalizing mgr with
  | nil => rfl
  | cons item rest ih =>
    rw [dropRemovals, List.foldl_cons]
    refine (ih _).trans ?_
    split
    · exact removeEdge_router answer mgr _ _
    · rfl

/-- The link of an edge that the router has. -/
theorem linkBetween_edge {mgr : TopologyMgr} (sound : mgr.Sound) {id : LinkId} {link : Link}
    (found : mgr.router.topology.edges[id]? = some link) (order : SetOrder LinkId) :
    mgr.router.linkBetween order link.edge.a link.edge.b = some ⟨id, link⟩ := by
  have ends : (link.edge.a = link.a ∧ link.edge.b = link.b) ∨
      (link.edge.a = link.b ∧ link.edge.b = link.a) := by
    rcases Edge.canonicalPair_ends link.a link.b with same | turned
    · exact .inl (by simp [Link.edge, same])
    · exact .inr (by simp [Link.edge, turned])
  rw [Router.linkBetween, Graph.linkIdBetween_eq sound.wf sound.simple found ends]
  simp [found]

theorem workEdges_apart {mgr : TopologyMgr} (sound : mgr.Sound) {edge : Edge}
    (member : edge ∈ mgr.workEdges) : edge.a ≠ edge.b := by
  have turned {a b : IpAddr} (apart : a ≠ b) :
      (Edge.canonicalPair a b).a ≠ (Edge.canonicalPair a b).b := by
    rcases Edge.canonicalPair_ends a b with same | turned
    · rwa [same]
    · rw [turned]
      exact apart.symm
  rcases mem_workEdges.mp member with ⟨stored, isStored, rfl⟩ | ⟨id, link, found, rfl⟩
  · exact turned (sound.apart stored isStored)
  · exact turned (sound.wf.ends id link found).2.2

section Batch

variable {policy : LinkPolicy} {now : Nat} {known : HashSet IpAddr} {order : SetOrder LinkId}
  {mgr : TopologyMgr} {persistedSet : HashSet Edge} {edges : List Edge}

/-- After the removals no link has an id that is to be installed. -/
theorem addition_free (sound : mgr.Sound) (all : ∀ edge, edge ∈ edges ↔ edge ∈ mgr.workEdges)
    (apart : mgr.IdsApart policy now known) {item : Surviving}
    (member : item ∈ edges.filterMap
      (survivor policy now known order mgr.router persistedSet))
    (changes : item.action ≠ .keep) :
    item.desc.linkId ∉ ((removalIds
      (edges.filterMap (survivor policy now known order mgr.router persistedSet))
      (edges.filterMap (dropped policy now known order mgr.router persistedSet))).foldl
        (Graph.removeLink order) mgr.router.topology).edges := by
  intro taken
  obtain ⟨link, found⟩ := HashMap.get_of_mem taken
  rw [Graph.removeLink_edges] at found
  split at found
  · cases found
  next stays =>
  have between := linkBetween_edge sound found order
  have isWork : link.edge ∈ mgr.workEdges := mem_workEdges.mpr (.inr ⟨_, link, found, rfl⟩)
  have listed : link.edge ∈ edges := (all _).mpr isWork
  refine stays (List.mem_append.mpr ?_)
  cases described : description policy now known link.edge with
  | none =>
    left
    exact List.mem_filterMap.mpr ⟨_, List.mem_filterMap.mpr
      ⟨link.edge, listed, by rw [dropped, described]; rfl⟩, by rw [between]; rfl⟩
  | some desc =>
    right
    obtain ⟨edge, isEdge, survives⟩ := List.mem_filterMap.mp member
    obtain ⟨own, isOwn, rfl⟩ := Option.map_eq_some_iff.mp survives
    refine List.mem_filterMap.mpr ⟨_, List.mem_filterMap.mpr
      ⟨link.edge, listed, by rw [survivor, described]; rfl⟩, ?_⟩
    -- a link that stays as it is has the id for its own edge
    have replaced : actionFor (some ⟨own.linkId, link⟩) desc = .replace own.linkId := by
      refine if_pos ?_
      by_contra keeps
      have same : own.linkId = desc.linkId := not_not.mp (not_or.mp keeps).1
      have sameEdge := apart edge ((all _).mp isEdge) link.edge isWork own desc isOwn described same
      rw [sameEdge] at isOwn
      cases isOwn.symm.trans described
      refine changes ?_
      rw [sameEdge, between]
      exact if_neg keeps
    rw [between]
    simp only [replaced]

theorem nodup_survivors (distinct : edges.Nodup)
    (all : ∀ edge, edge ∈ edges ↔ edge ∈ mgr.workEdges) :
    ((edges.filterMap (survivor policy now known order mgr.router persistedSet)).map
      (·.desc.linkId)).Nodup ↔ mgr.IdsApart policy now known := by
  constructor
  · intro distinctIds edge isEdge other isOther desc second described isSecond same
    have survives {edge : Edge} {desc : LinkDescription} (member : edge ∈ mgr.workEdges)
        (described : description policy now known edge = some desc) :
        ⟨edge, decide (edge ∈ persistedSet), desc,
          actionFor (mgr.router.linkBetween order edge.a edge.b) desc⟩ ∈
            edges.filterMap (survivor policy now known order mgr.router persistedSet) :=
      List.mem_filterMap.mpr ⟨edge, (all _).mpr member, by rw [survivor, described]; rfl⟩
    exact congrArg Surviving.edge (List.inj_on_of_nodup_map distinctIds (survives isEdge described)
      (survives isOther isSecond) same)
  · intro apart
    refine List.Nodup.map_on ?_ (distinct.filterMap ?_)
    · intro item isItem other isOther same
      obtain ⟨edge, isEdge, survives⟩ := List.mem_filterMap.mp isItem
      obtain ⟨desc, described, rfl⟩ := Option.map_eq_some_iff.mp survives
      obtain ⟨second, isSecond, survives⟩ := List.mem_filterMap.mp isOther
      obtain ⟨desc', described', rfl⟩ := Option.map_eq_some_iff.mp survives
      cases apart edge ((all _).mp isEdge) second ((all _).mp isSecond) desc desc' described
        described' same
      cases described.symm.trans described'
      rfl
    · intro edge other item survives same
      obtain ⟨desc, -, rfl⟩ := Option.map_eq_some_iff.mp survives
      obtain ⟨second, -, isItem⟩ := Option.map_eq_some_iff.mp same
      exact (congrArg Surviving.edge isItem).symm

theorem rejectCollisions_survivors (distinct : edges.Nodup)
    (all : ∀ edge, edge ∈ edges ↔ edge ∈ mgr.workEdges) :
    rejectCollisions (edges.filterMap
      (survivor policy now known order mgr.router persistedSet)) ∅ = .ok () ↔
        mgr.IdsApart policy now known := by
  rw [rejectCollisions_isOk, nodup_survivors distinct all]
  exact and_iff_left fun item _ => Std.ExtTreeSet.not_mem_empty

/-- Once the ids are apart nothing stands against the batch. -/
theorem applyDecisions_ok {answer : TopologyAnswer} (fine : answer.Fine) (sound : mgr.Sound)
    (distinct : edges.Nodup) (all : ∀ edge, edge ∈ edges ↔ edge ∈ mgr.workEdges)
    (apart : mgr.IdsApart policy now known)
    (nodes : ∀ addr ∈ known, addr ∈ mgr.router.topology.nodes) (nodeAddrs : List IpAddr) :
    ∃ report, (mgr.applyDecisions answer nodeAddrs
      (edges.filterMap (survivor policy now known answer.links mgr.router persistedSet))
      (edges.filterMap (dropped policy now known answer.links mgr.router persistedSet))).1 =
        .ok report := by
  generalize isSurviving : edges.filterMap
    (survivor policy now known answer.links mgr.router persistedSet) = surviving
  generalize isRemovals : edges.filterMap
    (dropped policy now known answer.links mgr.router persistedSet) = removals
  obtain ⟨report, stored, persisted, sameRouter⟩ := persistMissing_ok fine surviving mgr ⟨0, 0, 0, []⟩
  have installs : (Router.installBatch answer.links ((removalIds surviving removals).foldl
      (Graph.removeLink answer.links) mgr.router.topology) [] (additions surviving)).2 = .ok () := by
    refine Graph.installBatch_ok (fun spec member => ?_) ?_
    · obtain ⟨item, isItem, rfl⟩ := List.mem_map.mp member
      obtain ⟨isItem, changes⟩ := List.mem_filter.mp isItem
      obtain ⟨edge, isEdge, survives⟩ := List.mem_filterMap.mp (isSurviving ▸ isItem)
      obtain ⟨desc, described, rfl⟩ := Option.map_eq_some_iff.mp survives
      obtain ⟨hasA, hasB⟩ := known_of_description described
      refine ⟨workEdges_apart sound ((all _).mp isEdge), ?_, ?_, ?_⟩
      · exact (Graph.mem_removeLink_nodes _ _ _).mpr (nodes _ hasA)
      · exact (Graph.mem_removeLink_nodes _ _ _).mpr (nodes _ hasB)
      · rw [← isSurviving, ← isRemovals]
        exact addition_free sound all apart (isSurviving ▸ isItem) (of_decide_eq_true changes)
    · have distinctIds : (surviving.map (·.desc.linkId)).Nodup := by
        rw [← isSurviving]
        exact (nodup_survivors distinct all).mpr apart
      rw [additions, List.map_map]
      exact distinctIds.sublist (List.filter_sublist.map _)
  unfold applyDecisions Router.applyLinkBatch
  simp only [persisted, dropRemovals_router, sameRouter, installs]
  exact ⟨_, rfl⟩

end Batch

/-! ### The whole pass -/

/-- The router gets the node, and nothing else changes. -/
structure NodesAdded (nodeAddrs : List IpAddr) (before after : TopologyMgr) : Prop where
  stored : after.edges = before.edges
  links : after.router.topology.edges = before.router.topology.edges
  wf : before.router.topology.Wf → after.router.topology.Wf
  nodes : ∀ addr, addr ∈ nodeAddrs ∨ addr ∈ before.router.topology.nodes →
    addr ∈ after.router.topology.nodes

theorem nodesAdded_addNodeIfNotExists (mgr : TopologyMgr) (node : IpAddr) :
    NodesAdded [node] mgr (mgr.addNodeIfNotExists node) := by
  unfold addNodeIfNotExists Router.addNode
  cases added : mgr.router.topology.addNode node with
  | error failure =>
    refine ⟨rfl, rfl, id, fun addr member => member.elim (fun isNode => ?_) id⟩
    rw [List.mem_singleton.mp isNode]
    unfold Graph.addNode at added
    split at added
    next known => exact known
    next => cases added
  | ok next =>
    have wf (before : mgr.router.topology.Wf) := before.addNode added
    unfold Graph.addNode at added
    split at added
    · cases added
    cases added
    refine ⟨rfl, rfl, wf, fun addr member => Std.ExtTreeMap.mem_insert.mpr ?_⟩
    exact member.imp (fun isNode => Std.compare_eq_iff_eq.mpr (List.mem_singleton.mp isNode).symm) id

theorem nodesAdded_foldl (nodeAddrs : List IpAddr) (mgr : TopologyMgr) :
    NodesAdded nodeAddrs mgr (nodeAddrs.foldl addNodeIfNotExists mgr) := by
  induction nodeAddrs generalizing mgr with
  | nil => exact ⟨rfl, rfl, id, fun _ member => member.elim (by simp) id⟩
  | cons node rest ih =>
    have first := mgr.nodesAdded_addNodeIfNotExists node
    have later := ih (mgr.addNodeIfNotExists node)
    refine ⟨later.stored.trans first.stored, later.links.trans first.links,
      fun wf => later.wf (first.wf wf), fun addr member => later.nodes addr ?_⟩
    rcases member with isNode | earlier
    · rcases List.mem_cons.mp isNode with rfl | isLater
      · exact .inr (first.nodes _ (.inl (List.mem_singleton.mpr rfl)))
      · exact .inl isLater
    · exact .inr (first.nodes addr (.inr earlier))

theorem NodesAdded.workEdges {nodeAddrs : List IpAddr} {before after : TopologyMgr}
    (added : NodesAdded nodeAddrs before after) : after.workEdges = before.workEdges := by
  rw [TopologyMgr.workEdges, added.stored, added.links, TopologyMgr.workEdges]

theorem NodesAdded.sound {nodeAddrs : List IpAddr} {before after : TopologyMgr}
    (added : NodesAdded nodeAddrs before after) (sound : before.Sound) : after.Sound where
  wf := added.wf sound.wf
  simple := by
    unfold Graph.Simple
    rw [added.links]
    exact sound.simple
  apart := added.stored ▸ sound.apart

/-- With a database that answers, the pass goes through exactly if policy gives each edge
that remains a link id of its own. -/
theorem revalidateAgainstPolicy_isOk {answer : TopologyAnswer} (fine : answer.Fine)
    {mgr : TopologyMgr} (sound : mgr.Sound) (policy : LinkPolicy) (now : Nat)
    (nodeAddrs : List IpAddr) :
    (∃ report, (mgr.revalidateAgainstPolicy answer policy now nodeAddrs).1 = .ok report) ↔
      mgr.IdsApart policy now (Std.ExtTreeSet.ofList nodeAddrs compare) := by
  have added := nodesAdded_foldl nodeAddrs mgr
  have soundNow := added.sound sound
  have nodes := added.nodes
  unfold IdsApart revalidateAgainstPolicy
  rw [← added.workEdges]
  generalize nodeAddrs.foldl addNodeIfNotExists mgr = mgr at nodes soundNow ⊢
  have all (edge : Edge) : edge ∈ answer.edges.list mgr.workEdges ↔ edge ∈ mgr.workEdges :=
    answer.edges.mem_list
  have distinct := answer.edges.nodup_list mgr.workEdges
  simp only [fine.lists, Bool.false_eq_true, if_false, decideEdges_eq, List.nil_append]
  constructor
  · rintro ⟨report, passes⟩
    split at passes
    · cases passes
    next accepted => exact (rejectCollisions_survivors distinct all).mp accepted
  · intro apart
    rw [(rejectCollisions_survivors distinct all).mpr apart]
    exact applyDecisions_ok fine soundNow distinct all apart
      (fun addr isKnown => nodes addr (.inl (by simpa using isKnown))) nodeAddrs

/-! ### Nodes that leave -/

/-- Nodes other than the known ones may go, with their edges. -/
structure Leaves (known : HashSet IpAddr) (before after : TopologyMgr) : Prop where
  sound : before.Sound → after.Sound
  edges : before.Sound → ∀ edge : Edge, edge.a ∈ known → edge.b ∈ known →
    (edge ∈ after.workEdges ↔ edge ∈ before.workEdges)

section Leaves

variable {known : HashSet IpAddr} {before mid after : TopologyMgr}

theorem Leaves.refl (mgr : TopologyMgr) : Leaves known mgr mgr := ⟨id, fun _ _ _ _ => Iff.rfl⟩

theorem Leaves.trans (one : Leaves known before mid) (two : Leaves known mid after) :
    Leaves known before after where
  sound sound := two.sound (one.sound sound)
  edges sound edge hasA hasB :=
    (two.edges (one.sound sound) edge hasA hasB).trans (one.edges sound edge hasA hasB)

/-- What policy calls the edges between known nodes does not depend on the others. -/
theorem Leaves.idsApart_iff (leaves : Leaves known before after) (sound : before.Sound)
    {policy : LinkPolicy} {now : Nat} :
    after.IdsApart policy now known ↔ before.IdsApart policy now known := by
  have same {edge : Edge} {desc : LinkDescription}
      (described : description policy now known edge = some desc) :
      edge ∈ after.workEdges ↔ edge ∈ before.workEdges := by
    obtain ⟨hasA, hasB⟩ := known_of_description described
    exact leaves.edges sound edge hasA hasB
  constructor
  · intro apart edge isEdge other isOther desc second described isSecond
    exact apart edge ((same described).mpr isEdge) other ((same isSecond).mpr isOther) desc second
      described isSecond
  · intro apart edge isEdge other isOther desc second described isSecond
    exact apart edge ((same described).mp isEdge) other ((same isSecond).mp isOther) desc second
      described isSecond

theorem leaves_removeEdge (answer : TopologyAnswer) (mgr : TopologyMgr) {addr : IpAddr}
    (unknown : addr ∉ known) (peer : IpAddr) :
    Leaves known mgr (mgr.removeEdge answer addr peer) := by
  have erased : Leaves known mgr { mgr with edges := mgr.edges.erase (.canonical addr peer) } := by
    refine ⟨fun sound => ⟨sound.wf, sound.simple, fun edge member =>
      sound.apart edge (HashSet.mem_erase.mp member).1⟩, fun _ edge hasA hasB => ?_⟩
    simp only [mem_workEdges, HashSet.mem_erase]
    refine or_congr_left (exists_congr fun stored => and_congr_left fun isEdge =>
      and_iff_left ?_)
    -- an edge between known nodes does not end at `addr`
    rintro rfl
    have ends : addr = edge.a ∨ addr = edge.b := by
      rw [← isEdge]
      unfold Edge.canonical Edge.canonicalPair
      split <;> split <;> simp
    rcases ends with rfl | rfl
    · exact unknown hasA
    · exact unknown hasB
  unfold removeEdge
  dsimp only
  split
  · exact erased
  · exact .refl mgr
  · exact erased

theorem leaves_removeNode (answer : TopologyAnswer) (mgr : TopologyMgr) {addr : IpAddr}
    (unknown : addr ∉ known) : Leaves known mgr (mgr.removeNode answer addr) := by
  have stripped : ∀ (peers : List IpAddr) (mgr : TopologyMgr),
      Leaves known mgr (peers.foldl (fun mgr peer => mgr.removeEdge answer addr peer) mgr) := by
    intro peers
    induction peers with
    | nil => exact .refl
    | cons peer rest ih =>
      intro mgr
      exact (leaves_removeEdge answer mgr unknown peer).trans (ih _)
  refine (stripped (mgr.router.getPeers answer.links addr) mgr).trans ?_
  unfold removeNode
  dsimp only
  generalize (mgr.router.getPeers answer.links addr).foldl
    (fun mgr peer => mgr.removeEdge answer addr peer) mgr = mgr
  have topology := mgr.router.removeNode_topology answer.links addr
  have kept {id : LinkId} {link : Link}
      (found : (mgr.router.topology.removeNode answer.links addr).edges[id]? = some link) :
      mgr.router.topology.edges[id]? = some link := by
    rw [Graph.removeNode_edge] at found
    split at found
    · cases found
    · exact found
  refine ⟨fun sound => ⟨?_, ?_, sound.apart⟩, fun sound edge hasA hasB => ?_⟩
  · rw [topology]
    exact sound.wf.removeNode answer.links addr
  · rw [topology]
    intro id other link second found isSecond
    exact sound.simple id other link second (kept found) (kept isSecond)
  · simp only [mem_workEdges, topology]
    refine or_congr_right ⟨fun ⟨id, link, found, isEdge⟩ => ⟨id, link, kept found, isEdge⟩, ?_⟩
    rintro ⟨id, link, found, rfl⟩
    refine ⟨id, link, ?_, rfl⟩
    rw [Graph.removeNode_edge, if_neg, found]
    -- a link that goes ends at `addr`
    simp only [Option.any_eq_true, decide_eq_true_eq, not_exists, not_and]
    intro data isNode member
    obtain ⟨second, isSecond, ends⟩ := (sound.wf.incident addr data isNode id).mp member
    cases found.symm.trans isSecond
    have atEnd : addr = link.edge.a ∨ addr = link.edge.b := by
      rcases Edge.canonicalPair_ends link.a link.b with same | turned
      · rw [Link.edge, same]
        exact ends.imp Eq.symm Eq.symm
      · rw [Link.edge, turned]
        exact (ends.imp Eq.symm Eq.symm).symm
    rcases atEnd with rfl | rfl
    · exact unknown hasA
    · exact unknown hasB

end Leaves

end TopologyMgr

end VisaService
