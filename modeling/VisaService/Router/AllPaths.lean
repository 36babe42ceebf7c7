import VisaService.Lib.SimplePath
import VisaService.Router.Graph

/-!
# All simple paths between two nodes

`get_all_paths` is a depth-first search with a stack of its own. It terminates and lists exactly
the paths without repeated nodes, each once and with the saturated sum of its link costs
(`all_paths_once`).

The remaining rounds of the loop are written down by recursion on the number of nodes that are not
yet visited (`stackRounds`); each iteration takes off the first one. What the rounds report is the
library's enumeration of simple paths.
-/
namespace VisaService

open Lib

namespace Graph

/-! ### The search -/

structure Frame where
  current : IpAddr
  /-- Links to try, the next one first. -/
  remaining : List LinkId
  enteredVia : Option LinkId
  enteredNeighbor : Option IpAddr
  cost : UInt32

/-- The stack has its top first. -/
structure Dfs where
  stack : List Frame
  visited : HashSet IpAddr
  path : List LinkId
  results : List (List LinkId × UInt32)

def Frame.leaveVisited (frame : Frame) (visited : HashSet IpAddr) : HashSet IpAddr :=
  match frame.enteredNeighbor with
  | some neighbor => visited.erase neighbor
  | none => visited

def Frame.leavePath (frame : Frame) (path : List LinkId) : List LinkId :=
  if frame.enteredVia.isSome then path.dropLast else path

/-- The links of a node in the order in which they are popped. -/
def toTry (order : SetOrder LinkId) (node : Node) : List LinkId := (order.list node.edges).reverse

/-- One iteration of the loop; `none` when the stack is empty. -/
def dfsStep (order : SetOrder LinkId) (graph : Graph) (target : IpAddr) (search : Dfs) : Option Dfs :=
  match search.stack with
  | [] => none
  | frame :: below =>
    match frame.remaining with
    | [] =>
      some { search with
        stack := below
        path := frame.leavePath search.path
        visited := frame.leaveVisited search.visited }
    | linkId :: rest =>
      let stack := { frame with remaining := rest } :: below
      match graph.edges[linkId]? with
      | none => some { search with stack }
      | some link =>
        let neighbor := link.other frame.current
        if neighbor ∈ search.visited then some { search with stack }
        else
          let newCost := saturatingAdd frame.cost link.cost
          if neighbor = target then
            some { search with
              stack, results := search.results ++ [(search.path ++ [linkId], newCost)] }
          else
            match graph.nodes[neighbor]? with
            | none => some { search with stack }
            | some node =>
              some
                { stack :=
                    { current := neighbor
                      remaining := toTry order node
                      enteredVia := some linkId
                      enteredNeighbor := some neighbor
                      cost := newCost } :: stack
                  visited := search.visited.insert neighbor
                  path := search.path ++ [linkId]
                  results := search.results }

/-- The loop; `none` if the fuel runs out. -/
def dfsLoop (order : SetOrder LinkId) (graph : Graph) (target : IpAddr) :
    Nat → Dfs → Option (List (List LinkId × UInt32))
  | 0, _ => none
  | fuel + 1, search =>
    match graph.dfsStep order target search with
    | none => some search.results
    | some next => dfsLoop order graph target fuel next

def degreeBound (graph : Graph) : Nat :=
  (graph.nodes.toList.map fun entry => entry.2.edges.size).sum

/-- Bounds the rounds that one link takes with `depth` nodes to go. -/
def roundBound (degree : Nat) : Nat → Nat
  | 0 => 1
  | depth + 1 => degree * roundBound degree depth + 2

def dfsFuel (graph : Graph) : Nat :=
  graph.degreeBound * roundBound graph.degreeBound graph.nodes.size + 2

def dfsStart (order : SetOrder LinkId) (start : IpAddr) (node : Node) : Dfs where
  stack :=
    [{ current := start
       remaining := toTry order node
       enteredVia := none
       enteredNeighbor := none
       cost := 0 }]
  visited := (∅ : HashSet IpAddr).insert start
  path := []
  results := []

/-- Every simple path from `start` to `target`, with its cost. -/
def getAllPaths (order : SetOrder LinkId) (graph : Graph) (start target : IpAddr) :
    List (List LinkId × UInt32) :=
  if start = target then [([], 0)]
  else
    match graph.nodes[start]? with
    | none => []
    | some node =>
      (graph.dfsLoop order target graph.dfsFuel (dfsStart order start node)).getD []

/-! ### The rounds of the loop -/

section Rounds

variable (order : SetOrder LinkId) (graph : Graph) (target : IpAddr)

/-- What the rounds that `linkId` takes report, one entry for each: the round that takes the
link, and if it descends the rounds below and the one that backtracks. -/
def linkRounds : Nat → HashSet IpAddr → IpAddr → List LinkId → UInt32 → LinkId →
    List (Option (List LinkId × UInt32))
  | depth, visited, current, path, cost, linkId =>
    match graph.edges[linkId]? with
    | none => [none]
    | some link =>
      let neighbor := link.other current
      if neighbor ∈ visited then [none]
      else
        let newCost := saturatingAdd cost link.cost
        if neighbor = target then [some (path ++ [linkId], newCost)]
        else
          match graph.nodes[neighbor]? with
          | none => [none]
          | some node =>
            match depth with
            | 0 => [none]
            | depth + 1 =>
              none :: ((toTry order node).flatMap (linkRounds depth (visited.insert neighbor)
                neighbor (path ++ [linkId]) newCost) ++ [none])

/-- What the remaining rounds of a search report. -/
def stackRounds : Nat → HashSet IpAddr → List LinkId → List Frame →
    List (Option (List LinkId × UInt32))
  | _, _, _, [] => []
  | depth, visited, path, frame :: below =>
    frame.remaining.flatMap
        (graph.linkRounds order target depth visited frame.current path frame.cost) ++
      none :: stackRounds (depth + 1) (frame.leaveVisited visited) (frame.leavePath path) below

/-- Nodes of the graph that are not yet visited. -/
def unvisited (visited : HashSet IpAddr) : Nat :=
  (graph.nodes.keys.filter fun n => n ∉ visited).length

/-- The depth of each frame on the stack covers the nodes that are not yet visited there. -/
def DeepEnough : Nat → HashSet IpAddr → List Frame → Prop
  | _, _, [] => True
  | depth, visited, frame :: below =>
    graph.unvisited visited ≤ depth ∧
      DeepEnough (depth + 1) (frame.leaveVisited visited) below

variable {order graph target}

variable {depth : Nat} {n : IpAddr} {visited : HashSet IpAddr}

theorem unvisited_insert (isNode : n ∈ graph.nodes) (unseen : n ∉ visited) :
    graph.unvisited (visited.insert n) < graph.unvisited visited := by
  have fewer : graph.nodes.keys.filter (fun m => m ∉ visited.insert n) =
      (graph.nodes.keys.filter fun m => m ∉ visited).filter fun m => m ≠ n := by
    rw [List.filter_filter]
    refine List.filter_congr fun m _ => ?_
    simp [eq_comm (a := m)]
  rw [unvisited, unvisited, fewer, List.length_filter_lt_length_iff_exists]
  exact ⟨n, List.mem_filter.mpr ⟨by simpa using isNode, by simpa using unseen⟩, by simp⟩

theorem insert_erase_of_unseen (unseen : n ∉ visited) :
    (visited.insert n).erase n = visited := by
  refine Std.ExtTreeSet.ext_mem fun m => ?_
  simp only [Std.ExtTreeSet.mem_erase, Std.ExtTreeSet.mem_insert, ne_eq, Std.compare_eq_iff_eq]
  constructor
  · rintro ⟨apart, same | seen⟩
    · exact absurd same apart
    · exact seen
  · exact fun seen => ⟨fun same => unseen (same ▸ seen), .inr seen⟩

section Cases

variable {depth : Nat} {visited : HashSet IpAddr} {current : IpAddr} {path : List LinkId}
  {cost : UInt32} {linkId : LinkId} {link : Link}

theorem linkRounds_missing (absent : graph.edges[linkId]? = none) :
    graph.linkRounds order target depth visited current path cost linkId = [none] := by
  unfold linkRounds
  rw [absent]

variable (isLink : graph.edges[linkId]? = some link)
include isLink

theorem linkRounds_seen (seen : link.other current ∈ visited) :
    graph.linkRounds order target depth visited current path cost linkId = [none] := by
  unfold linkRounds
  simp [isLink, seen]

variable (unseen : link.other current ∉ visited)
include unseen

theorem linkRounds_found (found : link.other current = target) :
    graph.linkRounds order target depth visited current path cost linkId =
      [some (path ++ [linkId], saturatingAdd cost link.cost)] := by
  unfold linkRounds
  rw [found] at unseen
  simp [isLink, unseen, found]

theorem linkRounds_deadEnd (elsewhere : link.other current ≠ target)
    (noNode : graph.nodes[link.other current]? = none) :
    graph.linkRounds order target depth visited current path cost linkId = [none] := by
  unfold linkRounds
  simp [isLink, unseen, elsewhere, noNode]

variable {node : Node}

theorem linkRounds_bottom (elsewhere : link.other current ≠ target)
    (isNode : graph.nodes[link.other current]? = some node) :
    graph.linkRounds order target 0 visited current path cost linkId = [none] := by
  rw [linkRounds]
  simp [isLink, unseen, elsewhere, isNode]

theorem linkRounds_descend (elsewhere : link.other current ≠ target)
    (isNode : graph.nodes[link.other current]? = some node) :
    graph.linkRounds order target (depth + 1) visited current path cost linkId =
      none :: ((toTry order node).flatMap (graph.linkRounds order target depth
        (visited.insert (link.other current)) (link.other current) (path ++ [linkId])
        (saturatingAdd cost link.cost)) ++ [none]) := by
  rw [linkRounds]
  simp [isLink, unseen, elsewhere, isNode]

end Cases

variable {neighbor : IpAddr} {search : Dfs}

theorem stackRounds_entered (unseen : neighbor ∉ visited) (path remaining : List LinkId)
    (linkId : LinkId) (cost : UInt32) (below : List Frame) :
    graph.stackRounds order target depth (visited.insert neighbor) (path ++ [linkId])
        ({ current := neighbor, remaining, enteredVia := some linkId
           enteredNeighbor := some neighbor, cost } :: below) =
      remaining.flatMap (graph.linkRounds order target depth (visited.insert neighbor) neighbor
        (path ++ [linkId]) cost) ++
      none :: graph.stackRounds order target (depth + 1) visited path below := by
  have back : (visited.insert neighbor).erase neighbor = visited := insert_erase_of_unseen unseen
  rw [stackRounds]
  simp [Frame.leaveVisited, Frame.leavePath, back]

theorem deepEnough_entered {remaining : List LinkId} {linkId : LinkId} {cost : UInt32}
    {below : List Frame} (unseen : neighbor ∉ visited)
    (covers : graph.unvisited (visited.insert neighbor) ≤ depth)
    (deepBelow : graph.DeepEnough (depth + 1) visited below) :
    graph.DeepEnough depth (visited.insert neighbor)
      ({ current := neighbor, remaining, enteredVia := some linkId
         enteredNeighbor := some neighbor, cost } :: below) := by
  have back : (visited.insert neighbor).erase neighbor = visited := insert_erase_of_unseen unseen
  refine ⟨covers, ?_⟩
  simp only [Frame.leaveVisited, back]
  exact deepBelow

/-- One iteration takes off the first of the remaining rounds. -/
theorem dfsStep_round {next : Dfs} (deep : graph.DeepEnough depth search.visited search.stack)
    (stepped : graph.dfsStep order target search = some next) :
    ∃ (round : Option (List LinkId × UInt32)) (depth' : Nat),
      graph.stackRounds order target depth search.visited search.path search.stack =
          round :: graph.stackRounds order target depth' next.visited next.path next.stack ∧
        next.results = search.results ++ round.toList ∧
        graph.DeepEnough depth' next.visited next.stack := by
  obtain ⟨stack, visited, path, results⟩ := search
  cases stack with
  | nil => cases stepped
  | cons frame below =>
    obtain ⟨current, remaining, enteredVia, enteredNeighbor, cost⟩ := frame
    obtain ⟨covers, deepBelow⟩ := deep
    cases remaining with
    | nil =>
      -- backtrack
      cases stepped
      exact ⟨none, depth + 1, rfl, by simp, deepBelow⟩
    | cons linkId rest =>
      have sameBelow : graph.DeepEnough depth visited
          ({ current, remaining := rest, enteredVia, enteredNeighbor, cost } :: below) :=
        ⟨covers, deepBelow⟩
      -- the frame stays on the stack unless the link leads to a new node
      have rounds (taken : List (Option (List LinkId × UInt32)))
          (takes : graph.linkRounds order target depth visited current path cost linkId = taken) :
          graph.stackRounds order target depth visited path
              ({ current, remaining := linkId :: rest, enteredVia, enteredNeighbor, cost } ::
                below) =
            taken ++ graph.stackRounds order target depth visited path
              ({ current, remaining := rest, enteredVia, enteredNeighbor, cost } :: below) := by
        subst takes
        simp only [stackRounds, List.flatMap_cons, List.append_assoc]
        rfl
      simp only [dfsStep] at stepped
      cases isLink : graph.edges[linkId]? with
      | none =>
        simp only [isLink] at stepped
        cases stepped
        exact ⟨none, depth, rounds [none] (linkRounds_missing isLink), by simp, sameBelow⟩
      | some link =>
        simp only [isLink] at stepped
        split at stepped
        next seen =>
          cases stepped
          exact ⟨none, depth, rounds [none] (linkRounds_seen isLink seen), by simp, sameBelow⟩
        next unseen =>
          split at stepped
          next found =>
            cases stepped
            exact ⟨some _, depth, rounds [some _] (linkRounds_found isLink unseen found), rfl,
              sameBelow⟩
          next elsewhere =>
            cases isNode : graph.nodes[link.other current]? with
            | none =>
              simp only [isNode] at stepped
              cases stepped
              exact ⟨none, depth, rounds [none] (linkRounds_deadEnd isLink unseen elsewhere isNode),
                by simp, sameBelow⟩
            | some node =>
              simp only [isNode] at stepped
              cases stepped
              have fewer := unvisited_insert (HashMap.mem_of_get isNode) unseen
              have covers : graph.unvisited visited ≤ depth := covers
              -- an unvisited node is left, so the depth is positive
              obtain ⟨depth, rfl⟩ : ∃ d, depth = d + 1 := ⟨depth - 1, by omega⟩
              refine ⟨none, depth,
                (rounds _ (linkRounds_descend isLink unseen elsewhere isNode)).trans ?_, by simp,
                deepEnough_entered unseen (by omega) sameBelow⟩
              rw [stackRounds_entered unseen]
              simp only [List.cons_append, List.append_assoc, List.nil_append]

/-- With enough fuel the loop returns what its remaining rounds report. -/
theorem dfsLoop_eq {fuel : Nat} (deep : graph.DeepEnough depth search.visited search.stack)
    (enough : (graph.stackRounds order target depth search.visited search.path search.stack).length
      < fuel) :
    graph.dfsLoop order target fuel search = some (search.results ++
      (graph.stackRounds order target depth search.visited search.path
        search.stack).filterMap id) := by
  induction fuel generalizing search depth with
  | zero => omega
  | succ fuel ih =>
    unfold dfsLoop
    cases stepped : graph.dfsStep order target search with
    | none =>
      -- only an empty stack ends the loop
      have finished : search.stack = [] := by
        unfold dfsStep at stepped
        split at stepped
        next empty => exact empty
        · simp only at stepped
          repeat' split at stepped
          all_goals cases stepped
      simp [finished, stackRounds]
    | some next =>
      obtain ⟨round, depth', first, results, deepNext⟩ := dfsStep_round deep stepped
      rw [first, List.length_cons] at enough
      simp only [ih deepNext (by omega), results, first]
      cases round <;> simp

theorem toTry_length_le {node : Node} (isNode : graph.nodes[n]? = some node) :
    (toTry order node).length ≤ graph.degreeBound := by
  have size : (toTry order node).length = node.edges.size := by
    rw [toTry, List.length_reverse, (order.perm node.edges).length_eq,
      Std.ExtTreeSet.length_toList]
  have member : (n, node) ∈ graph.nodes.toList :=
    Std.ExtTreeMap.mem_toList_iff_getElem?_eq_some.mpr isNode
  rw [size]
  exact List.single_le_sum (by simp) _ (List.mem_map.mpr ⟨_, member, rfl⟩)

theorem flatMap_rounds_le {rounds : LinkId → List (Option (List LinkId × UInt32))} {bound : Nat}
    (each : ∀ id, (rounds id).length ≤ bound) (ids : List LinkId) :
    (ids.flatMap rounds).length ≤ ids.length * bound := by
  rw [List.length_flatMap]
  calc (ids.map fun id => (rounds id).length).sum
      ≤ (ids.map fun id => (rounds id).length).length • bound :=
        List.sum_le_card_nsmul _ _ fun x member => by
          obtain ⟨id, -, rfl⟩ := List.mem_map.mp member
          exact each id
    _ = ids.length * bound := by simp

theorem linkRounds_length_le (depth : Nat) (visited : HashSet IpAddr) (current : IpAddr)
    (path : List LinkId) (cost : UInt32) (linkId : LinkId) :
    (graph.linkRounds order target depth visited current path cost linkId).length ≤
      roundBound graph.degreeBound depth := by
  have positive (depth : Nat) : 1 ≤ roundBound graph.degreeBound depth := by
    cases depth <;> simp [roundBound]
  -- only a link that descends takes more than one round
  induction depth using Nat.strongRecOn generalizing visited current path cost linkId with
  | ind depth ih =>
    cases isLink : graph.edges[linkId]? with
    | none => exact linkRounds_missing isLink ▸ positive _
    | some link =>
      by_cases seen : link.other current ∈ visited
      · exact linkRounds_seen isLink seen ▸ positive _
      by_cases found : link.other current = target
      · exact linkRounds_found isLink seen found ▸ positive _
      cases isNode : graph.nodes[link.other current]? with
      | none => exact linkRounds_deadEnd isLink seen found isNode ▸ positive _
      | some node =>
        cases depth with
        | zero => exact linkRounds_bottom isLink seen found isNode ▸ positive _
        | succ depth =>
          have below := flatMap_rounds_le (ih depth (Nat.lt_succ_self depth)
            (visited.insert (link.other current)) (link.other current) (path ++ [linkId])
            (saturatingAdd cost link.cost)) (toTry order node)
          have degree : (toTry order node).length ≤ graph.degreeBound := toTry_length_le isNode
          have scaled := Nat.mul_le_mul_right (roundBound graph.degreeBound depth) degree
          rw [linkRounds_descend isLink seen found isNode, roundBound]
          simp only [List.length_cons, List.length_append, List.length_nil]
          omega

end Rounds

/-! ### What the rounds report -/

/-- The steps that lead away from a node, in the order in which they are tried. -/
def stepsFrom (order : SetOrder LinkId) (graph : Graph) (current : IpAddr) : List (LinkId × IpAddr) :=
  match graph.nodes[current]? with
  | none => []
  | some node =>
    (toTry order node).flatMap fun id =>
      (graph.edges[id]?.map fun link => (id, link.other current)).toList

def linkCost (graph : Graph) (id : LinkId) : UInt32 := (graph.edges[id]?.map Link.cost).getD 0

/-- A path with its cost, as the search reports it after `path`. -/
def report (graph : Graph) (path : List LinkId) (cost : UInt32) (steps : List (LinkId × IpAddr)) :
    List LinkId × UInt32 :=
  (path ++ steps.map Prod.fst,
    steps.foldl (fun sum step => saturatingAdd sum (graph.linkCost step.1)) cost)

variable {graph : Graph} {start target : IpAddr}

variable {cost : UInt32} {order : SetOrder LinkId} {links : List LinkId}

theorem report_cons {path : List LinkId} {linkId : LinkId} {link : Link}
    (isLink : graph.edges[linkId]? = some link) (n : IpAddr) (steps : List (LinkId × IpAddr)) :
    graph.report path cost ((linkId, n) :: steps) =
      graph.report (path ++ [linkId]) (saturatingAdd cost link.cost) steps := by
  simp [report, linkCost, isLink]

/-- The rounds of a link report the simple paths that begin with it. -/
theorem linkRounds_reports (depth : Nat) {visited : HashSet IpAddr} {seen : List IpAddr}
    (same : ∀ n, n ∈ visited ↔ n ∈ seen) (current : IpAddr) (path : List LinkId) (cost : UInt32)
    (linkId : LinkId) :
    (graph.linkRounds order target depth visited current path cost linkId).filterMap id =
      ((graph.edges[linkId]?.map fun link => (linkId, link.other current)).toList.flatMap
        (through (graph.stepsFrom order) target depth seen)).map (graph.report path cost) := by
  induction depth using Nat.strongRecOn generalizing visited seen current path cost linkId with
  | ind depth ih =>
    cases isLink : graph.edges[linkId]? with
    | none => simp [linkRounds_missing isLink]
    | some link =>
      simp only [Option.map_some, Option.toList_some, List.flatMap_singleton]
      unfold through
      by_cases seenNode : link.other current ∈ visited
      · simp [linkRounds_seen isLink seenNode, (same _).mp seenNode]
      have unseen : link.other current ∉ seen := fun member => seenNode ((same _).mpr member)
      by_cases found : link.other current = target
      · rw [linkRounds_found isLink seenNode found, if_neg unseen, if_pos found]
        simp [report, linkCost, isLink]
      rw [if_neg unseen, if_neg found]
      cases isNode : graph.nodes[link.other current]? with
      | none =>
        rw [linkRounds_deadEnd isLink seenNode found isNode]
        cases depth <;> simp [stepsFrom, isNode]
      | some node =>
        cases depth with
        | zero => simp [linkRounds_bottom isLink seenNode found isNode]
        | succ depth =>
          have sameNow : ∀ n, n ∈ visited.insert (link.other current) ↔
              n ∈ link.other current :: seen := by
            intro n
            simp [same, eq_comm (a := n)]
          have below (id : LinkId) := ih depth (Nat.lt_succ_self depth) sameNow
            (link.other current) (path ++ [linkId]) (saturatingAdd cost link.cost) id
          have reported : graph.report path cost ∘ ((linkId, link.other current) :: ·) =
              graph.report (path ++ [linkId]) (saturatingAdd cost link.cost) :=
            funext (report_cons isLink (link.other current))
          rw [linkRounds_descend isLink seenNode found isNode]
          simp only [List.filterMap_cons, id_eq, List.filterMap_append, List.filterMap_nil,
            List.append_nil, List.map_map, reported, List.filterMap_flatMap, stepsFrom, isNode,
            List.flatMap_assoc, List.map_flatMap]
          refine List.flatMap_congr fun id _ => ?_
          exact (below id).trans List.map_flatMap

theorem dfsLoop_start {node : Node} (isNode : graph.nodes[start]? = some node) (target : IpAddr)
    {fuel : Nat} (enough : graph.dfsFuel ≤ fuel) :
    graph.dfsLoop order target fuel (dfsStart order start node) =
      some (((toTry order node).flatMap (graph.linkRounds order target graph.nodes.size
        ((∅ : HashSet IpAddr).insert start) start [] 0)).filterMap id) := by
  have covers : graph.unvisited ((∅ : HashSet IpAddr).insert start) ≤ graph.nodes.size := by
    have fewer := List.length_filter_le
      (fun n => decide (n ∉ (∅ : HashSet IpAddr).insert start)) graph.nodes.keys
    rwa [Std.ExtTreeMap.length_keys] at fewer
  have rounds : graph.stackRounds order target graph.nodes.size (dfsStart order start node).visited
      (dfsStart order start node).path (dfsStart order start node).stack =
        (toTry order node).flatMap (graph.linkRounds order target graph.nodes.size
          ((∅ : HashSet IpAddr).insert start) start [] 0) ++ [none] := rfl
  have each (id : LinkId) : (graph.linkRounds order target graph.nodes.size
      ((∅ : HashSet IpAddr).insert start) start [] 0 id).length ≤
        roundBound graph.degreeBound graph.nodes.size := linkRounds_length_le _ _ _ _ _ _
  have bound := flatMap_rounds_le each (toTry order node)
  have degree : (toTry order node).length ≤ graph.degreeBound := toTry_length_le isNode
  have scaled := Nat.mul_le_mul_right (roundBound graph.degreeBound graph.nodes.size) degree
  have deep : graph.DeepEnough graph.nodes.size (dfsStart order start node).visited
      (dfsStart order start node).stack := ⟨covers, trivial⟩
  rw [dfsLoop_eq deep]
  · rw [rounds]
    simp [dfsStart]
  · rw [dfsFuel] at enough
    rw [rounds, List.length_append, List.length_singleton]
    omega

/-- The search lists the enumeration of the library. -/
theorem getAllPaths_eq (order : SetOrder LinkId) (graph : Graph) (apart : start ≠ target) :
    graph.getAllPaths order start target =
      (simplePaths (graph.stepsFrom order) target graph.nodes.size start).map
        (graph.report [] 0) := by
  rw [getAllPaths, if_neg apart]
  cases isNode : graph.nodes[start]? with
  | none => simp [simplePaths, stepsFrom, isNode]
  | some node =>
    have sameStart : ∀ n, n ∈ (∅ : HashSet IpAddr).insert start ↔ n ∈ [start] := by
      intro n
      simp [eq_comm (a := n)]
    simp only [dfsLoop_start isNode target (Nat.le_refl _), Option.getD_some,
      List.filterMap_flatMap, simplePaths, stepsFrom, isNode, List.flatMap_assoc, List.map_flatMap]
    refine List.flatMap_congr fun id _ => ?_
    exact (linkRounds_reports graph.nodes.size sameStart start [] 0 id).trans List.map_flatMap

/-! ### The paths listed -/

def Joins (graph : Graph) (v : IpAddr) (id : LinkId) (w : IpAddr) : Prop :=
  ∃ link, graph.edges[id]? = some link ∧ (link.a = v ∧ link.b = w ∨ link.a = w ∧ link.b = v)

/-- Following `links` from `start` leads to `target` without coming to a node twice. At the
target itself this is the path without links. -/
def SimplePath (graph : Graph) (start target : IpAddr) (links : List LinkId) : Prop :=
  ∃ steps, IsSimplePath graph.Joins start steps target ∧ steps.map Prod.fst = links

/-- The sum of the link costs, at most `u32::MAX`. -/
def pathCost (graph : Graph) (links : List LinkId) : Nat :=
  min (links.map fun id => (graph.linkCost id).toNat).sum u32Max

theorem report_cost (graph : Graph) (path : List LinkId) (cost : UInt32)
    (steps : List (LinkId × IpAddr)) :
    (graph.report path cost steps).2.toNat =
      min (cost.toNat + ((steps.map Prod.fst).map fun id => (graph.linkCost id).toNat).sum)
        u32Max := by
  induction steps generalizing path cost with
  | nil =>
    have bound := cost.toNat_lt
    simp only [report, u32Max, List.foldl_nil, List.map_nil, List.sum_nil]
    omega
  | cons step rest ih =>
    have tail := ih path (saturatingAdd cost (graph.linkCost step.1))
    simp only [report, List.foldl_cons, List.map_cons, List.sum_cons] at tail ⊢
    rw [tail, saturatingAdd_toNat]
    omega

theorem mem_stepsFrom (wf : graph.Wf) (order : SetOrder LinkId) (v : IpAddr)
    (step : LinkId × IpAddr) : step ∈ graph.stepsFrom order v ↔ graph.Joins v step.1 step.2 := by
  unfold stepsFrom
  constructor
  · intro member
    split at member
    · cases member
    next node isNode =>
      obtain ⟨id, tried, taken⟩ := List.mem_flatMap.mp member
      obtain ⟨link, isLink, rfl⟩ := Option.map_eq_some_iff.mp (Option.mem_toList.mp taken)
      rw [toTry, List.mem_reverse, order.mem_list] at tried
      obtain ⟨same, found, ends⟩ := (wf.incident v node isNode id).mp tried
      cases isLink.symm.trans found
      refine ⟨link, isLink, ?_⟩
      unfold Link.other
      split
      next atA => exact .inl ⟨atA, rfl⟩
      next notA => exact .inr ⟨rfl, ends.resolve_left notA⟩
  · rintro ⟨link, isLink, joined⟩
    obtain ⟨hasA, hasB, distinct⟩ := wf.ends step.1 link isLink
    have ends : link.a = v ∨ link.b = v := joined.imp And.left And.right
    have isNodeV : v ∈ graph.nodes := by rcases ends with rfl | rfl <;> assumption
    obtain ⟨node, isNode⟩ := HashMap.get_of_mem isNodeV
    have leads : link.other v = step.2 := by
      unfold Link.other
      rcases joined with ⟨atA, toB⟩ | ⟨toA, atB⟩
      · rw [if_pos atA, toB]
      · rw [if_neg (fun atA => distinct (atA.trans atB.symm)), toA]
    have listed := (wf.incident v node isNode step.1).mpr ⟨link, isLink, ends⟩
    simp only [isNode, List.mem_flatMap, toTry, List.mem_reverse, order.mem_list]
    exact ⟨step.1, listed, by simp [isLink, leads]⟩

theorem simplePath_self :
    graph.SimplePath start start links ↔ links = [] := by
  constructor
  · rintro ⟨steps, ⟨walk, nodup⟩, rfl⟩
    cases steps with
    | nil => rfl
    | cons step rest => exact absurd walk.finish_mem (List.nodup_cons.mp nodup).1
  · rintro rfl
    exact ⟨[], ⟨.nil start, by simp⟩, rfl⟩

theorem mem_enumerated (wf : graph.Wf) (order : SetOrder LinkId) (apart : start ≠ target)
    {steps : List (LinkId × IpAddr)} :
    steps ∈ simplePaths (graph.stepsFrom order) target graph.nodes.size start ↔
      IsSimplePath graph.Joins start steps target := by
  refine mem_simplePaths (mem_stepsFrom wf order) (fun v id w joins => ?_)
    (Nat.le_of_eq Std.ExtTreeMap.length_keys) apart
  obtain ⟨link, isLink, joined⟩ := joins
  obtain ⟨hasA, hasB, -⟩ := wf.ends id link isLink
  rw [Std.ExtTreeMap.mem_keys]
  rcases joined with ⟨-, rfl⟩ | ⟨rfl, -⟩ <;> assumption

/-- `get_all_paths` lists exactly the simple paths, each with its cost. -/
theorem mem_getAllPaths (wf : graph.Wf) (order : SetOrder LinkId) :
    (links, cost) ∈ graph.getAllPaths order start target ↔
      graph.SimplePath start target links ∧ cost.toNat = graph.pathCost links := by
  by_cases apart : start = target
  · subst apart
    rw [getAllPaths, if_pos rfl, simplePath_self]
    simp only [List.mem_singleton, Prod.mk.injEq, and_congr_right_iff]
    rintro rfl
    simp [pathCost, ← UInt32.toNat_inj]
  · rw [getAllPaths_eq order graph apart]
    simp only [List.mem_map, mem_enumerated wf order apart]
    constructor
    · rintro ⟨steps, isPath, reported⟩
      have listed : steps.map Prod.fst = links := congrArg Prod.fst reported
      have costs := graph.report_cost [] 0 steps
      rw [reported, listed] at costs
      exact ⟨⟨steps, isPath, listed⟩, by simpa [pathCost] using costs⟩
    · rintro ⟨⟨steps, isPath, rfl⟩, isCost⟩
      refine ⟨steps, isPath, Prod.ext (by simp [report]) ?_⟩
      rw [← UInt32.toNat_inj, isCost, graph.report_cost]
      simp [pathCost]

theorem stepsFrom_nodup (graph : Graph) (order : SetOrder LinkId) (current : IpAddr) :
    (graph.stepsFrom order current).Nodup := by
  unfold stepsFrom
  split
  · exact List.nodup_nil
  next node isNode =>
    -- each link of the node gives at most one step, which names the link
    have distinct : (toTry order node).Nodup := List.nodup_reverse.mpr (order.nodup_list _)
    refine List.nodup_flatMap.mpr ⟨fun id _ => ?_, distinct.imp fun apart step first second => ?_⟩
    · cases graph.edges[id]? <;> simp
    · simp only [Option.mem_toList, Option.map_eq_some_iff] at first second
      obtain ⟨link, -, rfl⟩ := first
      obtain ⟨link', -, same⟩ := second
      exact apart (congrArg Prod.fst same).symm

theorem getAllPaths_nodup (wf : graph.Wf) (order : SetOrder LinkId) (apart : start ≠ target) :
    ((graph.getAllPaths order start target).map Prod.fst).Nodup := by
  rw [getAllPaths_eq order graph apart, List.map_map]
  refine (simplePaths_nodup (graph.stepsFrom_nodup order)).map_on ?_
  intro first isFirst second isSecond same
  have leads (v : IpAddr) (id : LinkId) (w w' : IpAddr) (joins : graph.Joins v id w)
      (joins' : graph.Joins v id w') : w = w' := by
    obtain ⟨link, isLink, joined⟩ := joins
    obtain ⟨link', isLink', joined'⟩ := joins'
    cases isLink.symm.trans isLink'
    grind
  exact ((mem_enumerated wf order apart).mp isFirst).walk.eq_of_edges leads
    ((mem_enumerated wf order apart).mp isSecond).walk (by simpa [report] using same)

/-- The search ends, and reports every path without repeated nodes once, with the saturated sum
of its link costs. -/
theorem all_paths_once (wf : graph.Wf) (order : SetOrder LinkId) {node : Node}
    (isNode : graph.nodes[start]? = some node) (apart : start ≠ target) :
    (∀ fuel ≥ graph.dfsFuel, graph.dfsLoop order target fuel (dfsStart order start node) =
        some (graph.getAllPaths order start target)) ∧
      ((graph.getAllPaths order start target).map Prod.fst).Nodup ∧
      ∀ links cost, (links, cost) ∈ graph.getAllPaths order start target ↔
        graph.SimplePath start target links ∧ cost.toNat = graph.pathCost links := by
  refine ⟨fun fuel enough => ?_, getAllPaths_nodup wf order apart,
    fun links cost => mem_getAllPaths wf order⟩
  rw [getAllPaths, if_neg apart]
  simp only [isNode, dfsLoop_start isNode target enough,
    dfsLoop_start isNode target (Nat.le_refl _), Option.getD_some]

namespace PathsSample

def nodeA : IpAddr := .v4 0x0a000001
def nodeB : IpAddr := .v4 0x0a000002

def nodes : Graph := { empty with nodes := (empty.nodes.insert nodeA ⟨∅⟩).insert nodeB ⟨∅⟩ }

def parallel : Graph :=
  (nodes.insertLink "first" ⟨nodeA, nodeB, [], 1⟩).insertLink "second" ⟨nodeB, nodeA, [], 0⟩

theorem nodes_wf : nodes.Wf := by
  have first : empty.addNode nodeA = .ok ⟨empty.nodes.insert nodeA ⟨∅⟩, ∅, ∅⟩ := rfl
  have second : addNode ⟨empty.nodes.insert nodeA ⟨∅⟩, ∅, ∅⟩ nodeB = .ok nodes := rfl
  exact (wf_empty.addNode first).addNode second

theorem parallel_wf : parallel.Wf :=
  (nodes_wf.insertLink (by decide) (by decide +kernel) (by decide +kernel)
    (by decide +kernel)).insertLink (by decide) (by decide +kernel) (by decide +kernel)
    (by decide +kernel)

end PathsSample

open PathsSample in
theorem all_paths_once_parallel :
    parallel.getAllPaths .ascending nodeA nodeB = [(["second"], 0), (["first"], 1)] ∧
      parallel.SimplePath nodeA nodeB ["second"] := by
  have listed : parallel.getAllPaths .ascending nodeA nodeB =
      [(["second"], 0), (["first"], 1)] := by decide +kernel
  obtain ⟨node, isNode⟩ := HashMap.get_of_mem (show nodeA ∈ parallel.nodes by decide +kernel)
  have once := all_paths_once parallel_wf .ascending isNode (show nodeA ≠ nodeB by decide)
  exact ⟨listed, ((once.2.2 ["second"] 0).mp (by rw [listed]; decide)).1⟩

end Graph

end VisaService
