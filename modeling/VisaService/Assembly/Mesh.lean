import VisaService.Assembly.Site
import VisaService.Router.TopologyMgr
import VisaService.Visa.PathBinding

/-!
# The service with its topology

`Site` knows of the router which nodes it has. `Mesh` has the whole topology manager in its
place, the graph and the stored edges, along with the table of anonymous adapters and the
current policy.
-/
namespace VisaService

open Lib

/-- A policy, as the different parts of the service read it. -/
structure PolicySnapshot where
  policy : Policy
  links : LinkPolicy
  view : PolicyView
  sameVinst : view.vinst = policy.vinst

def PolicySnapshot.vinst (snapshot : PolicySnapshot) : Nat := snapshot.policy.vinst

structure Mesh (codec : VisaCodec) where
  asm : Assembly codec
  /-- The nodes with a record `node:<ZADDR>`. -/
  nodes : HashSet IpAddr
  topo : TopologyMgr
  aaa : AaaTable
  policy : PolicySnapshot

variable {codec : VisaCodec}

namespace Mesh

def fabric (mesh : Mesh codec) : Fabric := ⟨mesh.nodes, mesh.asm.connectionTable⟩

/-- `ConnectionControl::disconnect`. A node leaves the topology before its adapters are looked
for. -/
def disconnect (answer : TopologyAnswer) (mesh : Mesh codec) (addr : IpAddr) :
    Except ServiceError Unit × Mesh codec :=
  let departs := !mesh.asm.answer.fails && mesh.asm.actors[addr]?.any Actor.isNode
  ((mesh.asm.disconnect addr).1,
    { mesh with
      asm := (mesh.asm.disconnect addr).2
      nodes := if departs && !mesh.asm.answer.nodeFails then mesh.nodes.erase addr else mesh.nodes
      topo := if departs then mesh.topo.removeNode answer addr else mesh.topo })

end Mesh

end VisaService
