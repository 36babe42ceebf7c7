import VisaService.Basic

/-!
# Attributes and actors

An attribute is a key with a list of values, an expiry and the source that vouches for it.
An actor is a map of attributes; which of them name its identity is kept in order, and the
parsed `zpr.addr` is cached.
-/
namespace VisaService

open Lib

/-! ### Attributes -/

structure Attribute where
  key : String
  value : List String
  expiresAt : Nat
  source : String
  deriving DecidableEq, Repr

namespace Attribute

def sourceZpr : String := "zpr"

def neverExpires : Nat := 60 * 60 * 60 * 24 * 365 * 100 * nanosPerSec

/-- The builder for an internal attribute, which does not expire unless told otherwise. -/
def internal (now : Nat) (key : String) (value : List String) : Attribute :=
  { key, value, expiresAt := now + neverExpires, source := sourceZpr }

def isExpired (now : Nat) (attr : Attribute) : Bool := decide (attr.expiresAt < now)

def getSingleValue (attr : Attribute) : Option String :=
  match attr.value with
  | [value] => some value
  | _ => none

def valueHas (attr : Attribute) (value : String) : Bool := attr.value.contains value

def valueHasAll (attr : Attribute) (values : List String) : Bool := values.all attr.valueHas

def valueHasAny (attr : Attribute) (values : List String) : Bool := values.any attr.valueHas

theorem internal_not_expired (now : Nat) (key : String) (value : List String) :
    (internal now key value).isExpired now = false := by
  simp [internal, isExpired]

end Attribute

namespace Key

def zprAddr : String := "zpr.addr"
def connectVia : String := "zpr.connect_via"
def services : String := "zpr.services"
def actorHash : String := "zpr.actor_hash"
def cn : String := "device.zpr.adapter.cn"
def deviceAuthority : String := "device.zpr.authority"
def userAuthority : String := "user.zpr.authority"
def configId : String := "zpr.config_id"
def substrateAddr : String := "zpr.substrate_addr"
def a2aDhPubkey : String := "zpr.a2a_dh_pubkey"
def deviceZprAddr : String := "device.zpr_addr"
def role : String := "zpr.role"
def vinst : String := "zpr.vinst"

/-- Keys that policy stamps onto an actor rather than taking from a claim. -/
def policyStamped : List String := [role, services, vinst, configId]

end Key

def roleNode : String := "node"
def roleAdapter : String := "adapter"

/-! ### Actors -/

inductive Role where
  | unknown
  | adapter
  | node
  deriving DecidableEq, Repr

structure Actor where
  attrs : HashMap String Attribute
  identityKeys : List String
  zprAddr : Option IpAddr

namespace Actor

def new : Actor := { attrs := ∅, identityKeys := [], zprAddr := none }

def hasAttributeNamed (actor : Actor) (key : String) : Bool := decide (key ∈ actor.attrs)

/-- The first value of an attribute; attributes may have none. -/
def firstValue (attr : Attribute) : String := attr.value.head?.getD ""

/-- Add or replace the attribute. Addresses and roles are checked on the way in. -/
def addAttribute (actor : Actor) (attr : Attribute) : Except AttributeError Actor :=
  if attr.key = Key.zprAddr then
    match IpAddr.parse (firstValue attr) with
    | some ip => .ok { actor with attrs := actor.attrs.insert attr.key attr, zprAddr := some ip }
    | none =>
      .error (.attributeError
        s!"Invalid IP address in zpr.addr attribute: '{firstValue attr}'")
  else if attr.key = Key.role ∧ firstValue attr ≠ roleAdapter ∧ firstValue attr ≠ roleNode then
    .error (.attributeError
      s!"role must be 'node' or 'adapter', not: '{firstValue attr}'")
  else .ok { actor with attrs := actor.attrs.insert attr.key attr }

/-- Remove the attribute, and the cached address or the identity key with it. -/
def removeAttribute (actor : Actor) (key : String) : Actor :=
  if key ∈ actor.attrs then
    { attrs := actor.attrs.erase key
      identityKeys := actor.identityKeys.filter (· ≠ key)
      zprAddr := if key = Key.zprAddr then none else actor.zprAddr }
  else actor

/-- `order` is the position of the key; one past the end appends. -/
def addIdentityKey (actor : Actor) (order : Nat) (key : String) : Except AttributeError Actor :=
  if actor.hasAttributeNamed key then
    .ok { actor with
      identityKeys :=
        if actor.identityKeys.length ≤ order then actor.identityKeys ++ [key]
        else actor.identityKeys.insertIdx order key }
  else
    .error (.attributeError s!"cannot add identity key '{key}', attribute not present")

def single (actor : Actor) (key : String) : Option String :=
  actor.attrs[key]?.bind fun attr => attr.value.head?

def isNode (actor : Actor) : Bool := actor.single Key.role == some roleNode

def getRole (actor : Actor) : Role :=
  match actor.single Key.role with
  | some value =>
    if value = roleNode then .node else if value = roleAdapter then .adapter else .unknown
  | none => .unknown

def getCn (actor : Actor) : Option String := actor.single Key.cn

/-- Replace the provided services. They come from policy and do not expire; an empty set
removes the attribute. The values are sorted. -/
def setServices (actor : Actor) (now : Nat) (services : HashSet String) : Actor :=
  if services.isEmpty then { actor with attrs := actor.attrs.erase Key.services }
  else
    { actor with
      attrs := (actor.attrs.erase Key.services).insert Key.services
        (.internal now Key.services services.toList) }

def services (actor : Actor) : List String :=
  (actor.attrs[Key.services]?.map Attribute.value).getD []

variable {actor next : Actor} {attr : Attribute}

theorem addAttribute_get (added : actor.addAttribute attr = .ok next) (key : String) :
    next.attrs[key]? = if attr.key = key then some attr else actor.attrs[key]? := by
  unfold addAttribute at added
  split at added
  · split at added <;> cases added
    exact HashMap.get_insert _ _ _ _
  · split at added <;> cases added
    exact HashMap.get_insert _ _ _ _

theorem setServices_get (actor : Actor) (now : Nat) (services : HashSet String) (key : String) :
    (actor.setServices now services).attrs[key]? =
      if Key.services = key then
        if services.isEmpty then none else some (.internal now Key.services services.toList)
      else actor.attrs[key]? := by
  unfold setServices
  split
  next empty => rw [HashMap.get_erase]
  next provides =>
    simp only [HashMap.get_insert, HashMap.get_erase]
    split <;> rfl

/-! ### What the private fields guarantee -/

/-- Every attribute stands under its own key, and the cached address is that of `zpr.addr`. -/
structure Wf (actor : Actor) : Prop where
  keyed : ∀ (key : String) (attr : Attribute), actor.attrs[key]? = some attr → attr.key = key
  addr : actor.zprAddr =
    actor.attrs[Key.zprAddr]?.bind fun attr => IpAddr.parse (firstValue attr)

theorem Wf.new : Actor.new.Wf where
  keyed key attr found := by simp [Actor.new] at found
  addr := by simp [Actor.new]

theorem addAttribute_zprAddr (added : actor.addAttribute attr = .ok next) :
    next.zprAddr =
      if attr.key = Key.zprAddr then IpAddr.parse (firstValue attr) else actor.zprAddr := by
  unfold addAttribute at added
  split at added
  next isAddr =>
    split at added
    next ip parsed =>
      cases added
      rw [if_pos isAddr, parsed]
    · cases added
  next other =>
    split at added <;> cases added
    rw [if_neg other]

theorem Wf.addAttribute (wf : actor.Wf) (added : actor.addAttribute attr = .ok next) : next.Wf where
  keyed key found isFound := by
    rw [addAttribute_get added] at isFound
    split at isFound
    next isKey =>
      cases isFound
      exact isKey
    · exact wf.keyed key found isFound
  addr := by
    rw [addAttribute_zprAddr added, addAttribute_get added]
    split
    · rfl
    · exact wf.addr

theorem Wf.addIdentityKey {order : Nat} {key : String} (wf : actor.Wf)
    (added : actor.addIdentityKey order key = .ok next) : next.Wf := by
  unfold Actor.addIdentityKey at added
  split at added <;> cases added
  exact { wf with }

end Actor

/-- An actor as its constructors leave it. -/
abbrev BuiltActor : Type := { actor : Actor // actor.Wf }

end VisaService
