import Mathlib
import Netsukuku.Core.KeyedMap
import Netsukuku.Kernel.Addressing

/-!
# The kernel a daemon writes to

Addresses, routes and rules of the host, as the in-memory stand-in for netlink keeps them:
adding what is there and removing what is not fail, a route replaces the one to the same
destination, and interfaces are stored by index whatever form the caller used.

A call may also fail for reasons of its own.  `faults` is what the environment does to the calls,
one after the other: a call either takes effect or fails without effect.  A fault that says
"already exists" of an absent object, or "not found" of a present one, is no fault of this kernel
and does not strike (`fault?`).

* `attempt_cases` — the two ways a call ends; each call's own lemma instantiates it.
* `validateRoute` — the checks on a route, and its stored form.
-/

namespace Netsukuku

/-- An interface, by name or by index. -/
inductive Interface where
  | name (name : String)
  | index (index : UInt32)
  deriving DecidableEq, Repr

structure LinkInfo where
  index : UInt32
  name : String
  deriving DecidableEq, Repr

structure Nexthop where
  via : Ipv4Addr
  dev : Interface
  weight : UInt8
  deriving DecidableEq, Repr

/-- What a route does once matched. -/
inductive RouteTarget where
  | unreachable
  | gateway (via : Ipv4Addr) (dev : Interface) (src : Option Ipv4Addr)
  | onLink (dev : Interface)
  | multipath (nexthops : List Nexthop)
  deriving DecidableEq, Repr

structure RouteSpec where
  destination : Ipv4Net
  table : UInt32
  target : RouteTarget
  deriving DecidableEq, Repr

structure RouteKey where
  destination : Ipv4Net
  table : UInt32
  deriving DecidableEq, Repr

inductive RuleSelector where
  | any
  | fwMark (mark : UInt32)
  deriving DecidableEq, Repr

structure RuleSpec where
  table : UInt32
  priority : UInt32
  selector : RuleSelector
  deriving DecidableEq, Repr

structure AddressEntry where
  interfaceIndex : UInt32
  network : Ipv4Net
  deriving DecidableEq, Repr

/-- What an error message is about. -/
inductive KernelObject where
  | address (network : Ipv4Net) (interface : Interface)
  | route (destination : Ipv4Net) (table : UInt32)
  | nexthop (via : Ipv4Addr) (dev : Interface)
  | rule (rule : RuleSpec)
  deriving DecidableEq, Repr

inductive NetlinkError where
  | connect (why : String)
  | netlink (why : String)
  | permissionDenied (why : String)
  | interfaceNotFound (interface : Interface)
  | invalidPrefixLength (len : ℕ)
  | reservedTable (table : UInt32)
  | invalidArgument (destination : Ipv4Net)
  | notFound (object : KernelObject)
  | alreadyExists (object : KernelObject)
  deriving DecidableEq, Repr

namespace NetlinkError

def isAlreadyExists : NetlinkError → Bool
  | alreadyExists _ => true
  | _ => false

def isNotFound : NetlinkError → Bool
  | notFound _ => true
  | _ => false

end NetlinkError

/-- `unspec`, `default`, `main` and `local` are the kernel's own. -/
def isKernelReservedTable (table : UInt32) : Bool :=
  table == 0 || table == 253 || table == 254 || table == 255

def guardTable (table : UInt32) : Except NetlinkError Unit :=
  if isKernelReservedTable table then .error (.reservedTable table) else .ok ()

/-- The key of a route: its table, the network's address and its prefix length. -/
def routeKey (table : UInt32) (destination : Ipv4Net) : UInt32 × ℕ × ℕ :=
  (table, destination.address.toBits, destination.prefixLen)

lemma routeKey_inj {table table' : UInt32} {destination destination' : Ipv4Net} :
    routeKey table destination = routeKey table' destination' ↔
      table = table' ∧ destination = destination' := by
  obtain ⟨a, p, hp⟩ := destination
  obtain ⟨a', p', hp'⟩ := destination'
  simp only [routeKey, Prod.mk.injEq, Ipv4Net.mk.injEq]
  rw [Ipv4Addr.toBits_injective.eq_iff]

/-- The kernel rejects a route prefix with host bits set. -/
def checkCanonical (destination : Ipv4Net) : Except NetlinkError Unit :=
  if destination.IsCanonical then .ok () else .error (.invalidArgument destination)

/-- The routes of a kernel, at most one to a destination in a table. -/
structure KernelRoutes where
  map : KeyedMap (UInt32 × ℕ × ℕ) RouteSpec
  keyed : ∀ key route, map.get? key = some route → key = routeKey route.table route.destination

namespace KernelRoutes

def empty : KernelRoutes := ⟨KeyedMap.empty, by intro key route h; cases h⟩

def get? (m : KernelRoutes) (table : UInt32) (destination : Ipv4Net) : Option RouteSpec :=
  m.map.get? (routeKey table destination)

/-- Stores a route, in the place of any other to the same destination in the same table. -/
def insert (m : KernelRoutes) (route : RouteSpec) : KernelRoutes where
  map := m.map.insert (routeKey route.table route.destination) route
  keyed := by
    intro key r h
    by_cases hk : key = routeKey route.table route.destination
    · rw [hk, KeyedMap.get?_insert_self] at h
      cases h
      exact hk
    · rw [KeyedMap.get?_insert_of_ne _ _ hk] at h
      exact m.keyed key r h

def erase (m : KernelRoutes) (table : UInt32) (destination : Ipv4Net) : KernelRoutes where
  map := m.map.erase (routeKey table destination)
  keyed := by
    intro key r h
    by_cases hk : key = routeKey table destination
    · rw [hk, KeyedMap.get?_erase_self] at h
      cases h
    · rw [KeyedMap.get?_erase_of_ne _ hk] at h
      exact m.keyed key r h

variable {m : KernelRoutes} {table table' : UInt32} {destination destination' : Ipv4Net}
  {route r : RouteSpec}

lemma eq_of_get? (h : m.get? table destination = some route) :
    route.table = table ∧ route.destination = destination :=
  let ⟨ht, hd⟩ := routeKey_inj.mp (m.keyed _ _ h)
  ⟨ht.symm, hd.symm⟩

lemma mem_values : route ∈ m.map.values ↔ m.get? route.table route.destination = some route := by
  constructor
  · intro h
    obtain ⟨key, hkey⟩ := KeyedMap.mem_values.mp h
    have hget := KeyedMap.mem_entries_iff.mp hkey
    rw [get?, ← m.keyed key route hget, hget]
  · exact KeyedMap.mem_values_of_get?

lemma get?_insert :
    (m.insert route).get? table destination =
      if table = route.table ∧ destination = route.destination then some route
      else m.get? table destination := by
  unfold get? insert
  split_ifs with h
  · rw [h.1, h.2, KeyedMap.get?_insert_self]
  · exact KeyedMap.get?_insert_of_ne _ _ fun hk => h (routeKey_inj.mp hk)

lemma get?_erase :
    (m.erase table' destination').get? table destination =
      if table = table' ∧ destination = destination' then none
      else m.get? table destination := by
  unfold get? erase
  split_ifs with h
  · rw [h.1, h.2, KeyedMap.get?_erase_self]
  · exact KeyedMap.get?_erase_of_ne _ fun hk => h (routeKey_inj.mp hk)

end KernelRoutes

structure FakeNetlink where
  links : List LinkInfo
  addresses : List AddressEntry
  routes : KernelRoutes
  rules : List RuleSpec
  faults : ℕ → Option NetlinkError
  calls : ℕ

namespace FakeNetlink

def findLink (k : FakeNetlink) : Interface → Option LinkInfo
  | .index index => k.links.find? (·.index = index)
  | .name name => k.links.find? (·.name = name)

def resolveInterface (k : FakeNetlink) (interface : Interface) : Except NetlinkError LinkInfo :=
  match k.findLink interface with
  | some link => .ok link
  | none => .error (.interfaceNotFound interface)

/-- The next hops with their interfaces by index; none may be listed twice. -/
def normaliseNexthops (k : FakeNetlink) (seen : List (Ipv4Addr × UInt32)) :
    List Nexthop → Except NetlinkError (List Nexthop)
  | [] => .ok []
  | nexthop :: rest => do
      let link ← k.resolveInterface nexthop.dev
      if (nexthop.via, link.index) ∈ seen then
        throw (.alreadyExists (.nexthop nexthop.via nexthop.dev))
      let rest ← k.normaliseNexthops (seen ++ [(nexthop.via, link.index)]) rest
      pure ({ nexthop with dev := .index link.index } :: rest)

/-- The target with every interface by index. -/
def normaliseTarget (k : FakeNetlink) : RouteTarget → Except NetlinkError RouteTarget
  | .unreachable => pure .unreachable
  | .gateway via dev src => do
      let link ← k.resolveInterface dev
      pure (.gateway via (.index link.index) src)
  | .onLink dev => do
      let link ← k.resolveInterface dev
      pure (.onLink (.index link.index))
  | .multipath nexthops => do
      let normalised ← k.normaliseNexthops [] nexthops
      pure (.multipath normalised)

/-- Validates a route and returns its stored form. -/
def validateRoute (k : FakeNetlink) (route : RouteSpec) : Except NetlinkError RouteSpec := do
  checkCanonical route.destination
  let target ← k.normaliseTarget route.target
  pure { route with target }

/-- The form in which the kernel stores a route. -/
def stored (k : FakeNetlink) (route : RouteSpec) : RouteSpec :=
  (k.validateRoute route).toOption.getD route

/-- The fault that strikes the next call, given whether its object is there. -/
def fault? (k : FakeNetlink) (present : Bool) : Option NetlinkError :=
  (k.faults k.calls).filter fun e =>
    (!e.isAlreadyExists || present) && (!e.isNotFound || !present)

/-- The kernel once a call has been counted. -/
def tick (k : FakeNetlink) : FakeNetlink := { k with calls := k.calls + 1 }

/-- One call: a fault strikes, or `call` decides. -/
def attempt (k : FakeNetlink) (present : Bool)
    (call : FakeNetlink → Except NetlinkError FakeNetlink) :
    FakeNetlink × Except NetlinkError Unit :=
  match k.fault? present with
  | some e => (k.tick, .error e)
  | none =>
      match call k.tick with
      | .ok k' => (k', .ok ())
      | .error e => (k.tick, .error e)

def hasAddress (k : FakeNetlink) (interface : Interface) (network : Ipv4Net) : Bool :=
  match k.resolveInterface interface with
  | .ok link => decide (⟨link.index, network⟩ ∈ k.addresses)
  | .error _ => false

def addAddress (k : FakeNetlink) (interface : Interface) (network : Ipv4Net) :
    FakeNetlink × Except NetlinkError Unit :=
  k.attempt (k.hasAddress interface network) fun k => do
    let link ← k.resolveInterface interface
    if ⟨link.index, network⟩ ∈ k.addresses then
      throw (.alreadyExists (.address network interface))
    pure { k with addresses := k.addresses ++ [⟨link.index, network⟩] }

def removeAddress (k : FakeNetlink) (interface : Interface) (network : Ipv4Net) :
    FakeNetlink × Except NetlinkError Unit :=
  k.attempt (k.hasAddress interface network) fun k => do
    let link ← k.resolveInterface interface
    if ⟨link.index, network⟩ ∉ k.addresses then
      throw (.notFound (.address network interface))
    pure { k with addresses := k.addresses.erase ⟨link.index, network⟩ }

def hasRoute (k : FakeNetlink) (table : UInt32) (destination : Ipv4Net) : Bool :=
  (k.routes.get? table destination).isSome

def addRoute (k : FakeNetlink) (route : RouteSpec) : FakeNetlink × Except NetlinkError Unit :=
  k.attempt (k.hasRoute route.table route.destination) fun k => do
    guardTable route.table
    let stored ← k.validateRoute route
    if k.hasRoute route.table route.destination then
      throw (.alreadyExists (.route route.destination route.table))
    pure { k with routes := k.routes.insert stored }

def changeRoute (k : FakeNetlink) (route : RouteSpec) : FakeNetlink × Except NetlinkError Unit :=
  k.attempt (k.hasRoute route.table route.destination) fun k => do
    guardTable route.table
    let stored ← k.validateRoute route
    pure { k with routes := k.routes.insert stored }

def removeRoute (k : FakeNetlink) (route : RouteKey) : FakeNetlink × Except NetlinkError Unit :=
  k.attempt (k.hasRoute route.table route.destination) fun k => do
    guardTable route.table
    checkCanonical route.destination
    if !k.hasRoute route.table route.destination then
      throw (.notFound (.route route.destination route.table))
    pure { k with routes := k.routes.erase route.table route.destination }

/-- The routes of one table, or of all. -/
def listRoutes (k : FakeNetlink) (table : Option UInt32) : List RouteSpec :=
  k.routes.map.values.filter fun r => table.all (r.table = ·)

def addRule (k : FakeNetlink) (rule : RuleSpec) : FakeNetlink × Except NetlinkError Unit :=
  k.attempt (decide (rule ∈ k.rules)) fun k => do
    guardTable rule.table
    if rule ∈ k.rules then throw (.alreadyExists (.rule rule))
    pure { k with rules := k.rules ++ [rule] }

def removeRule (k : FakeNetlink) (rule : RuleSpec) : FakeNetlink × Except NetlinkError Unit :=
  k.attempt (decide (rule ∈ k.rules)) fun k => do
    guardTable rule.table
    if rule ∉ k.rules then throw (.notFound (.rule rule))
    pure { k with rules := k.rules.erase rule }

/-! ## How a call ends -/

section Calls

variable {k k' : FakeNetlink} {result : Except NetlinkError Unit}

lemma bind_eq_ok {α β : Type} {x : Except NetlinkError α} {f : α → Except NetlinkError β} {b : β} :
    (x >>= f) = .ok b ↔ ∃ a, x = .ok a ∧ f a = .ok b := by
  cases x <;> simp [bind, Except.bind]

lemma bind_eq_error {α β : Type} {x : Except NetlinkError α} {f : α → Except NetlinkError β}
    {e : NetlinkError} :
    (x >>= f) = .error e ↔ x = .error e ∨ ∃ a, x = .ok a ∧ f a = .error e := by
  cases x <;> simp [bind, Except.bind]

@[simp] lemma tick_links (k : FakeNetlink) : k.tick.links = k.links := rfl

@[simp] lemma tick_addresses : k.tick.addresses = k.addresses := rfl

@[simp] lemma tick_routes : k.tick.routes = k.routes := rfl

@[simp] lemma tick_rules : k.tick.rules = k.rules := rfl

lemma findLink_congr (h : k'.links = k.links) (interface : Interface) :
    k'.findLink interface = k.findLink interface := by
  cases interface <;> simp only [findLink, h]

lemma resolveInterface_congr (h : k'.links = k.links) (interface : Interface) :
    k'.resolveInterface interface = k.resolveInterface interface := by
  rw [resolveInterface, resolveInterface, findLink_congr h]

lemma normaliseNexthops_congr (h : k'.links = k.links) :
    ∀ (nexthops : List Nexthop) (seen : List (Ipv4Addr × UInt32)),
      k'.normaliseNexthops seen nexthops = k.normaliseNexthops seen nexthops
  | [], _ => rfl
  | nexthop :: rest, seen => by
      simp only [normaliseNexthops, resolveInterface_congr h, normaliseNexthops_congr h rest]

/-- Validation reads nothing but the link table. -/
lemma validateRoute_congr (h : k'.links = k.links) (route : RouteSpec) :
    k'.validateRoute route = k.validateRoute route := by
  have htarget : k'.normaliseTarget route.target = k.normaliseTarget route.target := by
    cases route.target <;>
      simp only [normaliseTarget, resolveInterface_congr h, normaliseNexthops_congr h]
  rw [validateRoute, validateRoute, htarget]

/-- Validation touches neither the destination nor the table. -/
lemma validateRoute_key {route stored : RouteSpec} (h : k.validateRoute route = .ok stored) :
    stored.destination = route.destination ∧ stored.table = route.table := by
  obtain ⟨_, _, h⟩ := bind_eq_ok.mp h
  obtain ⟨target, _, h⟩ := bind_eq_ok.mp h
  cases h
  exact ⟨rfl, rfl⟩

lemma stored_of_validateRoute {route r : RouteSpec} (h : k.validateRoute route = .ok r) :
    k.stored route = r := by
  rw [stored, h]
  rfl

@[simp] lemma tick_validateRoute (route : RouteSpec) :
    k.tick.validateRoute route = k.validateRoute route := validateRoute_congr k.tick_links route

@[simp] lemma tick_hasRoute (table : UInt32) (destination : Ipv4Net) :
    k.tick.hasRoute table destination = k.hasRoute table destination := rfl

lemma fault?_eq_some {present : Bool} {e : NetlinkError} (h : k.fault? present = some e) :
    (e.isAlreadyExists = true → present = true) ∧ (e.isNotFound = true → present = false) := by
  have hp := (Option.filter_eq_some_iff.mp h).2
  cases present <;> simp_all

/-- A call takes effect, or fails and changes nothing. -/
theorem attempt_cases {present : Bool} {call : FakeNetlink → Except NetlinkError FakeNetlink}
    (h : k.attempt present call = (k', result)) :
    (result = .ok () ∧ call k.tick = .ok k') ∨
      (k' = k.tick ∧ ∃ e, result = .error e ∧
        (((e.isAlreadyExists = true → present = true) ∧ (e.isNotFound = true → present = false)) ∨
          call k.tick = .error e)) := by
  unfold attempt at h
  split at h
  next e hfault =>
      cases h
      exact Or.inr ⟨rfl, e, rfl, Or.inl (fault?_eq_some hfault)⟩
  next hfault =>
      split at h
      next hcall =>
          cases h
          exact Or.inl ⟨rfl, hcall⟩
      next e hcall =>
          cases h
          exact Or.inr ⟨rfl, e, rfl, Or.inr hcall⟩

lemma resolveInterface_error {interface : Interface} {e : NetlinkError}
    (h : k.resolveInterface interface = .error e) :
    e.isAlreadyExists = false ∧ e.isNotFound = false := by
  unfold resolveInterface at h
  split at h <;> cases h
  exact ⟨rfl, rfl⟩

lemma guardTable_error {table : UInt32} {e : NetlinkError} (h : guardTable table = .error e) :
    e.isAlreadyExists = false ∧ e.isNotFound = false := by
  unfold guardTable at h
  split at h <;> cases h
  exact ⟨rfl, rfl⟩

lemma checkCanonical_error {destination : Ipv4Net} {e : NetlinkError}
    (h : checkCanonical destination = .error e) :
    e.isAlreadyExists = false ∧ e.isNotFound = false := by
  unfold checkCanonical at h
  split at h <;> cases h
  exact ⟨rfl, rfl⟩

lemma hasAddress_iff {interface : Interface} {network : Ipv4Net} {link : LinkInfo}
    (h : k.resolveInterface interface = .ok link) :
    k.hasAddress interface network = true ↔ ⟨link.index, network⟩ ∈ k.addresses := by
  simp [hasAddress, h]

lemma addAddress_cases {interface : Interface} {network : Ipv4Net}
    (h : k.addAddress interface network = (k', result)) :
    (result = .ok () ∧ ∃ link, k.resolveInterface interface = .ok link ∧
        ⟨link.index, network⟩ ∉ k.addresses ∧
        k' = { k.tick with addresses := k.addresses ++ [⟨link.index, network⟩] }) ∨
      (k' = k.tick ∧ ∃ e, result = .error e ∧
        (e.isAlreadyExists = true → k.hasAddress interface network = true)) := by
  rcases attempt_cases h with ⟨rfl, hcall⟩ | ⟨rfl, e, rfl, he⟩
  · obtain ⟨link, hlink, hcall⟩ := bind_eq_ok.mp hcall
    split at hcall
    · cases hcall
    next hmem =>
        cases hcall
        exact Or.inl ⟨rfl, link, hlink, hmem, rfl⟩
  · refine Or.inr ⟨rfl, e, rfl, fun hexists => ?_⟩
    rcases he with he | he
    · exact he.1 hexists
    · rcases bind_eq_error.mp he with hlink | ⟨link, hlink, he⟩
      · rw [(resolveInterface_error hlink).1] at hexists
        cases hexists
      · split at he
        next hmem => exact (hasAddress_iff hlink).mpr hmem
        · cases he

lemma removeAddress_cases {interface : Interface} {network : Ipv4Net}
    (h : k.removeAddress interface network = (k', result)) :
    (result = .ok () ∧ ∃ link, k.resolveInterface interface = .ok link ∧
        ⟨link.index, network⟩ ∈ k.addresses ∧
        k' = { k.tick with addresses := k.addresses.erase ⟨link.index, network⟩ }) ∨
      (k' = k.tick ∧ ∃ e, result = .error e ∧
        (e.isNotFound = true → k.hasAddress interface network = false)) := by
  rcases attempt_cases h with ⟨rfl, hcall⟩ | ⟨rfl, e, rfl, he⟩
  · obtain ⟨link, hlink, hcall⟩ := bind_eq_ok.mp hcall
    split at hcall
    · cases hcall
    next hmem =>
        cases hcall
        exact Or.inl ⟨rfl, link, hlink, not_not.mp hmem, rfl⟩
  · refine Or.inr ⟨rfl, e, rfl, fun hgone => ?_⟩
    rcases he with he | he
    · exact he.2 hgone
    · rcases bind_eq_error.mp he with hlink | ⟨link, hlink, he⟩
      · rw [(resolveInterface_error hlink).2] at hgone
        cases hgone
      · split at he
        next hmem =>
            exact Bool.eq_false_iff.mpr fun hhas => hmem ((hasAddress_iff hlink).mp hhas)
        · cases he

lemma addRoute_cases {route : RouteSpec} (h : k.addRoute route = (k', result)) :
    (result = .ok () ∧ k.hasRoute route.table route.destination = false ∧
        ∃ stored, k.validateRoute route = .ok stored ∧
          k' = { k.tick with routes := k.routes.insert stored }) ∨
      (k' = k.tick ∧ ∃ e, result = .error e) := by
  rcases attempt_cases h with ⟨rfl, hcall⟩ | ⟨rfl, e, rfl, -⟩
  · obtain ⟨_, -, hcall⟩ := bind_eq_ok.mp hcall
    obtain ⟨stored, hstored, hcall⟩ := bind_eq_ok.mp hcall
    split at hcall
    · cases hcall
    next hroute =>
        cases hcall
        exact Or.inl ⟨rfl, Bool.not_eq_true _ ▸ hroute, stored, tick_validateRoute route ▸ hstored, rfl⟩
  · exact Or.inr ⟨rfl, e, rfl⟩

lemma changeRoute_cases {route : RouteSpec} (h : k.changeRoute route = (k', result)) :
    (result = .ok () ∧ ∃ stored, k.validateRoute route = .ok stored ∧
        k' = { k.tick with routes := k.routes.insert stored }) ∨
      (k' = k.tick ∧ ∃ e, result = .error e) := by
  rcases attempt_cases h with ⟨rfl, hcall⟩ | ⟨rfl, e, rfl, -⟩
  · obtain ⟨_, -, hcall⟩ := bind_eq_ok.mp hcall
    obtain ⟨stored, hstored, hcall⟩ := bind_eq_ok.mp hcall
    cases hcall
    exact Or.inl ⟨rfl, stored, tick_validateRoute route ▸ hstored, rfl⟩
  · exact Or.inr ⟨rfl, e, rfl⟩

lemma removeRoute_cases {route : RouteKey} (h : k.removeRoute route = (k', result)) :
    (result = .ok () ∧
        k' = { k.tick with routes := k.routes.erase route.table route.destination }) ∨
      (k' = k.tick ∧ ∃ e, result = .error e ∧
        (e.isNotFound = true → k.hasRoute route.table route.destination = false)) := by
  rcases attempt_cases h with ⟨rfl, hcall⟩ | ⟨rfl, e, rfl, he⟩
  · obtain ⟨_, -, hcall⟩ := bind_eq_ok.mp hcall
    obtain ⟨_, -, hcall⟩ := bind_eq_ok.mp hcall
    split at hcall
    · cases hcall
    · cases hcall
      exact Or.inl ⟨rfl, rfl⟩
  · refine Or.inr ⟨rfl, e, rfl, fun hgone => ?_⟩
    rcases he with he | he
    · exact he.2 hgone
    · rcases bind_eq_error.mp he with hguard | ⟨_, -, he⟩
      · rw [(guardTable_error hguard).2] at hgone
        cases hgone
      rcases bind_eq_error.mp he with hcheck | ⟨_, -, he⟩
      · rw [(checkCanonical_error hcheck).2] at hgone
        cases hgone
      split at he
      next hroute => simpa using hroute
      · cases he

lemma addRule_cases {rule : RuleSpec} (h : k.addRule rule = (k', result)) :
    (result = .ok () ∧ rule ∉ k.rules ∧ k' = { k.tick with rules := k.rules ++ [rule] }) ∨
      (k' = k.tick ∧ ∃ e, result = .error e ∧ (e.isAlreadyExists = true → rule ∈ k.rules)) := by
  rcases attempt_cases h with ⟨rfl, hcall⟩ | ⟨rfl, e, rfl, he⟩
  · obtain ⟨_, -, hcall⟩ := bind_eq_ok.mp hcall
    split at hcall
    · cases hcall
    next hmem =>
        cases hcall
        exact Or.inl ⟨rfl, hmem, rfl⟩
  · refine Or.inr ⟨rfl, e, rfl, fun hexists => ?_⟩
    rcases he with he | he
    · exact of_decide_eq_true (he.1 hexists)
    · rcases bind_eq_error.mp he with hguard | ⟨_, -, he⟩
      · rw [(guardTable_error hguard).1] at hexists
        cases hexists
      split at he
      next hmem => exact hmem
      · cases he

lemma removeRule_cases {rule : RuleSpec} (h : k.removeRule rule = (k', result)) :
    (result = .ok () ∧ rule ∈ k.rules ∧ k' = { k.tick with rules := k.rules.erase rule }) ∨
      (k' = k.tick ∧ ∃ e, result = .error e ∧ (e.isNotFound = true → rule ∉ k.rules)) := by
  rcases attempt_cases h with ⟨rfl, hcall⟩ | ⟨rfl, e, rfl, he⟩
  · obtain ⟨_, -, hcall⟩ := bind_eq_ok.mp hcall
    split at hcall
    · cases hcall
    next hmem =>
        cases hcall
        exact Or.inl ⟨rfl, not_not.mp hmem, rfl⟩
  · refine Or.inr ⟨rfl, e, rfl, fun hgone => ?_⟩
    rcases he with he | he
    · exact of_decide_eq_false (he.2 hgone)
    · rcases bind_eq_error.mp he with hguard | ⟨_, -, he⟩
      · rw [(guardTable_error hguard).2] at hgone
        cases hgone
      split at he
      next hmem => exact hmem
      · cases he

end Calls

end FakeNetlink

end Netsukuku
