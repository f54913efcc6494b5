import Mathlib
import Netsukuku.Core.Sweep
import Netsukuku.Kernel.Ledger
import Netsukuku.Kernel.Tables

/-!
# What a daemon leaves in the kernel

A daemon that is killed leaves what it had written to the kernel.  The next one starts with a sweep:
the identity addresses on the loopback, and the routes and rules of the tables that are the
daemon's, its own and the one of the neighbours' on-link routes.

* `cleanup`, `cleanupNeighborRoutes`, `cleanupKernel` — the sweeps.
* `addNeighbor`, `removeNeighbor`, … — the neighbourhood manager's calls on the kernel.
* `Keeps` — two kernels differ in objects of the daemon's only; every call and every sweep keeps it.
* `cleanup_spec` — a sweep leaves what is not the daemon's as it is, and when it does not fail
  nothing of the daemon's is left.
-/

namespace Netsukuku

/-! ## What is swept -/

/-- `NETSUKUKU_ADDRESS_SPACE`. -/
def netsukukuAddressSpace : Ipv4Net := ⟨⟨10, 0, 0, 0⟩, 8, by norm_num⟩

/-- A `/32` inside the address space. -/
def Ipv4Net.isIdentity (net : Ipv4Net) : Bool :=
  net.prefixLen == 32 && netsukukuAddressSpace.contains net.address

/-- Whether the table is the main one or in the peers' range. -/
def TableAllocator.ownsTable {K : Type} (a : TableAllocator K) (table : UInt32) : Bool :=
  table == a.mainTable || a.peerRange.contains table

def RouteSpec.key (route : RouteSpec) : RouteKey := ⟨route.destination, route.table⟩

structure CleanupReport where
  addressesRemoved : List AddressEntry
  routesRemoved : List RouteKey
  rulesRemoved : List RuleSpec
  deriving DecidableEq, Repr

namespace FakeNetlink

/-- A dump fails like any other call. -/
def dump {α : Type} (k : FakeNetlink) (list : Except NetlinkError α) :
    FakeNetlink × Except NetlinkError α :=
  match k.faults k.calls with
  | some e => (k.tick, .error e)
  | none => (k.tick, list)

/-- The addresses of one interface, or of all. -/
def listAddresses (k : FakeNetlink) : Option Interface → Except NetlinkError (List AddressEntry)
  | none => .ok k.addresses
  | some interface => do
      let link ← k.resolveInterface interface
      pure (k.addresses.filter (·.interfaceIndex = link.index))

/-- Dumps, and removes what `p` selects. -/
def sweepListed {α : Type} (k : FakeNetlink) (list : Except NetlinkError (List α)) (p : α → Bool)
    (remove : FakeNetlink → α → FakeNetlink × Except NetlinkError Unit)
    (forgive : NetlinkError → Bool) : FakeNetlink × Except NetlinkError (List α) :=
  andThen (k.dump list) fun k listed => sweep remove forgive k (listed.filter p)

def sweepAddresses (k : FakeNetlink) : FakeNetlink × Except NetlinkError (List AddressEntry) :=
  k.sweepListed (k.listAddresses (some identityAddressInterface)) (·.network.isIdentity)
    (fun k entry => k.removeAddress identityAddressInterface entry.network) (·.isNotFound)

/-- The routes of `table`, or of all tables, as far as `owns` has their tables. -/
def sweepRoutes (k : FakeNetlink) (table : Option UInt32) (owns : UInt32 → Bool)
    (forgive : NetlinkError → Bool) : FakeNetlink × Except NetlinkError (List RouteSpec) :=
  k.sweepListed (.ok (k.listRoutes table)) (owns ·.table) (fun k route => k.removeRoute route.key)
    forgive

def sweepRules (k : FakeNetlink) (owns : UInt32 → Bool) (forgive : NetlinkError → Bool) :
    FakeNetlink × Except NetlinkError (List RuleSpec) :=
  k.sweepListed (.ok k.rules) (owns ·.table) removeRule forgive

end FakeNetlink

open FakeNetlink in
/-- Removes what belongs to the daemon. -/
def cleanup {K : Type} (k : FakeNetlink) (a : TableAllocator K) :
    FakeNetlink × Except NetlinkError CleanupReport :=
  andThen k.sweepAddresses fun k addresses =>
  andThen (k.sweepRoutes none a.ownsTable (·.isNotFound)) fun k routes =>
  andThen (k.sweepRules a.ownsTable (·.isNotFound)) fun k rules =>
  (k, .ok ⟨addresses, routes.map RouteSpec.key, rules⟩)

/-! ## The table of the neighbours -/

/-- `NEIGHBOR_ROUTE_TABLE`, outside the ones the allocator gives out. -/
def neighborRouteTable : UInt32 := 252

/-- `NEIGHBOR_RULE_PRIORITY`. -/
def neighborRulePriority : UInt32 := 10001

def neighborRule : RuleSpec := ⟨neighborRouteTable, neighborRulePriority, .any⟩

/-- The network at which a link-local address is installed. -/
def linklocalNet (address : Ipv4Addr) : Ipv4Net := ⟨address, 16, by norm_num⟩

/-- The on-link route to a neighbour. -/
def neighborRoute (dev : String) (neighbor : Ipv4Addr) : RouteSpec :=
  ⟨Ipv4Net.host neighbor, neighborRouteTable, .onLink (.name dev)⟩

def neighborRouteKey (neighbor : Ipv4Addr) : RouteKey :=
  ⟨Ipv4Net.host neighbor, neighborRouteTable⟩

/-- Any failure ends this sweep, "not found" as well. -/
def cleanupNeighborRoutes (k : FakeNetlink) : FakeNetlink × Except NetlinkError Unit :=
  andThen (k.sweepRoutes (some neighborRouteTable) (fun _ => true) fun _ => false) fun k _ =>
  andThen (k.sweepRules (· == neighborRouteTable) fun _ => false) fun k _ =>
  (k, .ok ())

/-- Both sweeps; the failure of the first does not stop the second. -/
def cleanupKernel {K : Type} (k : FakeNetlink) (a : TableAllocator K) :
    FakeNetlink × Except NetlinkError CleanupReport × Except NetlinkError Unit :=
  let (k, report) := cleanup k a
  let (k, neighbors) := cleanupNeighborRoutes k
  (k, report, neighbors)

/-- The rule of the neighbours' table, if it is not there. -/
def ensureNeighborRule (k : FakeNetlink) : FakeNetlink × Except NetlinkError Unit :=
  andThen (k.dump (.ok k.rules)) fun k rules =>
  if neighborRule ∈ rules then (k, .ok ()) else k.addRule neighborRule

def addNeighbor (k : FakeNetlink) (dev : String) (neighbor : Ipv4Addr) :
    FakeNetlink × Except NetlinkError Unit :=
  andThen (ensureNeighborRule k) fun k _ => k.changeRoute (neighborRoute dev neighbor)

def removeNeighbor (k : FakeNetlink) (neighbor : Ipv4Addr) :
    FakeNetlink × Except NetlinkError Unit :=
  k.removeRoute (neighborRouteKey neighbor)

/-- `LINKLOCAL_SPACE`: the addresses of `169.254.0.0/16` without the reserved first and last
`/24`. -/
def linklocalSpace : ℕ := 254 * 256

/-- The `index`-th link-local address of a node; `hash` is that of its identifier. -/
def deriveLinklocal (hash index : ℕ) : Outcome Empty Ipv4Addr := do
  let start := hash % linklocalSpace
  let sum ← Outcome.checkedAdd 32 start index
  let slot := sum % linklocalSpace
  pure ⟨169, 254, UInt8.ofNat (slot / 256) + 1, UInt8.ofNat slot⟩

/-! ## What is not the daemon's -/

namespace FakeNetlink

/-- Every route of the kernel, in the order in which it lists them. -/
def allRoutes (k : FakeNetlink) : List RouteSpec := k.routes.map.values

/-- The address is an identity's, on the loopback. -/
def isIdentityEntry (k : FakeNetlink) (entry : AddressEntry) : Bool :=
  match k.resolveInterface identityAddressInterface with
  | .ok link => entry.interfaceIndex == link.index && entry.network.isIdentity
  | .error _ => false

variable {k k' : FakeNetlink}

lemma mem_allRoutes {r : RouteSpec} :
    r ∈ k.allRoutes ↔ k.routes.get? r.table r.destination = some r := KernelRoutes.mem_values

lemma nodup_allRoutes (k : FakeNetlink) : k.allRoutes.Nodup := by
  have h := RouteInstaller.listRoutes_nodup k none
  rw [listRoutes] at h
  simpa [allRoutes] using h

/-- Erasing a route's key erases the route from the list. -/
lemma allRoutes_erase {r : RouteSpec} (hr : r ∈ k.allRoutes)
    (hroutes : k'.routes = k.routes.erase r.table r.destination) :
    k'.allRoutes = k.allRoutes.erase r := by
  have herased : k'.allRoutes = (k.routes.map.entries.filter fun e =>
      e.1 ≠ routeKey r.table r.destination).map Prod.snd := by
    rw [allRoutes, hroutes]
    rfl
  rw [(nodup_allRoutes k).erase_eq_filter, herased, allRoutes, KeyedMap.values, List.filter_map]
  refine congrArg _ (List.filter_congr ?_)
  intro e he
  have hget := KeyedMap.mem_entries_iff.mp he
  have hsame : e.1 = routeKey r.table r.destination ↔ e.2 = r := by
    constructor
    · intro heq
      have hown : k.routes.map.get? (routeKey r.table r.destination) = some r := mem_allRoutes.mp hr
      rwa [heq, hown, Option.some.injEq, eq_comm] at hget
    · intro heq
      rw [k.routes.keyed e.1 e.2 hget, heq]
  rw [Bool.eq_iff_iff]
  simp [hsame]

lemma isIdentityEntry_congr (h : k'.links = k.links) : k'.isIdentityEntry = k.isIdentityEntry := by
  funext entry
  rw [isIdentityEntry, isIdentityEntry, resolveInterface_congr h]

lemma isIdentityEntry_mk {link : LinkInfo} {net : Ipv4Net}
    (h : k.resolveInterface identityAddressInterface = .ok link) :
    k.isIdentityEntry ⟨link.index, net⟩ = net.isIdentity := by
  simp [isIdentityEntry, h]

/-- The entry is at the index of the loopback. -/
lemma exists_link_of_isIdentityEntry {entry : AddressEntry} (h : k.isIdentityEntry entry = true) :
    ∃ link, k.resolveInterface identityAddressInterface = .ok link ∧
      entry = ⟨link.index, entry.network⟩ := by
  rw [isIdentityEntry] at h
  split at h
  next link hlink =>
      simp only [Bool.and_eq_true, beq_iff_eq] at h
      exact ⟨link, hlink, by rw [← h.1]⟩
  · cases h

lemma dump_ok {α : Type} {list : Except NetlinkError α} {listed : α}
    (h : k.dump list = (k', .ok listed)) : k' = k.tick ∧ list = .ok listed := by
  unfold dump at h
  split at h <;> cases h
  exact ⟨rfl, rfl⟩

lemma dump_fst {α : Type} (k : FakeNetlink) (list : Except NetlinkError α) :
    (k.dump list).1 = k.tick := by
  unfold dump
  split <;> rfl

section Listed

variable {α : Type} {list : Except NetlinkError (List α)} {p : α → Bool}
  {remove : FakeNetlink → α → FakeNetlink × Except NetlinkError Unit}
  {forgive : NetlinkError → Bool}

/-- What a dump and every removal keep. -/
lemma sweepListed_inv (P : FakeNetlink → Prop) (htick : P k.tick)
    (hremove : ∀ listed, list = .ok listed → ∀ k, ∀ x ∈ listed, p x = true → P k →
      P (remove k x).1) : P (k.sweepListed list p remove forgive).1 := by
  refine andThen_inv (by rwa [dump_fst]) ?_
  intro k₁ listed hdump hk₁
  refine sweep_inv (P := P) ?_ hk₁
  intro k₂ x hx hk₂
  obtain ⟨hmem, hp⟩ := List.mem_filter.mp hx
  exact hremove listed (dump_ok hdump).2 k₂ x hmem hp hk₂

/-- What neither touches. -/
lemma sweepListed_frame {β : Type} (f : FakeNetlink → β) (htick : f k.tick = f k)
    (hremove : ∀ k x, f (remove k x).1 = f k) : f (k.sweepListed list p remove forgive).1 = f k :=
  sweepListed_inv (f · = f k) htick fun _ _ k' x _ _ hk' => (hremove k' x).trans hk'

end Listed

end FakeNetlink

open FakeNetlink

/-- The kernels have the same links, and differ only in addresses of `own` and in routes and rules
of the tables of `mine`. -/
structure Keeps (own : AddressEntry → Bool) (mine : UInt32 → Bool) (k₀ k : FakeNetlink) : Prop where
  links : k.links = k₀.links
  addresses : k.addresses.filter (!own ·) = k₀.addresses.filter (!own ·)
  routes : ∀ r, mine r.table = false → (r ∈ k.allRoutes ↔ r ∈ k₀.allRoutes)
  rules : k.rules.filter (!mine ·.table) = k₀.rules.filter (!mine ·.table)
  canonical : (∀ r ∈ k₀.allRoutes, r.destination.IsCanonical) →
    ∀ r ∈ k.allRoutes, r.destination.IsCanonical

variable {K : Type} {own own' : AddressEntry → Bool} {mine mine' : UInt32 → Bool}
  {k₀ k k' : FakeNetlink} {a : TableAllocator K}

namespace Keeps

lemma refl (k : FakeNetlink) : Keeps own mine k k :=
  ⟨rfl, rfl, fun _ _ => Iff.rfl, rfl, id⟩

/-- Counting a call. -/
lemma tick (h : Keeps own mine k₀ k) : Keeps own mine k₀ k.tick :=
  ⟨h.links, h.addresses, h.routes, h.rules, h.canonical⟩

lemma dump (h : Keeps own mine k₀ k) {α : Type} (list : Except NetlinkError α) :
    Keeps own mine k₀ (k.dump list).1 := by
  rw [dump_fst]
  exact h.tick

/-! ### The calls -/

lemma addAddress (h : Keeps own mine k₀ k) {interface : Interface} {net : Ipv4Net}
    (hown : ∀ link, k₀.resolveInterface interface = .ok link → own ⟨link.index, net⟩ = true) :
    Keeps own mine k₀ (k.addAddress interface net).1 := by
  rcases hcall : k.addAddress interface net with ⟨k', result⟩
  rcases addAddress_cases hcall with ⟨-, link, hlink, -, rfl⟩ | ⟨rfl, -⟩
  · rw [resolveInterface_congr h.links] at hlink
    refine ⟨h.links, ?_, h.routes, h.rules, h.canonical⟩
    simp [List.filter_append, hown link hlink, h.addresses]
  · exact h.tick

lemma removeAddress (h : Keeps own mine k₀ k) {interface : Interface} {net : Ipv4Net}
    (hown : ∀ link, k₀.resolveInterface interface = .ok link → own ⟨link.index, net⟩ = true) :
    Keeps own mine k₀ (k.removeAddress interface net).1 := by
  rcases hcall : k.removeAddress interface net with ⟨k', result⟩
  rcases removeAddress_cases hcall with ⟨-, link, hlink, -, rfl⟩ | ⟨rfl, -⟩
  · rw [resolveInterface_congr h.links] at hlink
    refine ⟨h.links, ?_, h.routes, h.rules, h.canonical⟩
    show (k.addresses.erase _).filter _ = _
    rw [← List.erase_filter, List.erase_of_not_mem, h.addresses]
    simp [hown link hlink]
  · exact h.tick

/-- A route of `mine` is stored. -/
lemma insertRoute (h : Keeps own mine k₀ k) {route stored : RouteSpec}
    (hmine : mine route.table = true) (hstored : k.validateRoute route = .ok stored) :
    Keeps own mine k₀ { k.tick with routes := k.routes.insert stored } := by
  obtain ⟨hdest, htable⟩ := validateRoute_key hstored
  have hmem : ∀ r, r ∈ FakeNetlink.allRoutes { k.tick with routes := k.routes.insert stored } ↔
      if r.table = stored.table ∧ r.destination = stored.destination then stored = r
      else r ∈ k.allRoutes := by
    intro r
    rw [mem_allRoutes, KernelRoutes.get?_insert, mem_allRoutes]
    split_ifs
    · rw [Option.some.injEq]
    · rfl
  refine ⟨h.links, h.addresses, ?_, h.rules, ?_⟩
  · intro r hr
    rw [hmem, if_neg, h.routes r hr]
    rintro ⟨heq, -⟩
    rw [heq, htable, hmine] at hr
    cases hr
  · intro hcanonical r hr
    rw [hmem] at hr
    split_ifs at hr
    · obtain ⟨_, hcheck, -⟩ := bind_eq_ok.mp hstored
      rw [← hr, hdest]
      by_contra hnot
      rw [checkCanonical, if_neg hnot] at hcheck
      cases hcheck
    · exact h.canonical hcanonical r hr

lemma addRoute (h : Keeps own mine k₀ k) (route : RouteSpec) (hmine : mine route.table = true) :
    Keeps own mine k₀ (k.addRoute route).1 := by
  rcases hcall : k.addRoute route with ⟨k', result⟩
  rcases addRoute_cases hcall with ⟨-, -, stored, hstored, rfl⟩ | ⟨rfl, -⟩
  · exact h.insertRoute hmine hstored
  · exact h.tick

lemma changeRoute (h : Keeps own mine k₀ k) (route : RouteSpec) (hmine : mine route.table = true) :
    Keeps own mine k₀ (k.changeRoute route).1 := by
  rcases hcall : k.changeRoute route with ⟨k', result⟩
  rcases changeRoute_cases hcall with ⟨-, stored, hstored, rfl⟩ | ⟨rfl, -⟩
  · exact h.insertRoute hmine hstored
  · exact h.tick

lemma removeRoute (h : Keeps own mine k₀ k) (route : RouteKey) (hmine : mine route.table = true) :
    Keeps own mine k₀ (k.removeRoute route).1 := by
  rcases hcall : k.removeRoute route with ⟨k', result⟩
  rcases removeRoute_cases hcall with ⟨-, rfl⟩ | ⟨rfl, -⟩
  · have hmem : ∀ r, r ∈ FakeNetlink.allRoutes
        { k.tick with routes := k.routes.erase route.table route.destination } ↔
          ¬ (r.table = route.table ∧ r.destination = route.destination) ∧ r ∈ k.allRoutes := by
      intro r
      rw [mem_allRoutes, KernelRoutes.get?_erase, mem_allRoutes]
      split_ifs with heq
      · simp [heq]
      · simp [heq]
    refine ⟨h.links, h.addresses, ?_, h.rules, ?_⟩
    · intro r hr
      rw [hmem, h.routes r hr]
      refine and_iff_right ?_
      rintro ⟨heq, -⟩
      rw [heq, hmine] at hr
      cases hr
    · intro hcanonical r hr
      exact h.canonical hcanonical r ((hmem r).mp hr).2
  · exact h.tick

lemma addRule (h : Keeps own mine k₀ k) (rule : RuleSpec) (hmine : mine rule.table = true) :
    Keeps own mine k₀ (k.addRule rule).1 := by
  rcases hcall : k.addRule rule with ⟨k', result⟩
  rcases addRule_cases hcall with ⟨-, -, rfl⟩ | ⟨rfl, -⟩
  · refine ⟨h.links, h.addresses, h.routes, ?_, h.canonical⟩
    simp [List.filter_append, hmine, h.rules]
  · exact h.tick

lemma removeRule (h : Keeps own mine k₀ k) (rule : RuleSpec) (hmine : mine rule.table = true) :
    Keeps own mine k₀ (k.removeRule rule).1 := by
  rcases hcall : k.removeRule rule with ⟨k', result⟩
  rcases removeRule_cases hcall with ⟨-, -, rfl⟩ | ⟨rfl, -⟩
  · refine ⟨h.links, h.addresses, h.routes, ?_, h.canonical⟩
    show (k.rules.erase _).filter _ = _
    rw [← List.erase_filter, List.erase_of_not_mem, h.rules]
    simp [hmine]
  · exact h.tick

/-! ### The sweeps -/

lemma sweepAddresses (h : Keeps own mine k₀ k)
    (hown : ∀ e, k₀.isIdentityEntry e = true → own e = true) :
    Keeps own mine k₀ k.sweepAddresses.1 := by
  refine sweepListed_inv _ h.tick ?_
  intro listed _ k₁ x _ hp hk₁
  refine hk₁.removeAddress ?_
  intro link hlink
  exact hown _ (by rw [isIdentityEntry_mk hlink, hp])

lemma sweepRoutes (h : Keeps own mine k₀ k) {table : Option UInt32} {owns : UInt32 → Bool}
    {forgive : NetlinkError → Bool}
    (hmine : ∀ t, table.all (t = ·) = true → owns t = true → mine t = true) :
    Keeps own mine k₀ (k.sweepRoutes table owns forgive).1 := by
  refine sweepListed_inv _ h.tick ?_
  rintro listed ⟨⟩ k₁ x hx hp hk₁
  exact hk₁.removeRoute x.key (hmine x.table (List.mem_filter.mp hx).2 hp)

lemma sweepRules (h : Keeps own mine k₀ k) {owns : UInt32 → Bool} {forgive : NetlinkError → Bool}
    (hmine : ∀ t, owns t = true → mine t = true) :
    Keeps own mine k₀ (k.sweepRules owns forgive).1 := by
  refine sweepListed_inv _ h.tick ?_
  intro listed _ k₁ x _ hp hk₁
  exact hk₁.removeRule x (hmine x.table hp)

lemma cleanup (h : Keeps own mine k₀ k) (hown : ∀ e, k₀.isIdentityEntry e = true → own e = true)
    (hmine : ∀ t, a.ownsTable t = true → mine t = true) :
    Keeps own mine k₀ (cleanup k a).1 := by
  refine andThen_inv (h.sweepAddresses hown) ?_
  intro k₁ addresses _ hk₁
  refine andThen_inv (hk₁.sweepRoutes fun t _ ht => hmine t ht) ?_
  intro k₂ routes _ hk₂
  refine andThen_inv (hk₂.sweepRules hmine) ?_
  intro k₃ rules _ hk₃
  exact hk₃

lemma cleanupNeighborRoutes (h : Keeps own mine k₀ k) (hmine : mine neighborRouteTable = true) :
    Keeps own mine k₀ (cleanupNeighborRoutes k).1 := by
  refine andThen_inv (h.sweepRoutes ?_) ?_
  · intro t ht _
    have heq : t = neighborRouteTable := by simpa using ht
    rw [heq, hmine]
  · intro k₁ _ _ hk₁
    refine andThen_inv (hk₁.sweepRules ?_) ?_
    · intro t ht
      rw [beq_iff_eq.mp ht, hmine]
    · intro k₂ _ _ hk₂
      exact hk₂

lemma cleanupKernel (h : Keeps own mine k₀ k)
    (hown : ∀ e, k₀.isIdentityEntry e = true → own e = true)
    (hmine : ∀ t, a.ownsTable t = true → mine t = true) (hneighbor : mine neighborRouteTable = true) :
    Keeps own mine k₀ (cleanupKernel k a).1 :=
  (h.cleanup hown hmine).cleanupNeighborRoutes hneighbor

end Keeps

/-! ## A sweep that succeeds -/

namespace FakeNetlink

lemma removes_addresses (k₀ : FakeNetlink) :
    Removes (fun k : FakeNetlink => k.links = k₀.links) addresses k₀.isIdentityEntry
      (fun k entry => k.removeAddress identityAddressInterface entry.network) (·.isNotFound) := by
  have hentry : ∀ {k : FakeNetlink} {x : AddressEntry}, k.links = k₀.links →
      k₀.isIdentityEntry x = true →
        ∃ link, k.resolveInterface identityAddressInterface = .ok link ∧
          x = ⟨link.index, x.network⟩ := by
    intro k x hlinks hx
    rw [← isIdentityEntry_congr hlinks] at hx
    exact exists_link_of_isIdentityEntry hx
  refine .of_call ?_ ?_
  · intro k x hlinks
    rcases hcall : k.removeAddress identityAddressInterface x.network with ⟨k', result⟩
    rcases removeAddress_cases hcall with ⟨-, link, -, -, rfl⟩ | ⟨rfl, -⟩
    · exact hlinks
    · exact hlinks
  · intro k x k' r hlinks _ hx hcall
    obtain ⟨link, hlink, heq⟩ := hentry hlinks hx
    rcases removeAddress_cases hcall with ⟨rfl, link', hlink', -, rfl⟩ | ⟨-, e, rfl, hgone⟩
    · rw [hlink, Except.ok.injEq] at hlink'
      refine .inl ⟨rfl, ?_⟩
      rw [← hlink', ← heq]
    · refine .inr ⟨e, rfl, ?_⟩
      intro hnot hmem
      have hhas : k.hasAddress identityAddressInterface x.network = true :=
        (hasAddress_iff hlink).mpr (heq ▸ hmem)
      rw [hgone hnot] at hhas
      cases hhas

lemma removes_routes {p : RouteSpec → Bool} {forgive : NetlinkError → Bool}
    (hforgive : ∀ e, forgive e = true → e.isNotFound = true) :
    Removes (fun _ => True) allRoutes p (fun k route => k.removeRoute route.key) forgive := by
  refine .of_call (fun _ => trivial) ?_
  intro k x k' r _ hmem _ hcall
  rcases removeRoute_cases hcall with ⟨rfl, rfl⟩ | ⟨-, e, rfl, hgone⟩
  · exact .inl ⟨rfl, allRoutes_erase hmem rfl⟩
  · refine .inr ⟨e, rfl, ?_⟩
    intro hnot _
    have hhas : k.hasRoute x.key.table x.key.destination = true := by
      rw [hasRoute, RouteSpec.key, mem_allRoutes.mp hmem]
      rfl
    rw [hgone (hforgive e hnot)] at hhas
    cases hhas

lemma removes_rules {p : RuleSpec → Bool} {forgive : NetlinkError → Bool}
    (hforgive : ∀ e, forgive e = true → e.isNotFound = true) :
    Removes (fun _ => True) rules p removeRule forgive := by
  refine .of_call (fun _ => trivial) ?_
  intro k x k' r _ _ _ hcall
  rcases removeRule_cases hcall with ⟨rfl, -, rfl⟩ | ⟨-, e, rfl, hgone⟩
  · exact .inl ⟨rfl, rfl⟩
  · exact .inr ⟨e, rfl, fun hnot => hgone (hforgive e hnot)⟩

variable {owns : UInt32 → Bool} {forgive : NetlinkError → Bool}

/-- A dump and a sweep, when neither fails. -/
lemma sweepListed_ok {α : Type} [DecidableEq α] {inv : FakeNetlink → Prop}
    {items : FakeNetlink → List α} {p q : α → Bool}
    {remove : FakeNetlink → α → FakeNetlink × Except NetlinkError Unit}
    {list : Except NetlinkError (List α)} {removed : List α}
    (h : Removes inv items p remove forgive) (hinv : inv k.tick) (htick : items k.tick = items k)
    (hlist : ∀ listed, list = .ok listed → listed.filter q = (items k).filter p)
    (hsweep : k.sweepListed list q remove forgive = (k', .ok removed)) :
    removed = (items k).filter p ∧ items k' = (items k).filter (!p ·) := by
  obtain ⟨k₁, listed, hdump, hrun⟩ := andThen_eq_ok.mp hsweep
  obtain ⟨rfl, hok⟩ := dump_ok hdump
  obtain ⟨hremoved, hitems⟩ := h.sweep_ok hinv (by rw [htick, hlist listed hok]) hrun
  rw [hlist listed hok] at hremoved
  rw [htick] at hitems
  exact ⟨hremoved, hitems⟩

lemma filter_listAddresses {listed : List AddressEntry}
    (h : k.listAddresses (some identityAddressInterface) = .ok listed) :
    listed.filter (·.network.isIdentity) = k.addresses.filter k.isIdentityEntry := by
  obtain ⟨link, hlink, hlisted⟩ := bind_eq_ok.mp h
  cases hlisted
  rw [List.filter_filter]
  refine List.filter_congr ?_
  intro entry _
  rw [isIdentityEntry, hlink, Bool.and_comm]
  rfl

lemma filter_listRoutes (k : FakeNetlink) (table : Option UInt32) (owns : UInt32 → Bool) :
    (k.listRoutes table).filter (owns ·.table) =
      k.allRoutes.filter fun r => table.all (r.table = ·) && owns r.table := by
  rw [listRoutes, List.filter_filter]
  refine List.filter_congr ?_
  intro r _
  rw [Bool.and_comm]

lemma sweepAddresses_ok {removed : List AddressEntry} (h : k.sweepAddresses = (k', .ok removed)) :
    removed = k.addresses.filter k.isIdentityEntry ∧
      k'.addresses = k.addresses.filter (!k.isIdentityEntry ·) ∧
      k'.allRoutes = k.allRoutes ∧ k'.rules = k.rules := by
  obtain ⟨hremoved, hitems⟩ := sweepListed_ok (removes_addresses k) rfl rfl
    (fun _ => filter_listAddresses) h
  have hcall : ∀ (k : FakeNetlink) net,
      (k.removeAddress identityAddressInterface net).1.allRoutes = k.allRoutes ∧
        (k.removeAddress identityAddressInterface net).1.rules = k.rules := by
    intro k net
    rcases hcall : k.removeAddress identityAddressInterface net with ⟨k', result⟩
    rcases removeAddress_cases hcall with ⟨-, link, -, -, rfl⟩ | ⟨rfl, -⟩
    · exact ⟨rfl, rfl⟩
    · exact ⟨rfl, rfl⟩
  have hroutes : k.sweepAddresses.1.allRoutes = k.allRoutes :=
    sweepListed_frame allRoutes rfl fun k x => (hcall k x.network).1
  have hrules : k.sweepAddresses.1.rules = k.rules :=
    sweepListed_frame rules rfl fun k x => (hcall k x.network).2
  rw [h] at hroutes hrules
  exact ⟨hremoved, hitems, hroutes, hrules⟩

lemma sweepRoutes_ok {table : Option UInt32} {removed : List RouteSpec}
    (hforgive : ∀ e, forgive e = true → e.isNotFound = true)
    (h : k.sweepRoutes table owns forgive = (k', .ok removed)) :
    removed = k.allRoutes.filter (fun r => table.all (r.table = ·) && owns r.table) ∧
      k'.allRoutes = k.allRoutes.filter (fun r => !(table.all (r.table = ·) && owns r.table)) ∧
      k'.addresses = k.addresses ∧ k'.rules = k.rules := by
  obtain ⟨hremoved, hitems⟩ := sweepListed_ok (removes_routes hforgive) trivial rfl
    (by rintro listed ⟨⟩; exact filter_listRoutes k table owns) h
  have hcall : ∀ (k : FakeNetlink) key,
      (k.removeRoute key).1.addresses = k.addresses ∧ (k.removeRoute key).1.rules = k.rules := by
    intro k key
    rcases hcall : k.removeRoute key with ⟨k', result⟩
    rcases removeRoute_cases hcall with ⟨-, rfl⟩ | ⟨rfl, -⟩
    · exact ⟨rfl, rfl⟩
    · exact ⟨rfl, rfl⟩
  have haddresses : (k.sweepRoutes table owns forgive).1.addresses = k.addresses :=
    sweepListed_frame addresses rfl fun k x => (hcall k x.key).1
  have hrules : (k.sweepRoutes table owns forgive).1.rules = k.rules :=
    sweepListed_frame rules rfl fun k x => (hcall k x.key).2
  rw [h] at haddresses hrules
  exact ⟨hremoved, hitems, haddresses, hrules⟩

lemma sweepRules_ok {removed : List RuleSpec}
    (hforgive : ∀ e, forgive e = true → e.isNotFound = true)
    (h : k.sweepRules owns forgive = (k', .ok removed)) :
    removed = k.rules.filter (owns ·.table) ∧ k'.rules = k.rules.filter (!owns ·.table) ∧
      k'.addresses = k.addresses ∧ k'.allRoutes = k.allRoutes := by
  obtain ⟨hremoved, hitems⟩ := sweepListed_ok (removes_rules hforgive) trivial rfl
    (by rintro listed ⟨⟩; rfl) h
  have hcall : ∀ (k : FakeNetlink) rule,
      (k.removeRule rule).1.addresses = k.addresses ∧
        (k.removeRule rule).1.allRoutes = k.allRoutes := by
    intro k rule
    rcases hcall : k.removeRule rule with ⟨k', result⟩
    rcases removeRule_cases hcall with ⟨-, -, rfl⟩ | ⟨rfl, -⟩
    · exact ⟨rfl, rfl⟩
    · exact ⟨rfl, rfl⟩
  have haddresses : (k.sweepRules owns forgive).1.addresses = k.addresses :=
    sweepListed_frame addresses rfl fun k x => (hcall k x).1
  have hroutes : (k.sweepRules owns forgive).1.allRoutes = k.allRoutes :=
    sweepListed_frame allRoutes rfl fun k x => (hcall k x).2
  rw [h] at haddresses hroutes
  exact ⟨hremoved, hitems, haddresses, hroutes⟩

end FakeNetlink

/-- A cleanup that succeeded has removed exactly what was the daemon's. -/
lemma cleanup_ok {report : CleanupReport} (h : cleanup k a = (k', .ok report)) :
    report = ⟨k.addresses.filter k.isIdentityEntry,
        (k.allRoutes.filter (a.ownsTable ·.table)).map RouteSpec.key,
        k.rules.filter (a.ownsTable ·.table)⟩ ∧
      k'.addresses = k.addresses.filter (!k.isIdentityEntry ·) ∧
      k'.allRoutes = k.allRoutes.filter (!a.ownsTable ·.table) ∧
      k'.rules = k.rules.filter (!a.ownsTable ·.table) := by
  obtain ⟨k₁, addresses, hone, h⟩ := andThen_eq_ok.mp h
  obtain ⟨k₂, routes, htwo, h⟩ := andThen_eq_ok.mp h
  obtain ⟨k₃, rules, hthree, h⟩ := andThen_eq_ok.mp h
  cases h
  obtain ⟨rfl, haddresses, hroutes, hrules⟩ := sweepAddresses_ok hone
  obtain ⟨rfl, hroutes₂, haddresses₂, hrules₂⟩ := sweepRoutes_ok (fun _ => id) htwo
  obtain ⟨rfl, hrules₃, haddresses₃, hroutes₃⟩ := sweepRules_ok (fun _ => id) hthree
  simp only [Option.all_none, Bool.true_and] at hroutes₂ ⊢
  refine ⟨?_, ?_, ?_, ?_⟩
  · rw [hroutes, hrules₂, hrules]
  · rw [haddresses₃, haddresses₂, haddresses]
  · rw [hroutes₃, hroutes₂, hroutes]
  · rw [hrules₃, hrules₂, hrules]

lemma cleanupNeighborRoutes_ok (h : cleanupNeighborRoutes k = (k', .ok ())) :
    k'.addresses = k.addresses ∧
      k'.allRoutes = k.allRoutes.filter (!·.table == neighborRouteTable) ∧
      k'.rules = k.rules.filter (!·.table == neighborRouteTable) := by
  obtain ⟨k₁, routes, hone, h⟩ := andThen_eq_ok.mp h
  obtain ⟨k₂, rules, htwo, h⟩ := andThen_eq_ok.mp h
  cases h
  obtain ⟨-, hroutes, haddresses, hrules⟩ := sweepRoutes_ok (fun _ h => absurd h (by simp)) hone
  obtain ⟨-, hrules₂, haddresses₂, hroutes₂⟩ := sweepRules_ok (fun _ h => absurd h (by simp)) htwo
  refine ⟨by rw [haddresses₂, haddresses], ?_, by rw [hrules₂, hrules]⟩
  rw [hroutes₂, hroutes]
  refine List.filter_congr ?_
  intro r _
  simp [beq_eq_decide]

/-- **A cleanup of any kernel.**  What is not the daemon's stays as it is, also when a call fails
half-way; if none fails, exactly what was the daemon's is reported and gone. -/
theorem cleanup_spec (k : FakeNetlink) (a : TableAllocator K) :
    Keeps k.isIdentityEntry a.ownsTable k (cleanup k a).1 ∧
    ∀ report, (cleanup k a).2 = .ok report →
      report = ⟨k.addresses.filter k.isIdentityEntry,
        (k.allRoutes.filter (a.ownsTable ·.table)).map RouteSpec.key,
        k.rules.filter (a.ownsTable ·.table)⟩ ∧
      (cleanup k a).1.addresses = k.addresses.filter (!k.isIdentityEntry ·) ∧
      (cleanup k a).1.allRoutes = k.allRoutes.filter (!a.ownsTable ·.table) ∧
      (cleanup k a).1.rules = k.rules.filter (!a.ownsTable ·.table) :=
  ⟨(Keeps.refl k).cleanup (fun _ => id) fun _ => id,
    fun _ hreport => cleanup_ok (Prod.ext rfl hreport)⟩

end Netsukuku
