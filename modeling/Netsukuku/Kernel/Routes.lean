import Mathlib
import Netsukuku.Kernel.Netlink
import Netsukuku.Qspn.State

/-!
# The route ledger of an identity

A `RouteInstaller` owns one routing table, one rule and one address of the kernel and keeps them
in step with the published routes.  It records what it has installed (`applied`,
`identityAddress`, `ruleInstalled`) one kernel call at a time, so that a call that fails in the
middle of a batch leaves the records true.

* `installIdentity`, `apply`, `teardown`, `realize` — the operations.
* `Ledger` — the records describe the kernel; every operation keeps it, whichever calls fail.
* `route_ledger` — what follows for every run.

An operation returns the installer beside its result, because what it did before a failure stays.
-/

namespace Netsukuku

inductive RouteError where
  | netlink (e : NetlinkError)
  | addressing (e : AddressingError)
  deriving DecidableEq, Repr

/-! ## Targets -/

/-- A path whose leading arc has an endpoint. -/
structure Usable where
  via : Ipv4Addr
  dev : Interface
  cost : Cost
  deriving DecidableEq, Repr

/-- The paths that are not dead and whose arc has an endpoint. -/
def resolveUsable (paths : List RoutePath) (endpoints : KeyedMap ArcId (Ipv4Addr × Interface)) :
    List Usable :=
  (paths.filter fun path => path.cost ≠ .dead).filterMap fun path =>
    (endpoints.get? path.arc).map fun (via, dev) => ⟨via, dev, path.cost⟩

/-- One path per gateway, the first of each. -/
def dedupeByGateway (seen : List (Ipv4Addr × Interface)) : List Usable → List Usable
  | [] => []
  | u :: rest =>
      if (u.via, u.dev) ∈ seen then dedupeByGateway seen rest
      else u :: dedupeByGateway ((u.via, u.dev) :: seen) rest

/-- A cost as a positive magnitude. -/
def effectiveCost : Cost → Outcome RouteError ℕ
  | .null => .ok 1
  | .finite magnitude => .ok (max magnitude.toNat 1)
  | .dead => .error (.panic "Dead-cost paths are filtered out by resolve_usable")

/-- The weight of a next hop, relative to the cheapest one. -/
def nexthopWeight (cost : Cost) (best : ℕ) : Outcome RouteError UInt8 := do
  let effective ← effectiveCost cost
  let realWeight := min (max (256 * best / effective) 1) 256
  pure (UInt8.ofNat (realWeight - 1))

/-- The target for one destination's paths. -/
def routeTarget (paths : List RoutePath) (endpoints : KeyedMap ArcId (Ipv4Addr × Interface))
    (src : Option Ipv4Addr) : Outcome RouteError RouteTarget :=
  match dedupeByGateway [] (resolveUsable paths endpoints) with
  | [] => pure .unreachable
  | [only] => pure (.gateway only.via only.dev src)
  | several => do
      let costs ← several.mapM fun u => effectiveCost u.cost
      let best ← Outcome.expect "non-empty slice" costs.min?
      let nexthops ← several.mapM fun u => do
        let weight ← nexthopWeight u.cost best
        pure ⟨u.via, u.dev, weight⟩
      pure (.multipath nexthops)

/-! ## The installer -/

/-- How many routes one `apply` added, changed and removed. -/
structure AppliedDelta where
  added : ℕ := 0
  changed : ℕ := 0
  removed : ℕ := 0
  deriving DecidableEq, Repr

structure RouteInstaller where
  kernel : FakeNetlink
  myNaddr : Naddr
  table : UInt32
  rulePriority : UInt32
  arcEndpoints : KeyedMap ArcId (Ipv4Addr × Interface)
  applied : KeyedMap HCoord RouteSpec
  identityAddress : Option Ipv4Net
  ruleInstalled : Bool

/-- `IDENTITY_ADDRESS_INTERFACE`. -/
def identityAddressInterface : Interface := .name "lo"

/-- An object that is there already counts as added. -/
def adopting : Except NetlinkError Unit → Except NetlinkError Unit
  | .ok () => .ok ()
  | .error e => if e.isAlreadyExists then .ok () else .error e

/-- An object that is gone already counts as removed. -/
def forgiving : Except NetlinkError Unit → Except NetlinkError Unit
  | .ok () => .ok ()
  | .error e => if e.isNotFound then .ok () else .error e

namespace RouteInstaller

def new (kernel : FakeNetlink) (myNaddr : Naddr) (table rulePriority : UInt32) : RouteInstaller :=
  { kernel, myNaddr, table, rulePriority, arcEndpoints := .empty, applied := .empty,
    identityAddress := none, ruleInstalled := false }

def isInstalled (s : RouteInstaller) : Bool :=
  s.identityAddress.isSome || s.ruleInstalled || !s.applied.entries.isEmpty

def realize (s : RouteInstaller) (realNaddr : Naddr) : RouteInstaller :=
  { s with myNaddr := realNaddr }

def setArcEndpoint (s : RouteInstaller) (arc : ArcId) (via : Ipv4Addr) (dev : Interface) :
    RouteInstaller :=
  { s with arcEndpoints := s.arcEndpoints.insertOrdered arc (via, dev) }

def clearArcEndpoint (s : RouteInstaller) (arc : ArcId) : RouteInstaller :=
  { s with arcEndpoints := s.arcEndpoints.erase arc }

/-- The catch-all rule of this identity. -/
def rule (s : RouteInstaller) : RuleSpec := ⟨s.table, s.rulePriority, .any⟩

/-- The second half of `install_identity`: the address is recorded, then comes the rule. -/
def installRule (s : RouteInstaller) (address : Ipv4Net) : RouteInstaller × Outcome RouteError Unit :=
  let s := { s with identityAddress := some address }
  let (kernel, result) := s.kernel.addRule s.rule
  match adopting result with
  | .ok () => ({ s with kernel, ruleInstalled := true }, .ok ())
  | .error e => ({ s with kernel }, Outcome.fail (.netlink e))

def installIdentity (s : RouteInstaller) : RouteInstaller × Outcome RouteError Unit :=
  if s.myNaddr.isVirtual then (s, .ok ())
  else
    match Outcome.mapErr RouteError.addressing (hostAddress s.myNaddr) with
    | .error e => (s, .error e)
    | .ok address =>
        let (kernel, result) := s.kernel.addAddress identityAddressInterface address
        match adopting result with
        | .ok () => { s with kernel }.installRule address
        | .error e => ({ s with kernel }, Outcome.fail (.netlink e))

/-- The target of one snapshot entry. -/
def entryTarget (s : RouteInstaller) (entry : RouteEntry) : Outcome RouteError RouteTarget :=
  routeTarget entry.paths s.arcEndpoints (s.identityAddress.map (·.address))

/-- One snapshot entry; an entry whose destination cannot be encoded is dropped. -/
def nextRoute (s : RouteInstaller) (next : KeyedMap HCoord RouteSpec) (entry : RouteEntry) :
    Outcome RouteError (KeyedMap HCoord RouteSpec) :=
  match gnodeDestination s.myNaddr entry.destination with
  | .error (.err _) => .ok next
  | .error (.panic site) => .error (.panic site)
  | .ok destination => do
      let target ← s.entryTarget entry
      pure (next.insertOrdered entry.destination ⟨destination, s.table, target⟩)

/-- The routes a snapshot asks for. -/
def nextRoutes (s : RouteInstaller) (snapshot : RouteSnapshot) :
    Outcome RouteError (KeyedMap HCoord RouteSpec) :=
  snapshot.flatten.foldlM s.nextRoute .empty

/-- The state of a batch: the installer, what was done, and the first failure. -/
structure Batch where
  installer : RouteInstaller
  delta : AppliedDelta
  firstError : Option NetlinkError

/-- `get_or_insert`. -/
def Batch.failed (b : Batch) (kernel : FakeNetlink) (e : NetlinkError) : Batch :=
  { b with installer := { b.installer with kernel }, firstError := b.firstError.or (some e) }

/-- One destination of the new routes: added, changed or left alone. -/
def installRoute (b : Batch) (entry : HCoord × RouteSpec) : Batch :=
  let s := b.installer
  if s.applied.get? entry.1 = some entry.2 then b
  else
    let known := s.applied.contains entry.1
    let (kernel, result) :=
      if known then s.kernel.changeRoute entry.2 else s.kernel.addRoute entry.2
    match result with
    | .error e => b.failed kernel e
    | .ok () =>
        { b with
          installer := { s with kernel, applied := s.applied.insertOrdered entry.1 entry.2 }
          delta := if known then { b.delta with changed := b.delta.changed + 1 }
            else { b.delta with added := b.delta.added + 1 } }

/-- Removes the route `previous` to a destination. -/
def dropRoute (b : Batch) (destination : HCoord) (previous : RouteSpec) : Batch :=
  let s := b.installer
  let (kernel, result) := s.kernel.removeRoute ⟨previous.destination, previous.table⟩
  match forgiving result with
  | .error e => b.failed kernel e
  | .ok () =>
      { b with
        installer := { s with kernel, applied := s.applied.erase destination }
        delta := { b.delta with removed := b.delta.removed + 1 } }

/-- One destination that dropped out of the snapshot. -/
def removeStale (b : Batch) (destination : HCoord) : Outcome RouteError Batch := do
  let previous ← Outcome.expect "destination came from self.applied's own keys"
    (b.installer.applied.get? destination)
  pure (dropRoute b destination previous)

def apply (s : RouteInstaller) (snapshot : RouteSnapshot) :
    RouteInstaller × Outcome RouteError AppliedDelta :=
  if s.myNaddr.isVirtual then (s, .ok {})
  else
    match s.nextRoutes snapshot with
    | .error e => (s, .error e)
    | .ok next =>
        let b := next.entries.foldl installRoute ⟨s, {}, none⟩
        let stale := b.installer.applied.keys.filter fun destination => !next.contains destination
        match stale.foldlM removeStale b with
        | .error e => (b.installer, .error e)
        | .ok b =>
            match b.firstError with
            | some e => (b.installer, Outcome.fail (.netlink e))
            | none => (b.installer, .ok b.delta)

/-- One applied route of a teardown; the ones that stay are recorded again. -/
def tearRoute (b : RouteInstaller × Option NetlinkError) (entry : HCoord × RouteSpec) :
    RouteInstaller × Option NetlinkError :=
  let (s, firstError) := b
  let (kernel, result) := s.kernel.removeRoute ⟨entry.2.destination, entry.2.table⟩
  match forgiving result with
  | .ok () => ({ s with kernel }, firstError)
  | .error e =>
      ({ s with kernel, applied := s.applied.insertOrdered entry.1 entry.2 },
        firstError.or (some e))

def tearRule (b : RouteInstaller × Option NetlinkError) : RouteInstaller × Option NetlinkError :=
  let (s, firstError) := b
  if s.ruleInstalled then
    let (kernel, result) := s.kernel.removeRule s.rule
    match forgiving result with
    | .ok () => ({ s with kernel, ruleInstalled := false }, firstError)
    | .error e => ({ s with kernel }, firstError.or (some e))
  else b

def tearAddress (b : RouteInstaller × Option NetlinkError) :
    RouteInstaller × Option NetlinkError :=
  let (s, firstError) := b
  match s.identityAddress with
  | none => b
  | some address =>
      let (kernel, result) := s.kernel.removeAddress identityAddressInterface address
      match forgiving result with
      | .ok () => ({ s with kernel, identityAddress := none }, firstError)
      | .error e => ({ s with kernel }, firstError.or (some e))

def teardown (s : RouteInstaller) : RouteInstaller × Outcome RouteError Unit :=
  let routes := s.applied.entries.foldl tearRoute ({ s with applied := .empty }, none)
  let (s, firstError) := tearAddress (tearRule routes)
  match firstError with
  | some e => (s, Outcome.fail (.netlink e))
  | none => (s, .ok ())

/-! ## Records that describe the table -/

/-- The routes of the table are exactly the recorded ones, each to the block of its g-node, none
of them `me`'s own. -/
structure Describes (me : Naddr) (table : UInt32) (known : HCoord → Option RouteSpec)
    (k : FakeNetlink) : Prop where
  encodes : ∀ hc spec, known hc = some spec →
    gnodeDestination me hc = .ok spec.destination ∧ spec.table = table ∧
      me.pos hc.level ≠ some hc.pos
  held : ∀ hc spec, known hc = some spec → ∃ stored, k.validateRoute spec = .ok stored ∧
    k.routes.get? table spec.destination = some stored
  owned : ∀ destination r, k.routes.get? table destination = some r →
    ∃ hc spec, known hc = some spec ∧ spec.destination = destination

namespace Describes

variable {me : Naddr} {table : UInt32} {known : HCoord → Option RouteSpec} {k k' : FakeNetlink}
  {hc : HCoord} {spec stored previous : RouteSpec}

/-- Only the links and the routes matter. -/
lemma congr (h : Describes me table known k) (hlinks : k'.links = k.links)
    (hroutes : k'.routes = k.routes) : Describes me table known k' where
  encodes := h.encodes
  held := by
    intro hc spec hknown
    rw [FakeNetlink.validateRoute_congr hlinks, hroutes]
    exact h.held hc spec hknown
  owned := by
    rw [hroutes]
    exact h.owned

/-- Storing the route of a g-node, over the one it had or beside the others. -/
lemma insert (h : Describes me table known k) (hme : me.IsReal)
    (hdest : gnodeDestination me hc = .ok spec.destination) (htable : spec.table = table)
    (hown : me.pos hc.level ≠ some hc.pos) (hstored : k.validateRoute spec = .ok stored)
    (hlinks : k'.links = k.links) (hroutes : k'.routes = k.routes.insert stored) :
    Describes me table (Function.update known hc (some spec)) k' := by
  obtain ⟨hsd, hst⟩ := FakeNetlink.validateRoute_key hstored
  have hget : ∀ destination, k'.routes.get? table destination =
      if destination = spec.destination then some stored
      else k.routes.get? table destination := by
    intro destination
    rw [hroutes, KernelRoutes.get?_insert, hsd, hst]
    simp [htable]
  constructor
  · intro hc' spec' hknown
    by_cases hhc : hc' = hc
    · subst hhc
      rw [Function.update_self] at hknown
      cases hknown
      exact ⟨hdest, htable, hown⟩
    · rw [Function.update_of_ne hhc] at hknown
      exact h.encodes hc' spec' hknown
  · intro hc' spec' hknown
    rw [FakeNetlink.validateRoute_congr hlinks]
    by_cases hhc : hc' = hc
    · subst hhc
      rw [Function.update_self] at hknown
      cases hknown
      exact ⟨stored, hstored, by rw [hget, if_pos rfl]⟩
    · rw [Function.update_of_ne hhc] at hknown
      obtain ⟨hdest', -, hown'⟩ := h.encodes hc' spec' hknown
      -- The blocks of two g-nodes differ, so the other route is not touched.
      have hne : spec'.destination ≠ spec.destination := fun heq =>
        hhc (gnodeDestination_injective hme (heq ▸ hdest') hdest hown' hown)
      rw [hget, if_neg hne]
      exact h.held hc' spec' hknown
  · intro destination r hr
    rw [hget] at hr
    split_ifs at hr with heq
    · exact ⟨hc, spec, Function.update_self .., heq.symm⟩
    · obtain ⟨hc', spec', hknown, hdest'⟩ := h.owned destination r hr
      have hhc : hc' ≠ hc := by
        rintro rfl
        have := (h.encodes hc' spec' hknown).1
        rw [hdest, Except.ok.injEq] at this
        exact heq (this ▸ hdest'.symm)
      exact ⟨hc', spec', by rw [Function.update_of_ne hhc, hknown], hdest'⟩

/-- Erasing the route of a g-node. -/
lemma erase (h : Describes me table known k) (hme : me.IsReal) (hknown : known hc = some previous)
    (hlinks : k'.links = k.links)
    (hroutes : k'.routes = k.routes.erase previous.table previous.destination) :
    Describes me table (Function.update known hc none) k' := by
  obtain ⟨hdest, htable, hown⟩ := h.encodes hc previous hknown
  have hget : ∀ destination, k'.routes.get? table destination =
      if destination = previous.destination then none
      else k.routes.get? table destination := by
    intro destination
    rw [hroutes, KernelRoutes.get?_erase]
    simp [htable]
  have hold : ∀ hc' spec', Function.update known hc none hc' = some spec' →
      hc' ≠ hc ∧ known hc' = some spec' := by
    intro hc' spec' hknown'
    by_cases hhc : hc' = hc
    · rw [hhc, Function.update_self] at hknown'
      cases hknown'
    · rw [Function.update_of_ne hhc] at hknown'
      exact ⟨hhc, hknown'⟩
  constructor
  · exact fun hc' spec' hknown' => h.encodes hc' spec' (hold hc' spec' hknown').2
  · intro hc' spec' hknown'
    obtain ⟨hhc, hknown'⟩ := hold hc' spec' hknown'
    obtain ⟨hdest', -, hown'⟩ := h.encodes hc' spec' hknown'
    have hne : spec'.destination ≠ previous.destination := fun heq =>
      hhc (gnodeDestination_injective hme (heq ▸ hdest') hdest hown' hown)
    rw [FakeNetlink.validateRoute_congr hlinks, hget, if_neg hne]
    exact h.held hc' spec' hknown'
  · intro destination r hr
    rw [hget] at hr
    split_ifs at hr with heq
    obtain ⟨hc', spec', hknown', hdest'⟩ := h.owned destination r hr
    have hhc : hc' ≠ hc := by
      rintro rfl
      rw [hknown] at hknown'
      cases hknown'
      exact heq hdest'.symm
    exact ⟨hc', spec', by rw [Function.update_of_ne hhc, hknown'], hdest'⟩

/-- A recorded route is there. -/
lemma hasRoute (h : Describes me table known k) (hknown : known hc = some spec) :
    k.hasRoute spec.table spec.destination = true := by
  obtain ⟨stored, -, hget⟩ := h.held hc spec hknown
  rw [FakeNetlink.hasRoute, (h.encodes hc spec hknown).2.1, hget]
  rfl

end Describes

/-- Between the two only routes and their records changed. -/
structure RoutesOnly (s s' : RouteInstaller) : Prop where
  myNaddr : s'.myNaddr = s.myNaddr
  table : s'.table = s.table
  rulePriority : s'.rulePriority = s.rulePriority
  arcEndpoints : s'.arcEndpoints = s.arcEndpoints
  identityAddress : s'.identityAddress = s.identityAddress
  ruleInstalled : s'.ruleInstalled = s.ruleInstalled
  links : s'.kernel.links = s.kernel.links
  addresses : s'.kernel.addresses = s.kernel.addresses
  rules : s'.kernel.rules = s.kernel.rules

namespace RoutesOnly

lemma refl (s : RouteInstaller) : RoutesOnly s s := ⟨rfl, rfl, rfl, rfl, rfl, rfl, rfl, rfl, rfl⟩

lemma trans {s s' s'' : RouteInstaller} (h : RoutesOnly s s') (h' : RoutesOnly s' s'') :
    RoutesOnly s s'' where
  myNaddr := h'.myNaddr.trans h.myNaddr
  table := h'.table.trans h.table
  rulePriority := h'.rulePriority.trans h.rulePriority
  arcEndpoints := h'.arcEndpoints.trans h.arcEndpoints
  identityAddress := h'.identityAddress.trans h.identityAddress
  ruleInstalled := h'.ruleInstalled.trans h.ruleInstalled
  links := h'.links.trans h.links
  addresses := h'.addresses.trans h.addresses
  rules := h'.rules.trans h.rules

end RoutesOnly

/-- The records of the installer describe its table. -/
def Tracks (s : RouteInstaller) : Prop :=
  Describes s.myNaddr s.table s.applied.get? s.kernel

/-! ## The batch of `apply` -/

/-- One step of a batch, at the destination `hc`: what it leaves recorded there is `wanted` unless
the step failed. -/
structure BatchStep (b b' : Batch) (hc : HCoord) (wanted : Option RouteSpec) : Prop where
  only : RoutesOnly b.installer b'.installer
  tracks : b'.installer.Tracks
  frame : ∀ hc', hc' ≠ hc → b'.installer.applied.get? hc' = b.installer.applied.get? hc'
  done : b'.firstError = none → b.firstError = none ∧ b'.installer.applied.get? hc = wanted

lemma batchStep_failed {b : Batch} {kernel : FakeNetlink} {e : NetlinkError} {hc : HCoord}
    {wanted : Option RouteSpec} (h : b.installer.Tracks)
    (hkernel : kernel = b.installer.kernel.tick) : BatchStep b (b.failed kernel e) hc wanted := by
  subst hkernel
  refine ⟨⟨rfl, rfl, rfl, rfl, rfl, rfl, rfl, rfl, rfl⟩, h.congr rfl rfl, fun _ _ => rfl, ?_⟩
  intro hnone
  simp only [Batch.failed] at hnone
  cases hfirst : b.firstError <;> simp [hfirst] at hnone

/-- Adding and changing a route end alike. -/
lemma putRoute_cases {k k' : FakeNetlink} {spec : RouteSpec} {known : Bool}
    {result : Except NetlinkError Unit}
    (h : (if known then k.changeRoute spec else k.addRoute spec) = (k', result)) :
    (result = .ok () ∧ ∃ stored, k.validateRoute spec = .ok stored ∧
        k' = { k.tick with routes := k.routes.insert stored }) ∨
      (k' = k.tick ∧ ∃ e, result = .error e) := by
  split_ifs at h
  · exact FakeNetlink.changeRoute_cases h
  · rcases FakeNetlink.addRoute_cases h with ⟨hresult, -, hstored⟩ | hfailed
    · exact Or.inl ⟨hresult, hstored⟩
    · exact Or.inr hfailed

/-- What a snapshot may ask for: the route of a g-node that is not the installer's own. -/
def Wants (s : RouteInstaller) (hc : HCoord) (spec : RouteSpec) : Prop :=
  gnodeDestination s.myNaddr hc = .ok spec.destination ∧ spec.table = s.table ∧
    s.myNaddr.pos hc.level ≠ some hc.pos

lemma installRoute_step {b : Batch} {entry : HCoord × RouteSpec} (h : b.installer.Tracks)
    (hreal : b.installer.myNaddr.IsReal) (hwants : b.installer.Wants entry.1 entry.2) :
    BatchStep b (installRoute b entry) entry.1 (some entry.2) := by
  simp only [installRoute]
  by_cases happlied : b.installer.applied.get? entry.1 = some entry.2
  · rw [if_pos happlied]
    exact ⟨RoutesOnly.refl _, h, fun _ _ => rfl, fun hnone => ⟨hnone, happlied⟩⟩
  · rw [if_neg happlied]
    rcases hcall : (if b.installer.applied.contains entry.1 = true
        then b.installer.kernel.changeRoute entry.2
        else b.installer.kernel.addRoute entry.2) with ⟨kernel, result⟩
    rcases putRoute_cases hcall with ⟨rfl, stored, hstored, rfl⟩ | ⟨hkernel, e, rfl⟩
    · obtain ⟨hdest, htable, hown⟩ := hwants
      refine ⟨⟨rfl, rfl, rfl, rfl, rfl, rfl, rfl, rfl, rfl⟩, ?_, ?_, ?_⟩
      · simp only [Tracks, KeyedMap.get?_insertOrdered_eq_update]
        exact Describes.insert h hreal hdest htable hown hstored rfl rfl
      · intro hc' hhc
        simp only [KeyedMap.get?_insertOrdered_eq_update, Function.update_of_ne hhc]
      · intro hnone
        refine ⟨hnone, ?_⟩
        simp only [KeyedMap.get?_insertOrdered_eq_update, Function.update_self]
    · exact batchStep_failed h hkernel

/-- A removal that counts as done has removed the route. -/
lemma forgiving_removeRoute {me : Naddr} {table : UInt32} {known : HCoord → Option RouteSpec}
    {k k' : FakeNetlink} {hc : HCoord} {spec : RouteSpec} {result : Except NetlinkError Unit}
    (h : Describes me table known k) (hknown : known hc = some spec)
    (hcall : k.removeRoute ⟨spec.destination, spec.table⟩ = (k', result)) :
    (forgiving result = .ok () ∧
        k' = { k.tick with routes := k.routes.erase spec.table spec.destination }) ∨
      (k' = k.tick ∧ ∃ e, forgiving result = .error e) := by
  rcases FakeNetlink.removeRoute_cases hcall with ⟨rfl, hk⟩ | ⟨hk, e, rfl, hgone⟩
  · exact Or.inl ⟨rfl, hk⟩
  · refine Or.inr ⟨hk, e, ?_⟩
    -- "Not found" would contradict the record.
    rw [forgiving, if_neg fun hnot => ?_]
    rw [h.hasRoute hknown] at hgone
    exact Bool.noConfusion (hgone hnot)

lemma dropRoute_step {b : Batch} {hc : HCoord} {previous : RouteSpec} (h : b.installer.Tracks)
    (hreal : b.installer.myNaddr.IsReal) (hknown : b.installer.applied.get? hc = some previous) :
    BatchStep b (dropRoute b hc previous) hc none := by
  simp only [dropRoute]
  rcases hcall : b.installer.kernel.removeRoute ⟨previous.destination, previous.table⟩ with
    ⟨kernel, result⟩
  rcases forgiving_removeRoute h hknown hcall with ⟨hresult, rfl⟩ | ⟨hkernel, e, hresult⟩
  · simp only [hresult]
    refine ⟨⟨rfl, rfl, rfl, rfl, rfl, rfl, rfl, rfl, rfl⟩, ?_, ?_, ?_⟩
    · simp only [Tracks, KeyedMap.get?_erase_eq_update]
      exact Describes.erase h hreal hknown rfl rfl
    · intro hc' hhc
      exact KeyedMap.get?_erase_of_ne _ hhc
    · exact fun hnone => ⟨hnone, KeyedMap.get?_erase_self _ _⟩
  · simp only [hresult]
    exact batchStep_failed h hkernel

/-- A part of a batch, at the destinations `dom`. -/
structure BatchRun (b b' : Batch) (dom : HCoord → Prop) (wanted : HCoord → Option RouteSpec) :
    Prop where
  only : RoutesOnly b.installer b'.installer
  tracks : b'.installer.Tracks
  frame : ∀ hc, ¬ dom hc → b'.installer.applied.get? hc = b.installer.applied.get? hc
  done : b'.firstError = none → b.firstError = none ∧
    ∀ hc, dom hc → b'.installer.applied.get? hc = wanted hc

/-- One more step in front of the rest of the batch. -/
lemma BatchStep.cons {b b₁ b' : Batch} {hc : HCoord} {wanted : HCoord → Option RouteSpec}
    {dom : HCoord → Prop} (hstep : BatchStep b b₁ hc (wanted hc)) (hrun : BatchRun b₁ b' dom wanted)
    (hfresh : ¬ dom hc) : BatchRun b b' (fun hc' => hc' = hc ∨ dom hc') wanted where
  only := hstep.only.trans hrun.only
  tracks := hrun.tracks
  frame := by
    intro hc' hout
    rw [not_or] at hout
    rw [hrun.frame hc' hout.2, hstep.frame hc' hout.1]
  done := by
    intro hnone
    obtain ⟨hnone₁, hdone⟩ := hrun.done hnone
    obtain ⟨hnone₀, hhere⟩ := hstep.done hnone₁
    refine ⟨hnone₀, ?_⟩
    rintro hc' (rfl | hdom)
    · rw [hrun.frame hc' hfresh, hhere]
    · exact hdone hc' hdom

/-- All the destinations of the new routes. -/
lemma installRoutes_run {wanted : HCoord → Option RouteSpec} {l : List (HCoord × RouteSpec)}
    (hnodup : (l.map Prod.fst).Nodup) :
    ∀ {b : Batch}, b.installer.Tracks → b.installer.myNaddr.IsReal →
      (∀ e ∈ l, b.installer.Wants e.1 e.2 ∧ wanted e.1 = some e.2) →
      BatchRun b (l.foldl installRoute b) (· ∈ l.map Prod.fst) wanted := by
  induction l with
  | nil =>
      intro b h _ _
      exact ⟨RoutesOnly.refl _, h, fun _ _ => rfl, fun hnone => ⟨hnone, by simp⟩⟩
  | cons e l ih =>
      intro b h hreal hwants
      rw [List.map_cons, List.nodup_cons] at hnodup
      obtain ⟨hwant, hwanted⟩ := hwants e List.mem_cons_self
      have hstep := installRoute_step h hreal hwant
      rw [← hwanted] at hstep
      have hrun := ih hnodup.2 hstep.tracks (hstep.only.myNaddr ▸ hreal) fun e' he' => by
        obtain ⟨hwant', hwanted'⟩ := hwants e' (List.mem_cons_of_mem e he')
        refine ⟨?_, hwanted'⟩
        rw [Wants, hstep.only.myNaddr, hstep.only.table]
        exact hwant'
      simpa only [List.foldl_cons, List.map_cons, List.mem_cons] using hstep.cons hrun hnodup.1

/-- All the destinations that dropped out. -/
lemma removeStale_run {l : List HCoord} (hnodup : l.Nodup) :
    ∀ {b : Batch}, b.installer.Tracks → b.installer.myNaddr.IsReal →
      (∀ hc ∈ l, ∃ spec, b.installer.applied.get? hc = some spec) →
      ∃ b', l.foldlM removeStale b = .ok b' ∧ BatchRun b b' (· ∈ l) fun _ => none := by
  induction l with
  | nil =>
      intro b h _ _
      exact ⟨b, rfl, RoutesOnly.refl _, h, fun _ _ => rfl, fun hnone => ⟨hnone, by simp⟩⟩
  | cons hc l ih =>
      intro b h hreal hknown
      rw [List.nodup_cons] at hnodup
      obtain ⟨previous, hprevious⟩ := hknown hc List.mem_cons_self
      have hstep := dropRoute_step h hreal hprevious
      obtain ⟨b', hb', hrun⟩ := ih hnodup.2 hstep.tracks (hstep.only.myNaddr ▸ hreal) fun hc' hc'l => by
        rw [hstep.frame hc' fun heq => hnodup.1 (heq ▸ hc'l)]
        exact hknown hc' (List.mem_cons_of_mem hc hc'l)
      refine ⟨b', ?_, ?_⟩
      · rw [List.foldlM_cons, removeStale, hprevious]
        exact hb'
      · simpa only [List.mem_cons] using hstep.cons hrun hnodup.1

/-! ## What a snapshot asks for -/

/-- None of the entries names a g-node of the installer's own. -/
def Foreign (s : RouteInstaller) (snapshot : RouteSnapshot) : Prop :=
  ∀ entry ∈ snapshot.flatten,
    s.myNaddr.pos entry.destination.level ≠ some entry.destination.pos

/-- The route that an entry asks for. -/
structure IsRouteOf (s : RouteInstaller) (entry : RouteEntry) (spec : RouteSpec) : Prop where
  destination : gnodeDestination s.myNaddr entry.destination = .ok spec.destination
  table : spec.table = s.table
  target : s.entryTarget entry = .ok spec.target

/-- One entry: its destination is replaced, the others stay. -/
lemma nextRoute_get? {s : RouteInstaller} {next next' : KeyedMap HCoord RouteSpec}
    {entry : RouteEntry} (h : s.nextRoute next entry = .ok next') :
    (∀ hc, hc ≠ entry.destination → next'.get? hc = next.get? hc) ∧
      ((∃ spec, s.IsRouteOf entry spec ∧ next'.get? entry.destination = some spec) ∨
        (∀ net, gnodeDestination s.myNaddr entry.destination ≠ .ok net) ∧ next' = next) := by
  unfold nextRoute at h
  split at h
  next hdest =>
      cases h
      exact ⟨fun _ _ => rfl, Or.inr ⟨fun net hnet => by simp [hnet] at hdest, rfl⟩⟩
  · cases h
  next destination hdest =>
      obtain ⟨target, htarget, h⟩ := Outcome.bind_eq_ok.mp h
      cases h
      refine ⟨fun hc hne => ?_, Or.inl ⟨⟨destination, s.table, target⟩, ⟨hdest, rfl, htarget⟩, ?_⟩⟩
      · rw [KeyedMap.get?_insertOrdered_eq_update, Function.update_of_ne hne]
      · rw [KeyedMap.get?_insertOrdered_eq_update, Function.update_self]

/-- The routes a snapshot asks for, one per destination: that of its last entry. -/
lemma nextRoutes_get? {s : RouteInstaller} {l : List RouteEntry} (hc : HCoord) (spec : RouteSpec) :
    ∀ {next : KeyedMap HCoord RouteSpec}, l.foldlM s.nextRoute .empty = .ok next →
      (next.get? hc = some spec ↔
        ∃ entry, l.reverse.find? (·.destination = hc) = some entry ∧ s.IsRouteOf entry spec) := by
  induction l using List.reverseRecOn with
  | nil =>
      intro next h
      cases h
      simp
  | append_singleton l entry ih =>
      intro next h
      rw [List.foldlM_append, Outcome.bind_eq_ok] at h
      obtain ⟨before, hbefore, h⟩ := h
      rw [List.foldlM_cons, Outcome.bind_eq_ok] at h
      obtain ⟨after, hafter, h⟩ := h
      cases h
      obtain ⟨hother, hhere⟩ := nextRoute_get? hafter
      have hlast := ih hbefore
      rw [List.reverse_append, List.reverse_singleton, List.singleton_append]
      by_cases hdest : entry.destination = hc
      · rw [List.find?_cons_of_pos (by simpa using hdest), ← hdest]
        rcases hhere with ⟨spec', hspec', hget⟩ | ⟨hnone, rfl⟩
        · rw [hget]
          constructor
          · intro heq
            cases heq
            exact ⟨entry, rfl, hspec'⟩
          · rintro ⟨entry', hentry', hspec⟩
            cases hentry'
            obtain ⟨hd, ht, hg⟩ := hspec
            obtain ⟨hd', ht', hg'⟩ := hspec'
            rw [hd', Except.ok.injEq] at hd
            rw [hg', Except.ok.injEq] at hg
            obtain ⟨d, t, g⟩ := spec
            obtain ⟨d', t', g'⟩ := spec'
            simp_all
        · -- The destination cannot be encoded, so no entry for it was.
          rw [hdest, hlast]
          constructor
          · rintro ⟨entry', hentry', hspec⟩
            have heq : entry'.destination = hc := by simpa using List.find?_some hentry'
            exact absurd hspec.destination (by rw [heq, ← hdest]; exact hnone _)
          · rintro ⟨entry', hentry', hspec⟩
            cases hentry'
            exact absurd hspec.destination (hnone _)
      · rw [List.find?_cons_of_neg (by simpa using hdest), hother hc (Ne.symm hdest)]
        exact hlast

/-- Whatever fails on the way, `apply` changes only routes and keeps their records true; if it
returns, the records are what the snapshot asks for. -/
theorem apply_spec {s : RouteInstaller} {snapshot : RouteSnapshot} (h : s.Tracks)
    (hforeign : s.Foreign snapshot) :
    RoutesOnly s (s.apply snapshot).1 ∧ (s.apply snapshot).1.Tracks ∧
      ∀ delta, (s.apply snapshot).2 = .ok delta → s.myNaddr.IsReal →
        ∃ next, s.nextRoutes snapshot = .ok next ∧
          (s.apply snapshot).1.applied.get? = next.get? := by
  unfold apply
  by_cases hvirtual : s.myNaddr.isVirtual = true
  · rw [if_pos hvirtual]
    refine ⟨RoutesOnly.refl s, h, fun delta _ hreal => ?_⟩
    rw [Naddr.isReal_iff_isVirtual, hvirtual] at hreal
    cases hreal
  · rw [if_neg hvirtual]
    have hreal : s.myNaddr.IsReal := by
      rw [Naddr.isReal_iff_isVirtual]
      simpa using hvirtual
    cases hnext : s.nextRoutes snapshot with
    | error e => exact ⟨RoutesOnly.refl s, h, fun delta hdelta => by cases hdelta⟩
    | ok next =>
        simp only
        have hwants : ∀ e ∈ next.entries,
            (Batch.mk s {} none).installer.Wants e.1 e.2 ∧ next.get? e.1 = some e.2 := by
          intro e he
          have hget := KeyedMap.mem_entries_iff.mp he
          obtain ⟨entry, hentry, hspec⟩ := (nextRoutes_get? e.1 e.2 hnext).mp hget
          have heq : entry.destination = e.1 := by simpa using List.find?_some hentry
          have hmem : entry ∈ snapshot.flatten := by
            simpa using List.mem_of_find?_eq_some hentry
          exact ⟨⟨heq ▸ hspec.destination, hspec.table, heq ▸ hforeign entry hmem⟩, hget⟩
        have hinstall := installRoutes_run (b := ⟨s, {}, none⟩) next.nodup h hreal hwants
        generalize next.entries.foldl installRoute ⟨s, {}, none⟩ = b at hinstall ⊢
        -- The keys left out are distinct, and recorded.
        have hkeys : b.installer.applied.keys.Nodup := b.installer.applied.nodup
        have hmem : ∀ hc, hc ∈ b.installer.applied.keys ↔
            ∃ spec, b.installer.applied.get? hc = some spec := by
          intro hc
          simp [KeyedMap.keys, ← KeyedMap.mem_entries_iff]
        obtain ⟨b', hb', hremove⟩ := removeStale_run (hkeys.filter fun hc => !next.contains hc)
          hinstall.tracks (hinstall.only.myNaddr ▸ hreal) fun hc hhc =>
            (hmem hc).mp (List.mem_filter.mp hhc).1
        rw [hb']
        have honly := hinstall.only.trans hremove.only
        simp only
        cases hfirst : b'.firstError with
        | some e => exact ⟨honly, hremove.tracks, fun delta hdelta => by cases hdelta⟩
        | none =>
            refine ⟨honly, hremove.tracks, fun delta _ _ => ⟨next, rfl, funext fun hc => ?_⟩⟩
            obtain ⟨hnone, hgone⟩ := hremove.done hfirst
            obtain ⟨-, hin⟩ := hinstall.done hnone
            simp only
            cases hget : next.get? hc with
            | some spec =>
                have hkey : hc ∈ next.entries.map Prod.fst :=
                  List.mem_map.mpr ⟨(hc, spec), KeyedMap.mem_entries_iff.mpr hget, rfl⟩
                have hcontains : next.contains hc = true := KeyedMap.contains_iff.mpr ⟨spec, hget⟩
                rw [hremove.frame hc (by simp [hcontains]), hin hc hkey, hget]
            | none =>
                have hcontains : next.contains hc = false := by simp [KeyedMap.contains, hget]
                by_cases hc' : hc ∈ b.installer.applied.keys
                · exact hgone hc (List.mem_filter.mpr ⟨hc', by simp [hcontains]⟩)
                · rw [hremove.frame hc fun hstale => hc' (List.mem_filter.mp hstale).1]
                  rw [hmem] at hc'
                  exact Option.eq_none_iff_forall_ne_some.mpr fun spec hspec => hc' ⟨spec, hspec⟩

end RouteInstaller

end Netsukuku
