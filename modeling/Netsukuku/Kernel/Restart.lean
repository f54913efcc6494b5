import Mathlib
import Netsukuku.Kernel.Cleanup

/-!
# Lifetimes of a daemon

The kernel outlives the daemon.  A daemon may be stopped between any two of its kernel calls, and
the next one finds what it left; its first act is a sweep, which may itself fail half-way.

* `cleanupKernel_succeeds` — a sweep that no fault strikes does not fail.
* `Confined` — what an installer may touch: its table, its rule and identity addresses.
* `HostStep` — the calls of the daemon's parts, sweeps and restarts, in any order.
* `host_restored` — one sweep that succeeds restores what the host had before the first of them.
-/

namespace Netsukuku

open FakeNetlink

variable {K : Type} {a : TableAllocator K} {own : AddressEntry → Bool} {mine : UInt32 → Bool}
  {k₀ k k' : FakeNetlink}

/-! ## Sweeps that no fault strikes -/

namespace FakeNetlink

lemma attempt_ok {present : Bool} {call : FakeNetlink → Except NetlinkError FakeNetlink}
    (hquiet : ∀ n, k.faults n = none) (hcall : call k.tick = .ok k') :
    k.attempt present call = (k', .ok ()) := by
  simp only [attempt, fault?, hquiet, Option.filter_none, hcall]

lemma removeAddress_succeeds (hquiet : ∀ n, k.faults n = none) {interface : Interface}
    {link : LinkInfo} {net : Ipv4Net} (hlink : k.resolveInterface interface = .ok link)
    (hmem : ⟨link.index, net⟩ ∈ k.addresses) :
    k.removeAddress interface net =
      ({ k.tick with addresses := k.addresses.erase ⟨link.index, net⟩ }, .ok ()) := by
  refine attempt_ok hquiet (bind_eq_ok.mpr ⟨link, hlink, ?_⟩)
  simp [hmem, pure, Except.pure]

lemma removeRoute_succeeds (hquiet : ∀ n, k.faults n = none) {r : RouteSpec}
    (hmem : r ∈ k.allRoutes) (htable : isKernelReservedTable r.table = false)
    (hcanonical : r.destination.IsCanonical) :
    k.removeRoute r.key =
      ({ k.tick with routes := k.routes.erase r.table r.destination }, .ok ()) := by
  have hhas : k.hasRoute r.table r.destination = true := by
    rw [hasRoute, mem_allRoutes.mp hmem]
    rfl
  refine attempt_ok hquiet (bind_eq_ok.mpr ⟨(), ?_, bind_eq_ok.mpr ⟨(), ?_, ?_⟩⟩)
  · simp [guardTable, RouteSpec.key, htable]
  · simp [checkCanonical, RouteSpec.key, hcanonical]
  · simp [RouteSpec.key, hhas, pure, Except.pure]

lemma removeRule_succeeds (hquiet : ∀ n, k.faults n = none) {rule : RuleSpec}
    (hmem : rule ∈ k.rules) (htable : isKernelReservedTable rule.table = false) :
    k.removeRule rule = ({ k.tick with rules := k.rules.erase rule }, .ok ()) := by
  refine attempt_ok hquiet (bind_eq_ok.mpr ⟨(), ?_, ?_⟩)
  · simp [guardTable, htable]
  · simp [hmem, pure, Except.pure]

/-- No fault strikes the kernel, it has a loopback, and every route it stores is canonical. -/
structure Quiet (k : FakeNetlink) : Prop where
  faults : ∀ n, k.faults n = none
  loopback : ∃ link, k.resolveInterface identityAddressInterface = .ok link
  canonical : ∀ r ∈ k.allRoutes, r.destination.IsCanonical

lemma Quiet.congr (h : k.Quiet) (hfaults : k'.faults = k.faults) (hlinks : k'.links = k.links)
    (hroutes : ∀ r ∈ k'.allRoutes, r ∈ k.allRoutes) : k'.Quiet where
  faults := by
    rw [hfaults]
    exact h.faults
  loopback := by
    rw [resolveInterface_congr hlinks]
    exact h.loopback
  canonical := fun r hr => h.canonical r (hroutes r hr)

lemma Quiet.dump (h : k.Quiet) {α : Type} (list : Except NetlinkError α) :
    k.dump list = (k.tick, list) := by
  simp only [FakeNetlink.dump, h.faults]

lemma Quiet.tick (h : k.Quiet) : k.tick.Quiet := ⟨h.faults, h.loopback, h.canonical⟩

/-- A dump and a sweep whose calls succeed. -/
lemma Quiet.sweepListed {α : Type} [DecidableEq α] (h : k.Quiet) (inv : FakeNetlink → Prop)
    (items : FakeNetlink → List α) (p : α → Bool) {q : α → Bool}
    {remove : FakeNetlink → α → FakeNetlink × Except NetlinkError Unit}
    {forgive : NetlinkError → Bool} {listed : List α} (hinv : inv k.tick)
    (hlisted : listed.filter q = (items k.tick).filter p)
    (hremove : ∀ k x, inv k → x ∈ items k → p x = true →
      ∃ k', remove k x = (k', .ok ()) ∧ inv k' ∧ items k' = (items k).erase x) :
    ∃ k' removed, k.sweepListed (.ok listed) q remove forgive = (k', .ok removed) ∧ inv k' := by
  obtain ⟨k', hsweep, hk'⟩ := sweep_succeeds hremove hinv hlisted.symm
  refine ⟨k', listed.filter q, ?_, hk'⟩
  rw [FakeNetlink.sweepListed, h.dump, andThen_ok, hsweep]

lemma Quiet.sweepAddresses (h : k.Quiet) :
    ∃ k' removed, k.sweepAddresses = (k', .ok removed) ∧ k'.Quiet := by
  obtain ⟨link, hlink⟩ := h.loopback
  have hlist : k.listAddresses (some identityAddressInterface) =
      .ok (k.addresses.filter (·.interfaceIndex = link.index)) := by
    rw [listAddresses, hlink]
    rfl
  rw [FakeNetlink.sweepAddresses, hlist]
  obtain ⟨k', removed, hsweep, hquiet, -⟩ := h.sweepListed
    (fun k' => k'.Quiet ∧ k'.links = k.links) addresses k.isIdentityEntry ⟨h.tick, rfl⟩ (filter_listAddresses hlist) (by
      rintro k₁ x ⟨hk₁, hlinks⟩ hmem hx
      obtain ⟨link', hlink', heq⟩ := exists_link_of_isIdentityEntry hx
      rw [← resolveInterface_congr hlinks] at hlink'
      refine ⟨_, removeAddress_succeeds hk₁.faults hlink' (heq ▸ hmem), ?_, ?_⟩
      · exact ⟨hk₁.congr rfl rfl fun _ => id, hlinks⟩
      · rw [← heq])
  exact ⟨k', removed, hsweep, hquiet⟩

lemma Quiet.sweepRoutes (h : k.Quiet) (table : Option UInt32) (owns : UInt32 → Bool)
    (forgive : NetlinkError → Bool)
    (hfree : ∀ t, table.all (t = ·) = true → owns t = true → isKernelReservedTable t = false) :
    ∃ k' removed, k.sweepRoutes table owns forgive = (k', .ok removed) ∧ k'.Quiet := by
  refine h.sweepListed Quiet allRoutes
    (fun r => table.all (r.table = ·) && owns r.table) h.tick (filter_listRoutes k table owns) ?_
  intro k₁ x hk₁ hmem hx
  obtain ⟨htable, howns⟩ := Bool.and_eq_true_iff.mp hx
  have hcall := removeRoute_succeeds hk₁.faults hmem (hfree x.table htable howns)
    (hk₁.canonical x hmem)
  have herase : allRoutes { k₁.tick with routes := k₁.routes.erase x.table x.destination } =
      k₁.allRoutes.erase x := allRoutes_erase hmem rfl
  refine ⟨_, hcall, hk₁.congr rfl rfl ?_, herase⟩
  intro r hr
  rw [herase] at hr
  exact List.mem_of_mem_erase hr

lemma Quiet.sweepRules (h : k.Quiet) (owns : UInt32 → Bool) (forgive : NetlinkError → Bool)
    (hfree : ∀ t, owns t = true → isKernelReservedTable t = false) :
    ∃ k' removed, k.sweepRules owns forgive = (k', .ok removed) ∧ k'.Quiet := by
  refine h.sweepListed Quiet rules (owns ·.table) h.tick rfl ?_
  intro k₁ x hk₁ hmem hx
  exact ⟨_, removeRule_succeeds hk₁.faults hmem (hfree x.table hx),
    hk₁.congr rfl rfl fun _ => id, rfl⟩

end FakeNetlink

/-- The tables of an allocator are none of the kernel's own. -/
lemma isKernelReservedTable_of_ownsTable
    (h : TableAllocator.checkRange a.peerRange a.mainTable = .ok ()) {t : UInt32}
    (ht : a.ownsTable t = true) : isKernelReservedTable t = false := by
  unfold TableAllocator.checkRange at h
  split at h
  · cases h
  split at h
  · cases h
  next hmain =>
  split at h
  · cases h
  next hfind =>
    rw [TableAllocator.ownsTable, Bool.or_eq_true, beq_iff_eq] at ht
    rcases ht with rfl | hrange
    · simpa using hmain
    · simpa using List.find?_eq_none.mp hfind t (TableRange.mem_tables.mpr hrange)

/-- **A sweep that no fault strikes does not fail.** -/
theorem cleanupKernel_succeeds (hquiet : k.Quiet)
    (hcheck : TableAllocator.checkRange a.peerRange a.mainTable = .ok ()) :
    ∃ k' report, cleanupKernel k a = (k', .ok report, .ok ()) := by
  have hfree : ∀ t, a.ownsTable t = true → isKernelReservedTable t = false :=
    fun _ => isKernelReservedTable_of_ownsTable hcheck
  have hneighbor : ∀ t : UInt32, t = neighborRouteTable → isKernelReservedTable t = false := by
    rintro t rfl
    rfl
  obtain ⟨k₁, addresses, hone, hk₁⟩ := hquiet.sweepAddresses
  obtain ⟨k₂, routes, htwo, hk₂⟩ :=
    hk₁.sweepRoutes none a.ownsTable (·.isNotFound) fun t _ => hfree t
  obtain ⟨k₃, rules, hthree, hk₃⟩ := hk₂.sweepRules a.ownsTable (·.isNotFound) hfree
  obtain ⟨k₄, nroutes, hfour, hk₄⟩ :=
    hk₃.sweepRoutes (some neighborRouteTable) (fun _ => true) (fun _ => false) fun t ht _ =>
      hneighbor t (by simpa using ht)
  obtain ⟨k₅, nrules, hfive, -⟩ :=
    hk₄.sweepRules (· == neighborRouteTable) (fun _ => false) fun t ht =>
      hneighbor t (beq_iff_eq.mp ht)
  refine ⟨k₅, ⟨addresses, routes.map RouteSpec.key, rules⟩, ?_⟩
  rw [cleanupKernel, cleanup, hone, andThen_ok, htwo, andThen_ok, hthree, andThen_ok]
  simp only [cleanupNeighborRoutes]
  rw [hfour, andThen_ok, hfive, andThen_ok]

/-! ## What an installer touches -/

/-- The address of a node is a host of `10.0.0.0/8`. -/
lemma isIdentity_of_hostAddress {naddr : Naddr} {net : Ipv4Net} (h : hostAddress naddr = .ok net) :
    net.isIdentity = true := by
  obtain ⟨⟨address, prefixLen⟩, hpack, h⟩ := Outcome.bind_eq_ok.mp h
  cases h
  obtain ⟨_, -, hpack⟩ := Outcome.bind_eq_ok.mp hpack
  obtain ⟨⟨acc, zeroed⟩, -, hpack⟩ := Outcome.bind_eq_ok.mp hpack
  obtain ⟨left, -, hpack⟩ := Outcome.bind_eq_ok.mp hpack
  obtain ⟨len, -, hpack⟩ := Outcome.bind_eq_ok.mp hpack
  cases hpack
  have hcontains : netsukukuAddressSpace.contains
      ⟨10, UInt8.ofNat (acc >>> 16), UInt8.ofNat (acc >>> 8), UInt8.ofNat acc⟩ = true := by
    rw [Ipv4Net.contains_iff]
    have hb := (UInt8.ofNat (acc >>> 16)).toNat_lt
    have hc := (UInt8.ofNat (acc >>> 8)).toNat_lt
    have hd := (UInt8.ofNat acc).toNat_lt
    have hten : (10 : UInt8).toNat = 10 := rfl
    simp only [netsukukuAddressSpace, Ipv4Addr.toBits, hten]
    norm_num
    omega
  simp [Ipv4Net.isIdentity, Ipv4Net.host, hcontains]

namespace RouteInstaller

/-- The installer's table is one of `mine`, its records are of that table and its address is an
identity's; the kernel differs from `k₀` only in what is the daemon's. -/
structure Confined (own : AddressEntry → Bool) (mine : UInt32 → Bool) (k₀ : FakeNetlink)
    (s : RouteInstaller) : Prop where
  kernel : Keeps own mine k₀ s.kernel
  table : mine s.table = true
  applied : ∀ hc spec, s.applied.get? hc = some spec → spec.table = s.table
  identity : ∀ net, s.identityAddress = some net → net.isIdentity = true

variable {s : RouteInstaller}

namespace Confined

/-- Only the kernel has changed. -/
lemma setKernel (h : Confined own mine k₀ s) (hkernel : Keeps own mine k₀ k) :
    Confined own mine k₀ { s with kernel := k } :=
  ⟨hkernel, h.table, h.applied, h.identity⟩

/-- A route of the installer's table is recorded. -/
lemma record (h : Confined own mine k₀ s) {hc : HCoord} {spec : RouteSpec}
    (hspec : spec.table = s.table) :
    Confined own mine k₀ { s with applied := s.applied.insertOrdered hc spec } := by
  refine ⟨h.kernel, h.table, ?_, h.identity⟩
  intro hc' spec' hget
  simp only [KeyedMap.get?_insertOrdered_eq_update] at hget
  by_cases heq : hc' = hc
  · rw [heq, Function.update_self] at hget
    cases hget
    exact hspec
  · rw [Function.update_of_ne heq] at hget
    exact h.applied hc' spec' hget

/-! ### The identity's address and rule -/

lemma installRule (h : Confined own mine k₀ s) {address : Ipv4Net}
    (haddress : address.isIdentity = true) : Confined own mine k₀ (s.installRule address).1 := by
  have hkeeps := h.kernel.addRule (rule { s with identityAddress := some address }) h.table
  have hidentity : ∀ net, some address = some net → net.isIdentity = true := by
    rintro net ⟨⟩
    exact haddress
  simp only [RouteInstaller.installRule]
  split
  · exact ⟨hkeeps, h.table, h.applied, hidentity⟩
  · exact ⟨hkeeps, h.table, h.applied, hidentity⟩

section Identity

variable (hown : ∀ e, k₀.isIdentityEntry e = true → own e = true)
include hown

/-- An identity's address on the loopback is the daemon's. -/
lemma own_identity {net : Ipv4Net} (hnet : net.isIdentity = true) (link : LinkInfo)
    (hlink : k₀.resolveInterface identityAddressInterface = .ok link) :
    own ⟨link.index, net⟩ = true :=
  hown _ (by rw [isIdentityEntry_mk hlink, hnet])

lemma installIdentity (h : Confined own mine k₀ s) : Confined own mine k₀ s.installIdentity.1 := by
  unfold RouteInstaller.installIdentity
  split
  · exact h
  cases haddress : hostAddress s.myNaddr with
  | error e => cases e <;> exact h
  | ok address =>
      have hidentity := isIdentity_of_hostAddress haddress
      have hkeeps := h.kernel.addAddress (own_identity hown hidentity)
      simp only [Outcome.mapErr_ok]
      split
      · exact (h.setKernel hkeeps).installRule hidentity
      · exact h.setKernel hkeeps

lemma tearAddress {b : RouteInstaller × Option NetlinkError} (h : Confined own mine k₀ b.1) :
    Confined own mine k₀ (RouteInstaller.tearAddress b).1 := by
  obtain ⟨s, firstError⟩ := b
  simp only [RouteInstaller.tearAddress]
  cases hidentity : s.identityAddress with
  | none => exact h
  | some address =>
      have hkeeps := h.kernel.removeAddress (own_identity hown (h.identity address hidentity))
      simp only
      split
      · refine ⟨hkeeps, h.table, h.applied, ?_⟩
        rintro net ⟨⟩
      · refine ⟨hkeeps, h.table, h.applied, ?_⟩
        rintro net ⟨⟩
        exact h.identity _ hidentity

end Identity

lemma tearRule {b : RouteInstaller × Option NetlinkError} (h : Confined own mine k₀ b.1) :
    Confined own mine k₀ (RouteInstaller.tearRule b).1 := by
  obtain ⟨s, firstError⟩ := b
  simp only [RouteInstaller.tearRule]
  split
  · have hkeeps := h.kernel.removeRule s.rule h.table
    split
    · exact ⟨hkeeps, h.table, h.applied, h.identity⟩
    · exact ⟨hkeeps, h.table, h.applied, h.identity⟩
  · exact h

/-! ### The routes -/

lemma installRoute {b : Batch} (entry : HCoord × RouteSpec) (h : Confined own mine k₀ b.installer)
    (hentry : entry.2.table = b.installer.table) :
    Confined own mine k₀ (RouteInstaller.installRoute b entry).installer ∧
      (RouteInstaller.installRoute b entry).installer.table = b.installer.table := by
  have hmine : mine entry.2.table = true := by rw [hentry, h.table]
  have hkeeps : Keeps own mine k₀ (if b.installer.applied.contains entry.1 = true
      then b.installer.kernel.changeRoute entry.2 else b.installer.kernel.addRoute entry.2).1 := by
    split
    · exact h.kernel.changeRoute entry.2 hmine
    · exact h.kernel.addRoute entry.2 hmine
  simp only [RouteInstaller.installRoute]
  split
  · exact ⟨h, rfl⟩
  rcases hcall : (if b.installer.applied.contains entry.1 = true
    then b.installer.kernel.changeRoute entry.2 else b.installer.kernel.addRoute entry.2) with
    ⟨kernel, _ | _⟩
  · rw [hcall] at hkeeps
    exact ⟨h.setKernel hkeeps, rfl⟩
  · rw [hcall] at hkeeps
    exact ⟨(h.setKernel hkeeps).record hentry, rfl⟩

lemma dropRoute {b : Batch} {hc : HCoord} {previous : RouteSpec}
    (h : Confined own mine k₀ b.installer) (hprevious : previous.table = b.installer.table) :
    Confined own mine k₀ (RouteInstaller.dropRoute b hc previous).installer := by
  have hmine : mine previous.table = true := by rw [hprevious, h.table]
  have hkeeps := h.kernel.removeRoute ⟨previous.destination, previous.table⟩ hmine
  simp only [RouteInstaller.dropRoute]
  split
  · exact h.setKernel hkeeps
  · refine ⟨hkeeps, h.table, ?_, h.identity⟩
    intro hc' spec hget
    by_cases heq : hc' = hc
    · rw [heq] at hget
      simp at hget
    · simp only [KeyedMap.get?_erase_of_ne _ heq] at hget
      exact h.applied hc' spec hget

lemma removeStale {l : List HCoord} :
    ∀ {b b' : Batch}, Confined own mine k₀ b.installer →
      l.foldlM RouteInstaller.removeStale b = .ok b' → Confined own mine k₀ b'.installer := by
  induction l with
  | nil =>
      intro b b' h hfold
      cases hfold
      exact h
  | cons hc l ih =>
      intro b b' h hfold
      rw [List.foldlM_cons, Outcome.bind_eq_ok] at hfold
      obtain ⟨b₁, hone, hfold⟩ := hfold
      obtain ⟨previous, hprevious, hone⟩ := Outcome.bind_eq_ok.mp hone
      cases hone
      have hget := Outcome.expect_eq_ok.mp hprevious
      exact ih (h.dropRoute (h.applied hc previous hget)) hfold

lemma apply (h : Confined own mine k₀ s) (snapshot : RouteSnapshot) :
    Confined own mine k₀ (s.apply snapshot).1 := by
  unfold RouteInstaller.apply
  split
  · exact h
  cases hnext : s.nextRoutes snapshot with
  | error e => exact h
  | ok next =>
      have hinstall : ∀ l : List (HCoord × RouteSpec), (∀ e ∈ l, e.2.table = s.table) →
          ∀ b : Batch, Confined own mine k₀ b.installer → b.installer.table = s.table →
            Confined own mine k₀ (l.foldl RouteInstaller.installRoute b).installer := by
        intro l
        induction l with
        | nil => exact fun _ b hb _ => hb
        | cons e l ih =>
            intro hl b hb htable
            obtain ⟨hb₁, htable₁⟩ := hb.installRoute e
              ((hl e List.mem_cons_self).trans htable.symm)
            exact ih (fun e' he' => hl e' (List.mem_cons_of_mem e he')) _ hb₁ (htable₁.trans htable)
      have hb := hinstall next.entries (fun e he => by
        have hget := KeyedMap.mem_entries_iff.mp he
        obtain ⟨entry, -, hspec⟩ := (nextRoutes_get? e.1 e.2 hnext).mp hget
        exact hspec.table) ⟨s, {}, none⟩ h rfl
      simp only
      cases hstale : List.foldlM RouteInstaller.removeStale
          (next.entries.foldl RouteInstaller.installRoute ⟨s, {}, none⟩) _ with
      | error e => exact hb
      | ok b' =>
          have hb' := removeStale hb hstale
          simp only
          cases b'.firstError <;> exact hb'

lemma tearRoutes {l : List (HCoord × RouteSpec)} :
    ∀ {b : RouteInstaller × Option NetlinkError}, Confined own mine k₀ b.1 →
      (∀ e ∈ l, e.2.table = b.1.table) →
      Confined own mine k₀ (l.foldl RouteInstaller.tearRoute b).1 := by
  induction l with
  | nil => exact fun h _ => h
  | cons e l ih =>
      rintro ⟨s, firstError⟩ h hl
      have hentry : e.2.table = s.table := hl e List.mem_cons_self
      have hkeeps := h.kernel.removeRoute ⟨e.2.destination, e.2.table⟩
        (by rw [hentry]; exact h.table)
      rw [List.foldl_cons]
      refine ih ?_ ?_
      · simp only [RouteInstaller.tearRoute]
        split
        · exact h.setKernel hkeeps
        · exact (h.setKernel hkeeps).record hentry
      · intro e' he'
        have htable : (RouteInstaller.tearRoute (s, firstError) e).1.table = s.table := by
          simp only [RouteInstaller.tearRoute]
          split <;> rfl
        rw [htable]
        exact hl e' (List.mem_cons_of_mem e he')

lemma teardown (h : Confined own mine k₀ s)
    (hown : ∀ e, k₀.isIdentityEntry e = true → own e = true) :
    Confined own mine k₀ s.teardown.1 := by
  have hempty : Confined own mine k₀ { s with applied := .empty } := by
    refine ⟨h.kernel, h.table, ?_, h.identity⟩
    intro hc spec hget
    simp at hget
  have hroutes := tearRoutes (l := s.applied.entries) (b := ({ s with applied := .empty }, none))
    hempty fun e he => h.applied e.1 e.2 (KeyedMap.mem_entries_iff.mp he)
  have hrest := tearAddress hown hroutes.tearRule
  unfold RouteInstaller.teardown
  simp only
  generalize RouteInstaller.tearAddress (RouteInstaller.tearRule _) = b at hrest ⊢
  obtain ⟨s', firstError⟩ := b
  cases firstError <;> exact hrest

/-- Every call on an installer touches only what is the daemon's. -/
theorem exec (h : Confined own mine k₀ s)
    (hown : ∀ e, k₀.isIdentityEntry e = true → own e = true) (c : Call) :
    Confined own mine k₀ (s.exec c) := by
  cases c with
  | installIdentity => exact installIdentity hown h
  | apply snapshot => exact h.apply snapshot
  | teardown => exact h.teardown hown
  | setArcEndpoint arc via dev => exact ⟨h.kernel, h.table, h.applied, h.identity⟩
  | clearArcEndpoint arc => exact ⟨h.kernel, h.table, h.applied, h.identity⟩
  | realize naddr => exact ⟨h.kernel, h.table, h.applied, h.identity⟩

end Confined

end RouteInstaller

/-! ## The link-local addresses -/

/-- A network at which a link-local address is installed. -/
def Ipv4Net.isLinklocal (net : Ipv4Net) : Bool :=
  net.prefixLen == 16 && (linklocalNet ⟨169, 254, 0, 0⟩).contains net.address

lemma deriveLinklocal_eq_ok {hash index : ℕ} {address : Ipv4Addr} :
    deriveLinklocal hash index = .ok address ↔
      hash % linklocalSpace + index < 2 ^ 32 ∧
        ⟨169, 254, UInt8.ofNat ((hash % linklocalSpace + index) % linklocalSpace / 256) + 1,
          UInt8.ofNat ((hash % linklocalSpace + index) % linklocalSpace)⟩ = address := by
  simp only [deriveLinklocal, Outcome.checkedAdd]
  split_ifs with h
  · constructor
    · intro heq
      cases heq
      exact ⟨h, rfl⟩
    · rintro ⟨-, rfl⟩
      rfl
  · constructor
    · intro heq
      cases heq
    · rintro ⟨hlt, -⟩
      exact absurd hlt h

/-- A derived address is link-local. -/
lemma isLinklocal_of_deriveLinklocal {hash index : ℕ} {address : Ipv4Addr}
    (h : deriveLinklocal hash index = .ok address) : (linklocalNet address).isLinklocal = true := by
  obtain ⟨-, rfl⟩ := deriveLinklocal_eq_ok.mp h
  have hcontains : ∀ c d : UInt8,
      (linklocalNet ⟨169, 254, 0, 0⟩).contains ⟨169, 254, c, d⟩ = true := by
    intro c d
    have hc := c.toNat_lt
    have hd := d.toNat_lt
    have hfirst : (169 : UInt8).toNat = 169 := rfl
    have hsecond : (254 : UInt8).toNat = 254 := rfl
    rw [Ipv4Net.contains_iff]
    simp only [linklocalNet, Ipv4Addr.toBits, hfirst, hsecond]
    norm_num
    omega
  simp only [Ipv4Net.isLinklocal, linklocalNet, beq_self_eq_true, Bool.true_and]
  exact hcontains _ _

/-- Two interfaces of one node have different addresses. -/
theorem deriveLinklocal_injOn {hash i j : ℕ} {address : Ipv4Addr} (hi : i < linklocalSpace)
    (hj : j < linklocalSpace) (hderive : deriveLinklocal hash i = .ok address)
    (hderive' : deriveLinklocal hash j = .ok address) : i = j := by
  obtain ⟨-, rfl⟩ := deriveLinklocal_eq_ok.mp hderive
  obtain ⟨-, heq⟩ := deriveLinklocal_eq_ok.mp hderive'
  rw [Ipv4Addr.mk.injEq, add_left_inj] at heq
  obtain ⟨-, -, hthird, hfourth⟩ := heq
  have hthird := congrArg UInt8.toNat hthird
  have hfourth := congrArg UInt8.toNat hfourth
  simp only [UInt8.toNat_ofNat', linklocalSpace] at *
  omega

/-! ## Hosts -/

/-- The tables that a sweep empties. -/
def TableAllocator.daemonTable (a : TableAllocator K) (table : UInt32) : Bool :=
  a.ownsTable table || table == neighborRouteTable

/-- A kernel, and the installers of the daemon that runs on it. -/
structure Host where
  kernel : FakeNetlink
  installers : ℕ → Option RouteInstaller

/-- One call of the daemon's, or its end.  A daemon that is stopped in the middle of a call is one
whose other calls of the kernel all failed before its end. -/
inductive HostStep (a : TableAllocator K) : Host → Host → Prop where
  | start (h : Host) (i : ℕ) (naddr : Naddr) (table priority : UInt32)
      (howns : a.ownsTable table = true) :
      HostStep a h { h with
        installers := Function.update h.installers i
          (some (RouteInstaller.new h.kernel naddr table priority)) }
  | call (h : Host) (i : ℕ) (s : RouteInstaller) (c : RouteInstaller.Call)
      (hs : h.installers i = some s) :
      HostStep a h ⟨({ s with kernel := h.kernel }.exec c).kernel,
        Function.update h.installers i (some ({ s with kernel := h.kernel }.exec c))⟩
  | drop (h : Host) (i : ℕ) :
      HostStep a h { h with installers := Function.update h.installers i none }
  | addLinklocal (h : Host) (dev : String) (hash index : ℕ) (address : Ipv4Addr)
      (haddress : deriveLinklocal hash index = .ok address) :
      HostStep a h { h with kernel := (h.kernel.addAddress (.name dev) (linklocalNet address)).1 }
  | removeLinklocal (h : Host) (dev : String) (hash index : ℕ) (address : Ipv4Addr)
      (haddress : deriveLinklocal hash index = .ok address) :
      HostStep a h
        { h with kernel := (h.kernel.removeAddress (.name dev) (linklocalNet address)).1 }
  | addNeighbor (h : Host) (dev : String) (neighbor : Ipv4Addr) :
      HostStep a h { h with kernel := (addNeighbor h.kernel dev neighbor).1 }
  | removeNeighbor (h : Host) (neighbor : Ipv4Addr) :
      HostStep a h { h with kernel := (removeNeighbor h.kernel neighbor).1 }
  | sweep (h : Host) : HostStep a h { h with kernel := (cleanupKernel h.kernel a).1 }
  | restart (h : Host) (faults : ℕ → Option NetlinkError) :
      HostStep a h ⟨{ h.kernel with faults, calls := 0 }, fun _ => none⟩

/-- The addresses that daemons add. -/
def daemonEntry (k₀ : FakeNetlink) (entry : AddressEntry) : Bool :=
  k₀.isIdentityEntry entry || entry.network.isLinklocal

/-- The kernel has changed in what is the daemon's only, and so will every installer do. -/
structure HostInv (a : TableAllocator K) (k₀ : FakeNetlink) (h : Host) : Prop where
  kernel : Keeps (daemonEntry k₀) a.daemonTable k₀ h.kernel
  installers : ∀ i s, h.installers i = some s →
    ({ s with kernel := h.kernel } : RouteInstaller).Confined (daemonEntry k₀) a.daemonTable k₀

/-- Another kernel under the same installers. -/
lemma HostInv.setKernel {h : Host} (hinv : HostInv a k₀ h)
    (hkernel : Keeps (daemonEntry k₀) a.daemonTable k₀ k) :
    HostInv a k₀ { h with kernel := k } :=
  ⟨hkernel, fun i s hs => (hinv.installers i s hs).setKernel hkernel⟩

/-- One installer is replaced. -/
lemma HostInv.update {h : Host} (hinv : HostInv a k₀ h) {i : ℕ} {o : Option RouteInstaller}
    (ho : ∀ s, o = some s →
      ({ s with kernel := h.kernel } : RouteInstaller).Confined (daemonEntry k₀) a.daemonTable k₀) :
    HostInv a k₀ { h with installers := Function.update h.installers i o } := by
  refine ⟨hinv.kernel, ?_⟩
  intro j s hs
  have hs : Function.update h.installers i o j = some s := hs
  by_cases hji : j = i
  · rw [hji, Function.update_self] at hs
    exact ho s hs
  · rw [Function.update_of_ne hji] at hs
    exact hinv.installers j s hs

lemma Keeps.addNeighbor (h : Keeps own mine k₀ k) (hmine : mine neighborRouteTable = true)
    (dev : String) (neighbor : Ipv4Addr) : Keeps own mine k₀ (addNeighbor k dev neighbor).1 := by
  have hrule : Keeps own mine k₀ (ensureNeighborRule k).1 := by
    refine andThen_inv (h.dump _) ?_
    intro k₁ rules _ hk₁
    split_ifs
    · exact hk₁
    · exact hk₁.addRule neighborRule hmine
  refine andThen_inv hrule ?_
  intro k₁ _ _ hk₁
  exact hk₁.changeRoute _ hmine

/-- Every step keeps what is not the daemon's. -/
lemma hostInv_step {h h' : Host} (hinv : HostInv a k₀ h) (hstep : HostStep a h h') :
    HostInv a k₀ h' := by
  have howns : ∀ t, a.ownsTable t = true → a.daemonTable t = true := by
    intro t ht
    rw [TableAllocator.daemonTable, ht, Bool.true_or]
  have hneighbor : a.daemonTable neighborRouteTable = true := by
    rw [TableAllocator.daemonTable, beq_self_eq_true, Bool.or_true]
  have hidentity : ∀ e, k₀.isIdentityEntry e = true → daemonEntry k₀ e = true := by
    intro e he
    rw [daemonEntry, he, Bool.true_or]
  have hlinklocal : ∀ {hash index : ℕ} {address : Ipv4Addr} {interface : Interface},
      deriveLinklocal hash index = .ok address → ∀ link,
        k₀.resolveInterface interface = .ok link →
          daemonEntry k₀ ⟨link.index, linklocalNet address⟩ = true := by
    intro hash index address interface haddress link _
    rw [daemonEntry, isLinklocal_of_deriveLinklocal haddress, Bool.or_true]
  cases hstep with
  | start i naddr table priority htable =>
      refine hinv.update ?_
      rintro s ⟨⟩
      refine ⟨hinv.kernel, howns table htable, ?_, ?_⟩
      · intro hc spec hget
        simp [RouteInstaller.new] at hget
      · rintro net ⟨⟩
  | call i s c hs =>
      have hexec := (hinv.installers i s hs).exec hidentity c
      have hkernel := hinv.setKernel hexec.kernel
      refine hkernel.update ?_
      rintro s' ⟨⟩
      exact hexec
  | drop i =>
      refine hinv.update ?_
      rintro s ⟨⟩
  | addLinklocal dev hash index address haddress =>
      exact hinv.setKernel (hinv.kernel.addAddress (hlinklocal haddress))
  | removeLinklocal dev hash index address haddress =>
      exact hinv.setKernel (hinv.kernel.removeAddress (hlinklocal haddress))
  | addNeighbor dev neighbor => exact hinv.setKernel (hinv.kernel.addNeighbor hneighbor dev neighbor)
  | removeNeighbor neighbor => exact hinv.setKernel (hinv.kernel.removeRoute _ hneighbor)
  | sweep => exact hinv.setKernel (hinv.kernel.cleanupKernel hidentity howns hneighbor)
  | restart faults =>
      obtain ⟨hlinks, haddresses, hroutes, hrules, hcanonical⟩ := hinv.kernel
      refine ⟨⟨hlinks, haddresses, hroutes, hrules, hcanonical⟩, ?_⟩
      rintro i s ⟨⟩

/-- Whatever happened on a host, only what is the daemon's has changed. -/
lemma hostInv_run {h : Host} (hrun : Relation.ReflTransGen (HostStep a) ⟨k₀, fun _ => none⟩ h) :
    HostInv a k₀ h := by
  induction hrun with
  | refl =>
      refine ⟨Keeps.refl k₀, ?_⟩
      rintro i s ⟨⟩
  | tail _ hstep ih => exact hostInv_step ih hstep

/-- Nothing on the host is a daemon's. -/
structure Untouched (a : TableAllocator K) (k : FakeNetlink) : Prop where
  addresses : ∀ e ∈ k.addresses, k.isIdentityEntry e = false
  routes : ∀ r ∈ k.allRoutes, a.daemonTable r.table = false
  rules : ∀ r ∈ k.rules, a.daemonTable r.table = false

/-- What a successful sweep of a host leaves. -/
lemma cleanupKernel_ok {report : CleanupReport}
    (h : cleanupKernel k a = (k', .ok report, .ok ())) :
    k'.addresses = k.addresses.filter (!k.isIdentityEntry ·) ∧
      k'.allRoutes = k.allRoutes.filter (!a.daemonTable ·.table) ∧
      k'.rules = k.rules.filter (!a.daemonTable ·.table) := by
  rcases hone : cleanup k a with ⟨k₁, first⟩
  rcases htwo : cleanupNeighborRoutes k₁ with ⟨k₂, second⟩
  simp only [cleanupKernel, hone, htwo, Prod.mk.injEq] at h
  obtain ⟨rfl, rfl, rfl⟩ := h
  obtain ⟨-, haddresses, hroutes, hrules⟩ := cleanup_ok hone
  obtain ⟨haddresses', hroutes', hrules'⟩ := cleanupNeighborRoutes_ok htwo
  refine ⟨haddresses'.trans haddresses, ?_, ?_⟩
  · rw [hroutes', hroutes, List.filter_filter]
    refine List.filter_congr ?_
    intro r _
    rw [TableAllocator.daemonTable, Bool.not_or, Bool.and_comm]
  · rw [hrules', hrules, List.filter_filter]
    refine List.filter_congr ?_
    intro r _
    rw [TableAllocator.daemonTable, Bool.not_or, Bool.and_comm]

/-- **One sweep restores the host.**  However many daemons ran on a host that had nothing of
theirs, whichever calls of theirs failed, wherever they were stopped and whatever earlier sweeps
left undone: once a sweep succeeds the rules and routes are the host's own again and so are the
addresses, except for link-local ones, and the next installer starts with a true ledger.  A sweep
that no fault strikes does succeed. -/
theorem host_restored {h : Host} (hcheck : TableAllocator.checkRange a.peerRange a.mainTable = .ok ())
    (hfree : Untouched a k₀)
    (hrun : Relation.ReflTransGen (HostStep a) ⟨k₀, fun _ => none⟩ h) :
    (∀ k report, cleanupKernel h.kernel a = (k, .ok report, .ok ()) →
      k.rules = k₀.rules ∧ (∀ r, r ∈ k.allRoutes ↔ r ∈ k₀.allRoutes) ∧ k.links = k₀.links ∧
      k.addresses.filter (!·.network.isLinklocal) = k₀.addresses.filter (!·.network.isLinklocal) ∧
      ∀ naddr table priority, a.ownsTable table = true →
        RouteInstaller.Ledger (.new k naddr table priority) (.new k naddr table priority)) ∧
    ((∃ link, k₀.resolveInterface identityAddressInterface = .ok link) →
      (∀ r ∈ k₀.allRoutes, r.destination.IsCanonical) → (∀ n, h.kernel.faults n = none) →
      ∃ k report, cleanupKernel h.kernel a = (k, .ok report, .ok ())) := by
  obtain ⟨hlinks, haddresses, hroutes, hrules, hcanonical⟩ := (hostInv_run hrun).kernel
  constructor
  · intro k report hsweep
    obtain ⟨haddresses', hroutes', hrules'⟩ := cleanupKernel_ok hsweep
    rw [isIdentityEntry_congr hlinks] at haddresses'
    refine ⟨?_, ?_, ?_, ?_, ?_⟩
    · rw [hrules', hrules, List.filter_eq_self]
      intro r hr
      rw [hfree.rules r hr, Bool.not_false]
    · intro r
      rw [hroutes', List.mem_filter, Bool.not_eq_true']
      constructor
      · rintro ⟨hr, hforeign⟩
        exact (hroutes r hforeign).mp hr
      · intro hr
        exact ⟨(hroutes r (hfree.routes r hr)).mpr hr, hfree.routes r hr⟩
    · have hrefl : Keeps (fun _ => true) (fun _ => true) h.kernel h.kernel := Keeps.refl h.kernel
      have hkeeps := hrefl.cleanupKernel (a := a) (fun _ _ => rfl) (fun _ _ => rfl) rfl
      rw [hsweep] at hkeeps
      exact hkeeps.links.trans hlinks
    · have hsplit : ∀ l : List AddressEntry,
          l.filter (!daemonEntry k₀ ·) =
            (l.filter (!k₀.isIdentityEntry ·)).filter (!·.network.isLinklocal) := by
        intro l
        rw [List.filter_filter]
        refine List.filter_congr ?_
        intro e _
        rw [daemonEntry, Bool.not_or, Bool.and_comm]
      have hown : k₀.addresses.filter (!k₀.isIdentityEntry ·) = k₀.addresses := by
        rw [List.filter_eq_self]
        intro e he
        rw [hfree.addresses e he, Bool.not_false]
      rw [haddresses', ← hsplit, haddresses, hsplit, hown]
    · intro naddr table priority howns
      refine RouteInstaller.Ledger.init ?_
      refine List.eq_nil_iff_forall_not_mem.mpr ?_
      intro r hr
      obtain ⟨rfl, hget⟩ := RouteInstaller.mem_listRoutes.mp hr
      have hmem : r ∈ k.allRoutes := mem_allRoutes.mpr hget
      rw [hroutes', List.mem_filter, TableAllocator.daemonTable, howns] at hmem
      simp at hmem
  · intro hlo hcanon hquiet
    refine cleanupKernel_succeeds ⟨hquiet, ?_, hcanonical hcanon⟩ hcheck
    rw [resolveInterface_congr hlinks]
    exact hlo

/-- An allocator of two tables. -/
def twoTables : TableAllocator Unit := ⟨⟨200, 201⟩, 251, 10000, [200, 201], [], .empty⟩

/-- A host with one neighbour, whose daemon was killed once it had installed its identity. -/
def killedHost : Host :=
  ⟨{ ((RouteInstaller.new RouteInstaller.ethKernel RouteInstaller.ethNaddr 251 10000).exec
      .installIdentity).kernel with calls := 0 }, fun _ => none⟩

theorem host_restored_eth :
    killedHost.kernel.rules = [⟨251, 10000, .any⟩] ∧
      ∃ k report, cleanupKernel killedHost.kernel twoTables = (k, .ok report, .ok ()) ∧
        k.rules = [] := by
  have hrun : Relation.ReflTransGen (HostStep twoTables) ⟨RouteInstaller.ethKernel, fun _ => none⟩
      killedHost := by
    refine .tail (.tail (.single (.start _ 0 RouteInstaller.ethNaddr 251 10000 rfl))
      (.call _ 0 _ .installIdentity rfl)) ?_
    exact .restart _ fun _ => none
  have hfree : Untouched twoTables RouteInstaller.ethKernel :=
    ⟨by simp [RouteInstaller.ethKernel], by decide +kernel, by simp [RouteInstaller.ethKernel]⟩
  obtain ⟨hrestored, hsucceeds⟩ := host_restored (by decide +kernel) hfree hrun
  obtain ⟨k, report, hsweep⟩ := hsucceeds ⟨⟨1, "lo"⟩, rfl⟩ (by decide +kernel) fun _ => rfl
  exact ⟨by decide +kernel, k, report, hsweep, (hrestored k report hsweep).1⟩

end Netsukuku
