import Mathlib
import Netsukuku.Kernel.Routes

/-!
# The ledger equals the kernel

Over a table nobody else writes, what the installer has recorded is what the kernel holds, after
any sequence of calls and whichever of the kernel's own calls failed on the way.

* `Ledger` — the invariant: the routes of the table are the recorded ones, and an address or a rule
  that was not there at the start is recorded, and there once.
* `Adopted` — what an earlier run left over counts as the installer's own once it is on record.
* `Ledger.exec`, `Adopted.exec` — every call keeps both.
* `route_ledger` — what they say about every run.
-/

namespace Netsukuku

namespace RouteInstaller

/-! ## The ledger -/

/-- The address entry is the identity's recorded address. -/
def Recorded (s : RouteInstaller) (e : AddressEntry) : Prop :=
  s.identityAddress = some e.network ∧
    ∃ link, s.kernel.resolveInterface identityAddressInterface = .ok link ∧
      e.interfaceIndex = link.index

/-- The records describe the kernel; `s₀` is the installer at the start. -/
structure Ledger (s₀ s : RouteInstaller) : Prop where
  table : s.table = s₀.table
  rulePriority : s.rulePriority = s₀.rulePriority
  tracks : s.Tracks
  idle : s.myNaddr.isVirtual = true → s.isInstalled = false
  identity : ∀ a, s.identityAddress = some a → hostAddress s.myNaddr = .ok a
  addresses : ∀ e ∈ s.kernel.addresses, e ∉ s₀.kernel.addresses →
    s.Recorded e ∧ s.kernel.addresses.count e = 1
  rules : ∀ r ∈ s.kernel.rules, r ∉ s₀.kernel.rules →
    (r = s.rule ∧ s.ruleInstalled = true) ∧ s.kernel.rules.count r = 1

lemma isInstalled_eq_false {s : RouteInstaller} :
    s.isInstalled = false ↔
      s.identityAddress = none ∧ s.ruleInstalled = false ∧ ∀ hc, s.applied.get? hc = none := by
  have hempty : s.applied.entries = [] ↔ ∀ hc, s.applied.get? hc = none := by
    simp only [KeyedMap.get?_eq_none_iff]
    constructor
    · intro h hc v hv
      rw [h] at hv
      cases hv
    · intro h
      exact List.eq_nil_iff_forall_not_mem.mpr fun e he => h e.1 e.2 he
  rw [isInstalled, ← hempty]
  cases s.identityAddress <;> cases s.ruleInstalled <;> simp

variable {s₀ s s' : RouteInstaller}

/-- The two records of one address entry agree. -/
lemma Recorded.eq {e e' : AddressEntry} (h : s.Recorded e) (h' : s.Recorded e') : e = e' := by
  obtain ⟨hnet, link, hlink, hindex⟩ := h
  obtain ⟨hnet', link', hlink', hindex'⟩ := h'
  rw [hlink, Except.ok.injEq] at hlink'
  rw [hnet, Option.some.injEq] at hnet'
  obtain ⟨i, n⟩ := e
  obtain ⟨i', n'⟩ := e'
  simp_all

/-- A step that leaves the identity's address alone leaves the addresses recorded. -/
lemma Recorded.congr {e : AddressEntry} (h : s.Recorded e)
    (hidentity : s'.identityAddress = s.identityAddress)
    (hlinks : s'.kernel.links = s.kernel.links) : s'.Recorded e := by
  rw [Recorded, hidentity, FakeNetlink.resolveInterface_congr hlinks]
  exact h

namespace Ledger

/-- Changing routes only. -/
lemma routesOnly (h : Ledger s₀ s) (honly : RoutesOnly s s') (htracks : s'.Tracks)
    (hidle : s'.myNaddr.isVirtual = true → s'.isInstalled = false) : Ledger s₀ s' where
  table := honly.table.trans h.table
  rulePriority := honly.rulePriority.trans h.rulePriority
  tracks := htracks
  idle := hidle
  identity := by
    rw [honly.identityAddress, honly.myNaddr]
    exact h.identity
  addresses := by
    rw [honly.addresses]
    intro e he hnew
    obtain ⟨hrecorded, hcount⟩ := h.addresses e he hnew
    exact ⟨hrecorded.congr honly.identityAddress honly.links, hcount⟩
  rules := by
    rw [honly.rules, honly.ruleInstalled, rule, honly.table, honly.rulePriority]
    exact h.rules

lemma init {k : FakeNetlink} {naddr : Naddr} {table priority : UInt32}
    (hfree : k.listRoutes (some table) = []) :
    Ledger (new k naddr table priority) (new k naddr table priority) where
  table := rfl
  rulePriority := rfl
  tracks := by
    refine ⟨fun _ _ h => ?_, fun _ _ h => ?_, fun destination r hr => ?_⟩
    · cases h
    · cases h
    · have hkey := KernelRoutes.eq_of_get? hr
      have hmem : r ∈ k.listRoutes (some table) := by
        rw [FakeNetlink.listRoutes, List.mem_filter, KernelRoutes.mem_values, hkey.1, hkey.2]
        exact ⟨hr, by simp [new]⟩
      rw [hfree] at hmem
      cases hmem
  idle := fun _ => rfl
  identity := fun a h => by cases h
  addresses := fun e he hnew => absurd he hnew
  rules := fun r hr hnew => absurd hr hnew

lemma setArcEndpoint (h : Ledger s₀ s) (arc : ArcId) (via : Ipv4Addr) (dev : Interface) :
    Ledger s₀ (s.setArcEndpoint arc via dev) :=
  ⟨h.table, h.rulePriority, h.tracks, h.idle, h.identity, h.addresses, h.rules⟩

lemma clearArcEndpoint (h : Ledger s₀ s) (arc : ArcId) : Ledger s₀ (s.clearArcEndpoint arc) :=
  ⟨h.table, h.rulePriority, h.tracks, h.idle, h.identity, h.addresses, h.rules⟩

/-- While the address is virtual nothing is installed, so any other may take its place. -/
lemma realize (h : Ledger s₀ s) (hvirtual : s.myNaddr.isVirtual = true) (n : Naddr) :
    Ledger s₀ (s.realize n) := by
  have hidle := h.idle hvirtual
  obtain ⟨hidentity, -, happlied⟩ := isInstalled_eq_false.mp hidle
  refine ⟨h.table, h.rulePriority,
    ⟨fun hc spec hknown => ?_, fun hc spec hknown => ?_, fun destination r hr => ?_⟩,
    fun _ => hidle, fun a ha => ?_, h.addresses, h.rules⟩
  · exact absurd hknown (by simp [RouteInstaller.realize, happlied hc])
  · exact absurd hknown (by simp [RouteInstaller.realize, happlied hc])
  · obtain ⟨hc, spec, hknown, -⟩ := h.tracks.owned destination r hr
    exact absurd hknown (by simp [happlied hc])
  · exact absurd ha (by simp [RouteInstaller.realize, hidentity])

lemma apply (h : Ledger s₀ s) {snapshot : RouteSnapshot} (hforeign : s.Foreign snapshot) :
    Ledger s₀ (s.apply snapshot).1 := by
  obtain ⟨honly, htracks, -⟩ := apply_spec h.tracks hforeign
  refine h.routesOnly honly htracks fun hvirtual => ?_
  have hsame : s.apply snapshot = (s, .ok {}) := by
    rw [RouteInstaller.apply, if_pos (honly.myNaddr ▸ hvirtual)]
  rw [hsame] at hvirtual ⊢
  exact h.idle hvirtual

/-- A call that changed nothing. -/
lemma tick (h : Ledger s₀ s) : Ledger s₀ { s with kernel := s.kernel.tick } where
  table := h.table
  rulePriority := h.rulePriority
  tracks := h.tracks.congr rfl rfl
  idle := h.idle
  identity := h.identity
  addresses := fun e he hnew =>
    let ⟨hrecorded, hcount⟩ := h.addresses e he hnew
    ⟨hrecorded.congr rfl rfl, hcount⟩
  rules := h.rules

/-- Recording the identity's own address, which it may hold already. -/
lemma record (h : Ledger s₀ s) (hreal : s.myNaddr.isVirtual = false) {address : Ipv4Net}
    (haddress : hostAddress s.myNaddr = .ok address) :
    Ledger s₀ { s with identityAddress := some address } where
  table := h.table
  rulePriority := h.rulePriority
  tracks := h.tracks
  idle := by simp [hreal]
  identity := by
    intro a ha
    cases ha
    exact haddress
  addresses := by
    intro e he hnew
    obtain ⟨⟨hnet, hlink⟩, hcount⟩ := h.addresses e he hnew
    have hsame := h.identity e.network hnet
    rw [haddress, Except.ok.injEq] at hsame
    exact ⟨⟨congrArg some hsame, hlink⟩, hcount⟩
  rules := h.rules

/-- The address is recorded with the call that added it. -/
lemma addAddress (h : Ledger s₀ s) (hreal : s.myNaddr.isVirtual = false) {address : Ipv4Net}
    (haddress : hostAddress s.myNaddr = .ok address) {link : LinkInfo}
    (hlink : s.kernel.resolveInterface identityAddressInterface = .ok link)
    (hfresh : ⟨link.index, address⟩ ∉ s.kernel.addresses) :
    Ledger s₀
      { s with
        kernel := { s.kernel.tick with
          addresses := s.kernel.addresses ++ [⟨link.index, address⟩] }
        identityAddress := some address } where
  table := h.table
  rulePriority := h.rulePriority
  tracks := h.tracks.congr rfl rfl
  idle := by simp [hreal]
  identity := by
    intro a ha
    cases ha
    exact haddress
  addresses := by
    have hrecord := h.record hreal haddress
    have hown : Recorded { s with identityAddress := some address } ⟨link.index, address⟩ :=
      ⟨rfl, link, hlink, rfl⟩
    intro e he hnew
    rcases List.mem_append.mp he with he | he
    · -- An entry recorded before would be this one.
      have heq := (hrecord.addresses e he hnew).1.eq hown
      exact absurd (heq ▸ he) hfresh
    · rw [List.mem_singleton.mp he]
      refine ⟨hown.congr rfl rfl, ?_⟩
      simp [List.count_append, List.count_eq_zero.mpr hfresh]
  rules := h.rules

/-- The rule is recorded with the call that added it. -/
lemma addRule (h : Ledger s₀ s) (hreal : s.myNaddr.isVirtual = false)
    (hfresh : s.rule ∉ s.kernel.rules) :
    Ledger s₀
      { s with
        kernel := { s.kernel.tick with rules := s.kernel.rules ++ [s.rule] }
        ruleInstalled := true } where
  table := h.table
  rulePriority := h.rulePriority
  tracks := h.tracks.congr rfl rfl
  idle := by simp [hreal]
  identity := h.identity
  addresses := h.tick.addresses
  rules := by
    intro r hr hnew
    rcases List.mem_append.mp hr with hr | hr
    · obtain ⟨⟨rfl, -⟩, -⟩ := h.rules r hr hnew
      exact absurd hr hfresh
    · rw [List.mem_singleton.mp hr]
      refine ⟨⟨rfl, rfl⟩, ?_⟩
      simp [List.count_append, List.count_eq_zero.mpr hfresh]

/-- Recording a rule that is there already. -/
lemma recordRule (h : Ledger s₀ s) (hreal : s.myNaddr.isVirtual = false) :
    Ledger s₀ { s with ruleInstalled := true } where
  table := h.table
  rulePriority := h.rulePriority
  tracks := h.tracks
  idle := by simp [hreal]
  identity := h.identity
  addresses := h.addresses
  rules := fun r hr hnew =>
    let ⟨⟨hrule, _⟩, hcount⟩ := h.rules r hr hnew
    ⟨⟨hrule, rfl⟩, hcount⟩

lemma installRule {address : Ipv4Net} (h : Ledger s₀ { s with identityAddress := some address })
    (hreal : s.myNaddr.isVirtual = false) : Ledger s₀ (s.installRule address).1 := by
  have hreal₁ : { s with identityAddress := some address }.myNaddr.isVirtual = false := hreal
  unfold RouteInstaller.installRule
  generalize { s with identityAddress := some address } = s₁ at h hreal₁ ⊢
  simp only
  rcases hcall : s₁.kernel.addRule s₁.rule with ⟨kernel, result⟩
  rcases FakeNetlink.addRule_cases hcall with ⟨rfl, hfresh, rfl⟩ | ⟨rfl, e, rfl, -⟩
  · exact h.addRule hreal₁ hfresh
  · simp only [adopting]
    split_ifs
    · exact h.tick.recordRule hreal₁
    · exact h.tick

lemma installIdentity (h : Ledger s₀ s) : Ledger s₀ s.installIdentity.1 := by
  unfold RouteInstaller.installIdentity
  by_cases hvirtual : s.myNaddr.isVirtual = true
  · rw [if_pos hvirtual]
    exact h
  · rw [if_neg hvirtual]
    have hreal : s.myNaddr.isVirtual = false := by simpa using hvirtual
    cases haddress : hostAddress s.myNaddr with
    | error e => cases e <;> exact h
    | ok address =>
        simp only [Outcome.mapErr_ok]
        rcases hcall : s.kernel.addAddress identityAddressInterface address with ⟨kernel, result⟩
        rcases FakeNetlink.addAddress_cases hcall with
          ⟨rfl, link, hlink, hfresh, rfl⟩ | ⟨rfl, e, rfl, -⟩
        · exact installRule (h.addAddress hreal haddress hlink hfresh) hreal
        · simp only [adopting]
          split_ifs
          · exact installRule (h.tick.record hreal haddress) hreal
          · exact h.tick

/-- Without the identity's address there is none of it left. -/
lemma forgetAddress (h : Ledger s₀ s)
    (hgone : ∀ e ∈ s.kernel.addresses, e ∉ s₀.kernel.addresses → ¬ s.Recorded e) :
    Ledger s₀ { s with identityAddress := none } where
  table := h.table
  rulePriority := h.rulePriority
  tracks := h.tracks
  idle := by
    intro hvirtual
    obtain ⟨-, hrule, happlied⟩ := isInstalled_eq_false.mp (h.idle hvirtual)
    exact isInstalled_eq_false.mpr ⟨rfl, hrule, happlied⟩
  identity := fun a ha => by cases ha
  addresses := fun e he hnew => absurd (h.addresses e he hnew).1 (hgone e he hnew)
  rules := h.rules

lemma forgetRule (h : Ledger s₀ s) (hgone : s.rule ∈ s₀.kernel.rules ∨ s.rule ∉ s.kernel.rules) :
    Ledger s₀ { s with ruleInstalled := false } where
  table := h.table
  rulePriority := h.rulePriority
  tracks := h.tracks
  idle := by
    intro hvirtual
    obtain ⟨hidentity, -, happlied⟩ := isInstalled_eq_false.mp (h.idle hvirtual)
    exact isInstalled_eq_false.mpr ⟨hidentity, rfl, happlied⟩
  identity := h.identity
  addresses := h.addresses
  rules := by
    intro r hr hnew
    obtain ⟨⟨rfl, -⟩, -⟩ := h.rules r hr hnew
    rcases hgone with hold | hgone
    · exact absurd hold hnew
    · exact absurd hr hgone

/-- Erasing an address the kernel holds once. -/
lemma eraseAddress (h : Ledger s₀ s) {address : Ipv4Net} (hidentity : s.identityAddress = some address)
    {link : LinkInfo} (hlink : s.kernel.resolveInterface identityAddressInterface = .ok link) :
    Ledger s₀
      { s with
        kernel := { s.kernel.tick with
          addresses := s.kernel.addresses.erase ⟨link.index, address⟩ }
        identityAddress := none } := by
  have hown : s.Recorded ⟨link.index, address⟩ := ⟨hidentity, link, hlink, rfl⟩
  have hnone : ∀ e ∈ s.kernel.addresses.erase ⟨link.index, address⟩, e ∈ s₀.kernel.addresses := by
    intro e he
    by_contra hnew
    obtain ⟨hrecorded, hcount⟩ := h.addresses e (List.mem_of_mem_erase he) hnew
    have heq : e = ⟨link.index, address⟩ := hrecorded.eq hown
    rw [← heq] at he
    have hpos := List.count_pos_iff.mpr he
    rw [List.count_erase_self, hcount] at hpos
    omega
  refine ⟨h.table, h.rulePriority, h.tracks.congr rfl rfl, ?_, (fun a ha => nomatch ha), fun e he hnew => ?_, h.rules⟩
  · intro hvirtual
    obtain ⟨-, hrule, happlied⟩ := isInstalled_eq_false.mp (h.idle hvirtual)
    exact isInstalled_eq_false.mpr ⟨rfl, hrule, happlied⟩
  · exact absurd (hnone e he) hnew

lemma eraseRule (h : Ledger s₀ s) :
    Ledger s₀
      { s with
        kernel := { s.kernel.tick with rules := s.kernel.rules.erase s.rule }
        ruleInstalled := false } := by
  have hnone : ∀ r ∈ s.kernel.rules.erase s.rule, r ∈ s₀.kernel.rules := by
    intro r hr
    by_contra hnew
    obtain ⟨⟨heq, -⟩, hcount⟩ := h.rules r (List.mem_of_mem_erase hr) hnew
    rw [← heq] at hr
    have hpos := List.count_pos_iff.mpr hr
    rw [List.count_erase_self, hcount] at hpos
    omega
  refine ⟨h.table, h.rulePriority, h.tracks.congr rfl rfl, ?_, h.identity, h.tick.addresses, fun r hr hnew => ?_⟩
  · intro hvirtual
    obtain ⟨hidentity, -, happlied⟩ := isInstalled_eq_false.mp (h.idle hvirtual)
    exact isInstalled_eq_false.mpr ⟨hidentity, rfl, happlied⟩
  · exact absurd (hnone r hr) hnew

lemma tearRule {b : RouteInstaller × Option NetlinkError} (h : Ledger s₀ b.1) :
    Ledger s₀ (RouteInstaller.tearRule b).1 := by
  obtain ⟨s, firstError⟩ := b
  simp only [RouteInstaller.tearRule]
  split_ifs
  · rcases hcall : s.kernel.removeRule s.rule with ⟨kernel, result⟩
    rcases FakeNetlink.removeRule_cases hcall with ⟨rfl, -, rfl⟩ | ⟨rfl, e, rfl, hgone⟩
    · exact h.eraseRule
    · simp only [forgiving]
      split_ifs with hnot
      · exact h.tick.forgetRule (Or.inr (hgone hnot))
      · exact h.tick
  · exact h

lemma tearAddress {b : RouteInstaller × Option NetlinkError} (h : Ledger s₀ b.1) :
    Ledger s₀ (RouteInstaller.tearAddress b).1 := by
  obtain ⟨s, firstError⟩ := b
  simp only [RouteInstaller.tearAddress]
  split
  · exact h
  next address hidentity =>
      rcases hcall : s.kernel.removeAddress identityAddressInterface address with ⟨kernel, result⟩
      rcases FakeNetlink.removeAddress_cases hcall with
        ⟨rfl, link, hlink, -, rfl⟩ | ⟨rfl, e, rfl, hgone⟩
      · exact h.eraseAddress hidentity hlink
      · simp only [forgiving]
        split_ifs with hnot
        · refine h.tick.forgetAddress fun entry hentry _ hrecorded => ?_
          obtain ⟨hnet, link, hlink, hindex⟩ := hrecorded
          have hlink' : s.kernel.resolveInterface identityAddressInterface = .ok link := hlink
          have heq : entry = ⟨link.index, address⟩ := by
            obtain ⟨index, network⟩ := entry
            simp_all
          have hhas := (FakeNetlink.hasAddress_iff hlink').mpr (heq ▸ hentry)
          rw [hgone hnot] at hhas
          cases hhas
        · exact h.tick

end Ledger

/-! ## `teardown` -/

/-- The records during a teardown: the entries still to go, then those that stayed. -/
def pending (l : List (HCoord × RouteSpec)) (applied : KeyedMap HCoord RouteSpec) (hc : HCoord) :
    Option RouteSpec :=
  ((l.find? (·.1 = hc)).map Prod.snd).or (applied.get? hc)

lemma pending_cons {e : HCoord × RouteSpec} {l : List (HCoord × RouteSpec)}
    {applied : KeyedMap HCoord RouteSpec} (hfresh : e.1 ∉ l.map Prod.fst)
    (happlied : applied.get? e.1 = none) :
    pending l applied = Function.update (pending (e :: l) applied) e.1 none ∧
      pending l (applied.insertOrdered e.1 e.2) = pending (e :: l) applied := by
  have hfind : l.find? (fun x => decide (x.1 = e.1)) = none := by
    rw [List.find?_eq_none]
    intro x hx
    simpa using fun heq => hfresh (List.mem_map.mpr ⟨x, hx, heq⟩)
  constructor
  · funext hc
    by_cases hhc : hc = e.1
    · subst hhc
      rw [Function.update_self, pending, hfind, happlied]
      rfl
    · rw [Function.update_of_ne hhc, pending, pending,
        List.find?_cons_of_neg (by simpa using Ne.symm hhc)]
  · funext hc
    by_cases hhc : hc = e.1
    · subst hhc
      rw [pending, hfind, pending, List.find?_cons_of_pos (by simp),
        KeyedMap.get?_insertOrdered_eq_update, Function.update_self]
      rfl
    · rw [pending, pending, List.find?_cons_of_neg (by simpa using Ne.symm hhc),
        KeyedMap.get?_insertOrdered_eq_update, Function.update_of_ne hhc]

/-- One route: it goes, or stays recorded. -/
lemma tearRoute_step {e : HCoord × RouteSpec} {l : List (HCoord × RouteSpec)}
    {f : Option NetlinkError} (hreal : s.myNaddr.IsReal)
    (h : Describes s.myNaddr s.table (pending (e :: l) s.applied) s.kernel)
    (hfresh : e.1 ∉ l.map Prod.fst) (happlied : s.applied.get? e.1 = none) :
    RoutesOnly s (tearRoute (s, f) e).1 ∧
      Describes s.myNaddr s.table (pending l (tearRoute (s, f) e).1.applied)
        (tearRoute (s, f) e).1.kernel ∧
      ∀ hc, hc ≠ e.1 → (tearRoute (s, f) e).1.applied.get? hc = s.applied.get? hc := by
  obtain ⟨hgone, hstay⟩ := pending_cons hfresh happlied
  have hknown : pending (e :: l) s.applied e.1 = some e.2 := by
    rw [pending, List.find?_cons_of_pos (by simp)]
    rfl
  simp only [tearRoute]
  rcases hcall : s.kernel.removeRoute ⟨e.2.destination, e.2.table⟩ with ⟨kernel, result⟩
  rcases forgiving_removeRoute h hknown hcall with ⟨hresult, rfl⟩ | ⟨rfl, err, hresult⟩
  · simp only [hresult]
    refine ⟨⟨rfl, rfl, rfl, rfl, rfl, rfl, rfl, rfl, rfl⟩, ?_, fun _ _ => trivial⟩
    rw [hgone]
    exact Describes.erase h hreal hknown rfl rfl
  · simp only [hresult]
    refine ⟨⟨rfl, rfl, rfl, rfl, rfl, rfl, rfl, rfl, rfl⟩, ?_, fun hc hhc => ?_⟩
    · rw [hstay]
      exact h.congr rfl rfl
    · rw [KeyedMap.get?_insertOrdered_eq_update, Function.update_of_ne hhc]

lemma tearRoutes_run {l : List (HCoord × RouteSpec)} (hnodup : (l.map Prod.fst).Nodup) :
    ∀ {s : RouteInstaller} {f : Option NetlinkError}, s.myNaddr.IsReal →
      Describes s.myNaddr s.table (pending l s.applied) s.kernel →
      (∀ e ∈ l, s.applied.get? e.1 = none) →
      RoutesOnly s (l.foldl tearRoute (s, f)).1 ∧
        (l.foldl tearRoute (s, f)).1.Tracks := by
  induction l with
  | nil =>
      intro s f _ h _
      exact ⟨RoutesOnly.refl s, h⟩
  | cons e l ih =>
      intro s f hreal h happlied
      rw [List.map_cons, List.nodup_cons] at hnodup
      obtain ⟨honly, hdescribes, hframe⟩ :=
        tearRoute_step hreal h hnodup.1 (happlied e List.mem_cons_self) (f := f)
      rw [List.foldl_cons]
      generalize tearRoute (s, f) e = b at honly hdescribes hframe ⊢
      rw [← honly.myNaddr, ← honly.table] at hdescribes
      obtain ⟨honly', htracks⟩ := ih hnodup.2 (s := b.1) (f := b.2)
        (honly.myNaddr ▸ hreal) hdescribes fun e' he' => by
          have hne : e'.1 ≠ e.1 := fun heq =>
            hnodup.1 (heq ▸ List.mem_map.mpr ⟨e', he', rfl⟩)
          rw [hframe e'.1 hne]
          exact happlied e' (List.mem_cons_of_mem e he')
      exact ⟨honly.trans honly', htracks⟩

/-- The routes of a teardown. -/
lemma Ledger.tearRoutes (h : Ledger s₀ s) :
    RoutesOnly s (s.applied.entries.foldl tearRoute ({ s with applied := .empty }, none)).1 ∧
      Ledger s₀ (s.applied.entries.foldl tearRoute ({ s with applied := .empty }, none)).1 := by
  have hcleared : RoutesOnly s { s with applied := .empty } :=
    ⟨rfl, rfl, rfl, rfl, rfl, rfl, rfl, rfl, rfl⟩
  by_cases hvirtual : s.myNaddr.isVirtual = true
  · obtain ⟨hidentity, hrule, happlied⟩ := isInstalled_eq_false.mp (h.idle hvirtual)
    have hnil : s.applied.entries = [] :=
      List.eq_nil_iff_forall_not_mem.mpr fun e he =>
        KeyedMap.get?_eq_none_iff.mp (happlied e.1) e.2 he
    have hempty : KeyedMap.empty.get? = s.applied.get? := funext fun hc => (happlied hc).symm
    rw [hnil]
    refine ⟨hcleared, h.table, h.rulePriority, ?_,
      fun _ => isInstalled_eq_false.mpr ⟨hidentity, hrule, fun _ => rfl⟩, h.identity,
      h.addresses, h.rules⟩
    show Describes s.myNaddr s.table KeyedMap.empty.get? s.kernel
    rw [hempty]
    exact h.tracks
  · have hreal : s.myNaddr.IsReal := by
      rw [Naddr.isReal_iff_isVirtual]
      simpa using hvirtual
    have hpending : pending s.applied.entries .empty = s.applied.get? := by
      funext hc
      simp [pending, KeyedMap.get?]
    obtain ⟨honly, htracks⟩ := tearRoutes_run (s := { s with applied := .empty }) (f := none)
      s.applied.nodup hreal (hpending ▸ h.tracks) fun _ _ => rfl
    refine ⟨hcleared.trans honly, h.routesOnly (hcleared.trans honly) htracks fun hv => ?_⟩
    rw [honly.myNaddr] at hv
    exact absurd hv hvirtual

/-- A teardown takes the routes, then the rule and the address. -/
lemma teardown_fst (s : RouteInstaller) :
    s.teardown.1 = (RouteInstaller.tearAddress (RouteInstaller.tearRule
      (s.applied.entries.foldl tearRoute ({ s with applied := .empty }, none)))).1 := by
  unfold RouteInstaller.teardown
  simp only
  generalize RouteInstaller.tearAddress (RouteInstaller.tearRule _) = b
  obtain ⟨s', firstError⟩ := b
  cases firstError <;> rfl

lemma Ledger.teardown (h : Ledger s₀ s) : Ledger s₀ s.teardown.1 := by
  rw [teardown_fst]
  exact h.tearRoutes.2.tearRule.tearAddress

/-! ## Adoption -/

/-- What an installer has had on record at some time. -/
structure Ever where
  address : Bool
  rule : Bool

/-- Whatever is on record now counts. -/
def Ever.note (ever : Ever) (s : RouteInstaller) : Ever :=
  ⟨ever.address || s.identityAddress.isSome, ever.rule || s.ruleInstalled⟩

/-- The address entry is the identity's, recorded or not. -/
def Own (s : RouteInstaller) (e : AddressEntry) : Prop :=
  hostAddress s.myNaddr = .ok e.network ∧
    ∃ link, s.kernel.resolveInterface identityAddressInterface = .ok link ∧
      e.interfaceIndex = link.index

/-- Once the address has been on record, it is whenever the kernel holds it, and so is the rule;
whether the installer added them or found them there. -/
structure Adopted (ever : Ever) (s : RouteInstaller) : Prop where
  addressOnce : s.kernel.addresses.Nodup
  ruleOnce : s.kernel.rules.Nodup
  real : ever.address = true → s.myNaddr.isVirtual = false
  address : ever.address = true → ∀ e ∈ s.kernel.addresses, s.Own e → s.Recorded e
  rule : ever.rule = true → s.rule ∈ s.kernel.rules → s.ruleInstalled = true

namespace Adopted

variable {ever : Ever}

/-- Nothing has been on record yet. -/
lemma init (haddresses : s.kernel.addresses.Nodup) (hrules : s.kernel.rules.Nodup) :
    Adopted ⟨false, false⟩ s :=
  ⟨haddresses, hrules, Bool.noConfusion, Bool.noConfusion, Bool.noConfusion⟩

/-- What is on record now has been from now on. -/
lemma note (h : Adopted ever s) (hledger : Ledger s₀ s) : Adopted (ever.note s) s where
  addressOnce := h.addressOnce
  ruleOnce := h.ruleOnce
  real := by
    intro hever
    rcases Bool.or_eq_true_iff.mp hever with hever | hnow
    · exact h.real hever
    · by_contra hvirtual
      rw [Bool.not_eq_false] at hvirtual
      rw [(isInstalled_eq_false.mp (hledger.idle hvirtual)).1] at hnow
      cases hnow
  address := by
    intro hever e he hown
    rcases Bool.or_eq_true_iff.mp hever with hever | hnow
    · exact h.address hever e he hown
    · obtain ⟨a, ha⟩ := Option.isSome_iff_exists.mp hnow
      have hsame := (hledger.identity a ha).symm.trans hown.1
      exact ⟨ha.trans (congrArg some (Except.ok.inj hsame)), hown.2⟩
  rule := by
    intro hever hmem
    rcases Bool.or_eq_true_iff.mp hever with hever | hnow
    · exact h.rule hever hmem
    · exact hnow

/-- A step that leaves addresses, rules and records alone. -/
lemma congr (h : Adopted ever s) (hnaddr : s'.myNaddr = s.myNaddr)
    (hidentity : s'.identityAddress = s.identityAddress)
    (hinstalled : s'.ruleInstalled = s.ruleInstalled) (hrule : s'.rule = s.rule)
    (hlinks : s'.kernel.links = s.kernel.links) (haddresses : s'.kernel.addresses = s.kernel.addresses)
    (hrules : s'.kernel.rules = s.kernel.rules) : Adopted ever s' where
  addressOnce := haddresses ▸ h.addressOnce
  ruleOnce := hrules ▸ h.ruleOnce
  real := hnaddr ▸ h.real
  address := by
    rw [haddresses]
    intro hever e he hown
    rw [Own, hnaddr, FakeNetlink.resolveInterface_congr hlinks] at hown
    exact (h.address hever e he hown).congr hidentity hlinks
  rule := by
    rw [hrule, hrules, hinstalled]
    exact h.rule

lemma routesOnly (h : Adopted ever s) (honly : RoutesOnly s s') : Adopted ever s' :=
  h.congr honly.myNaddr honly.identityAddress honly.ruleInstalled
    (by rw [RouteInstaller.rule, RouteInstaller.rule, honly.table, honly.rulePriority]) honly.links
    honly.addresses honly.rules

lemma tick (h : Adopted ever s) : Adopted ever { s with kernel := s.kernel.tick } :=
  h.congr rfl rfl rfl rfl rfl rfl rfl

/-- While the address is virtual, none has been on record. -/
lemma realize (h : Adopted ever s) (hvirtual : s.myNaddr.isVirtual = true) (n : Naddr) :
    Adopted ever (s.realize n) := by
  have hnone : ever.address ≠ true := fun hever => by
    rw [h.real hever] at hvirtual
    cases hvirtual
  exact ⟨h.addressOnce, h.ruleOnce, fun hever => absurd hever hnone,
    fun hever => absurd hever hnone, h.rule⟩

/-- The address is recorded, beside the kernel's other addresses. -/
lemma record (h : Adopted ever s) {address : Ipv4Net} (haddress : hostAddress s.myNaddr = .ok address)
    {addresses : List AddressEntry} (hnodup : addresses.Nodup) :
    Adopted ever
      { s with
        kernel := { s.kernel.tick with addresses }
        identityAddress := some address } where
  addressOnce := hnodup
  ruleOnce := h.ruleOnce
  real := h.real
  address := by
    rintro - e - ⟨hown, hlink⟩
    rw [haddress, Except.ok.injEq] at hown
    exact ⟨congrArg some hown, hlink⟩
  rule := h.rule

lemma installRule {address : Ipv4Net} (h : Adopted ever { s with identityAddress := some address }) :
    Adopted ever (s.installRule address).1 := by
  unfold RouteInstaller.installRule
  generalize { s with identityAddress := some address } = s₁ at h ⊢
  simp only
  rcases hcall : s₁.kernel.addRule s₁.rule with ⟨kernel, result⟩
  rcases FakeNetlink.addRule_cases hcall with ⟨rfl, hfresh, rfl⟩ | ⟨rfl, e, rfl, -⟩
  · exact ⟨h.addressOnce, List.nodup_append.mpr
      ⟨h.ruleOnce, List.nodup_singleton _, fun r hr r' hr' heq => hfresh (by
        rw [← List.mem_singleton.mp hr', ← heq]
        exact hr)⟩, h.real, h.tick.address, fun _ _ => rfl⟩
  · simp only [adopting]
    split_ifs
    · exact ⟨h.addressOnce, h.ruleOnce, h.real, h.tick.address, fun _ _ => rfl⟩
    · exact h.tick

lemma installIdentity (h : Adopted ever s) : Adopted ever s.installIdentity.1 := by
  unfold RouteInstaller.installIdentity
  by_cases hvirtual : s.myNaddr.isVirtual = true
  · rw [if_pos hvirtual]
    exact h
  · rw [if_neg hvirtual]
    cases haddress : hostAddress s.myNaddr with
    | error e => cases e <;> exact h
    | ok address =>
        simp only [Outcome.mapErr_ok]
        rcases hcall : s.kernel.addAddress identityAddressInterface address with ⟨kernel, result⟩
        rcases FakeNetlink.addAddress_cases hcall with
          ⟨rfl, link, -, hfresh, rfl⟩ | ⟨rfl, e, rfl, -⟩
        · refine installRule (h.record haddress (List.nodup_append.mpr
            ⟨h.addressOnce, List.nodup_singleton _, fun e he e' he' heq => hfresh ?_⟩))
          rw [← List.mem_singleton.mp he', ← heq]
          exact he
        · simp only [adopting]
          split_ifs
          · exact installRule (h.record haddress h.addressOnce)
          · exact h.tick

lemma tearRule {b : RouteInstaller × Option NetlinkError} (h : Adopted ever b.1) :
    Adopted ever (RouteInstaller.tearRule b).1 := by
  obtain ⟨s, firstError⟩ := b
  simp only [RouteInstaller.tearRule]
  split_ifs
  · rcases hcall : s.kernel.removeRule s.rule with ⟨kernel, result⟩
    rcases FakeNetlink.removeRule_cases hcall with ⟨rfl, -, rfl⟩ | ⟨rfl, e, rfl, hgone⟩
    · exact ⟨h.addressOnce, h.ruleOnce.erase _, h.real, h.tick.address,
        fun _ hmem => absurd hmem h.ruleOnce.not_mem_erase⟩
    · simp only [forgiving]
      split_ifs with hnot
      · exact ⟨h.addressOnce, h.ruleOnce, h.real, h.tick.address,
          fun _ hmem => absurd hmem (hgone hnot)⟩
      · exact h.tick
  · exact h

lemma tearAddress {b : RouteInstaller × Option NetlinkError} (hledger : Ledger s₀ b.1)
    (h : Adopted ever b.1) : Adopted ever (RouteInstaller.tearAddress b).1 := by
  obtain ⟨s, firstError⟩ := b
  simp only [RouteInstaller.tearAddress]
  split
  · exact h
  next address hidentity =>
      -- The entry that goes is the only one of the identity.
      have hentry : ∀ {link : LinkInfo} {e : AddressEntry},
          s.kernel.resolveInterface identityAddressInterface = .ok link → s.Own e →
            e = ⟨link.index, address⟩ := by
        rintro link ⟨index, network⟩ hlink ⟨hnet, link', hlink', hindex⟩
        rw [hlink, Except.ok.injEq] at hlink'
        have hsame := (hledger.identity address hidentity).symm.trans hnet
        cases hlink'
        cases hsame
        cases hindex
        rfl
      rcases hcall : s.kernel.removeAddress identityAddressInterface address with ⟨kernel, result⟩
      rcases FakeNetlink.removeAddress_cases hcall with
        ⟨rfl, link, hlink, -, rfl⟩ | ⟨rfl, e, rfl, hgone⟩
      · refine ⟨h.addressOnce.erase _, h.ruleOnce, h.real, fun _ entry hmem hown => ?_, h.rule⟩
        rw [hentry hlink hown] at hmem
        exact absurd hmem h.addressOnce.not_mem_erase
      · simp only [forgiving]
        split_ifs with hnot
        · refine ⟨h.addressOnce, h.ruleOnce, h.real, fun _ entry hmem hown => ?_, h.rule⟩
          have hmem : entry ∈ s.kernel.addresses := hmem
          have hown : s.Own entry := hown
          obtain ⟨-, link, hlink, -⟩ := id hown
          have hhas := (FakeNetlink.hasAddress_iff hlink).mpr (hentry hlink hown ▸ hmem)
          rw [hgone hnot] at hhas
          cases hhas
        · exact h.tick

lemma teardown (hledger : Ledger s₀ s) (h : Adopted ever s) : Adopted ever s.teardown.1 := by
  obtain ⟨honly, hroutes⟩ := hledger.tearRoutes
  rw [teardown_fst]
  exact tearAddress hroutes.tearRule (h.routesOnly honly).tearRule

end Adopted

/-! ## Runs -/

/-- The calls on an installer. -/
inductive Call where
  | installIdentity
  | apply (snapshot : RouteSnapshot)
  | teardown
  | setArcEndpoint (arc : ArcId) (via : Ipv4Addr) (dev : Interface)
  | clearArcEndpoint (arc : ArcId)
  | realize (naddr : Naddr)

/-- The installer after a call, whatever the call returned. -/
def exec (s : RouteInstaller) : Call → RouteInstaller
  | .installIdentity => s.installIdentity.1
  | .apply snapshot => (s.apply snapshot).1
  | .teardown => s.teardown.1
  | .setArcEndpoint arc via dev => s.setArcEndpoint arc via dev
  | .clearArcEndpoint arc => s.clearArcEndpoint arc
  | .realize naddr => s.realize naddr

/-- Snapshots name no g-node of the identity's own, and only a virtual address is realized. -/
def Allowed (s : RouteInstaller) : Call → Prop
  | .apply snapshot => s.Foreign snapshot
  | .realize _ => s.myNaddr.isVirtual = true
  | _ => True

/-- The installers that a sequence of calls can lead to, with what has been on record on the way. -/
inductive Reaches (s₀ : RouteInstaller) : Ever → RouteInstaller → Prop
  | refl : Reaches s₀ ⟨false, false⟩ s₀
  | step {ever : Ever} {s : RouteInstaller} (c : Call) : Reaches s₀ ever s → s.Allowed c →
      Reaches s₀ (ever.note (s.exec c)) (s.exec c)

lemma Ledger.exec (h : Ledger s₀ s) {c : Call} (hc : s.Allowed c) : Ledger s₀ (s.exec c) := by
  cases c with
  | installIdentity => exact h.installIdentity
  | apply snapshot => exact h.apply hc
  | teardown => exact h.teardown
  | setArcEndpoint arc via dev => exact h.setArcEndpoint arc via dev
  | clearArcEndpoint arc => exact h.clearArcEndpoint arc
  | realize naddr => exact h.realize hc naddr

lemma Adopted.exec {ever : Ever} (hledger : Ledger s₀ s) (h : Adopted ever s) {c : Call}
    (hc : s.Allowed c) : Adopted (ever.note (s.exec c)) (s.exec c) := by
  refine Adopted.note ?_ (hledger.exec hc)
  cases c with
  | installIdentity => exact h.installIdentity
  | apply snapshot => exact h.routesOnly (apply_spec hledger.tracks hc).1
  | teardown => exact h.teardown hledger
  | setArcEndpoint arc via dev => exact h.congr rfl rfl rfl rfl rfl rfl rfl
  | clearArcEndpoint arc => exact h.congr rfl rfl rfl rfl rfl rfl rfl
  | realize naddr => exact h.realize hc naddr

lemma mem_listRoutes {k : FakeNetlink} {table : UInt32} {r : RouteSpec} :
    r ∈ k.listRoutes (some table) ↔ r.table = table ∧ k.routes.get? table r.destination = some r := by
  rw [FakeNetlink.listRoutes, List.mem_filter, KernelRoutes.mem_values]
  constructor
  · rintro ⟨hget, htable⟩
    have heq : r.table = table := by simpa using htable
    exact ⟨heq, heq ▸ hget⟩
  · rintro ⟨heq, hget⟩
    exact ⟨heq ▸ hget, by simpa using heq⟩

/-- The table holds the recorded routes, as the kernel stores them. -/
lemma Tracks.mem_listRoutes_iff (h : s.Tracks) {r : RouteSpec} :
    r ∈ s.kernel.listRoutes (some s.table) ↔
      ∃ hc spec, s.applied.get? hc = some spec ∧ s.kernel.stored spec = r := by
  rw [mem_listRoutes]
  constructor
  · rintro ⟨-, hget⟩
    obtain ⟨hc, spec, hknown, hdest⟩ := h.owned r.destination r hget
    obtain ⟨stored, hvalid, hheld⟩ := h.held hc spec hknown
    rw [hdest, hget, Option.some.injEq] at hheld
    exact ⟨hc, spec, hknown, (FakeNetlink.stored_of_validateRoute hvalid).trans hheld.symm⟩
  · rintro ⟨hc, spec, hknown, rfl⟩
    obtain ⟨stored, hvalid, hheld⟩ := h.held hc spec hknown
    rw [FakeNetlink.stored_of_validateRoute hvalid, (FakeNetlink.validateRoute_key hvalid).1]
    exact ⟨(KernelRoutes.eq_of_get? hheld).1, hheld⟩

/-- A kernel lists every route once. -/
lemma listRoutes_nodup (k : FakeNetlink) (table : Option UInt32) : (k.listRoutes table).Nodup := by
  have hkeys : (k.routes.map.values.map fun r => routeKey r.table r.destination) =
      k.routes.map.keys := by
    rw [KeyedMap.values, KeyedMap.keys, List.map_map]
    refine List.map_congr_left fun e he => ?_
    exact (k.routes.keyed e.1 e.2 (KeyedMap.mem_entries_iff.mp he)).symm
  unfold FakeNetlink.listRoutes
  refine List.Nodup.filter _ (List.Nodup.of_map (fun r => routeKey r.table r.destination) ?_)
  rw [hkeys]
  exact k.routes.map.nodup

/-- Two recorded routes that are stored alike are the same record. -/
lemma Tracks.stored_injective (h : s.Tracks) (hreal : s.myNaddr.IsReal) {hc hc' : HCoord}
    {spec spec' : RouteSpec} (hknown : s.applied.get? hc = some spec)
    (hknown' : s.applied.get? hc' = some spec')
    (heq : s.kernel.stored spec = s.kernel.stored spec') : hc = hc' := by
  obtain ⟨stored, hvalid, -⟩ := h.held hc spec hknown
  obtain ⟨stored', hvalid', -⟩ := h.held hc' spec' hknown'
  rw [FakeNetlink.stored_of_validateRoute hvalid,
    FakeNetlink.stored_of_validateRoute hvalid'] at heq
  have hdest : spec.destination = spec'.destination := by
    rw [← (FakeNetlink.validateRoute_key hvalid).1, heq,
      (FakeNetlink.validateRoute_key hvalid').1]
  obtain ⟨hd, -, hown⟩ := h.encodes hc spec hknown
  obtain ⟨hd', -, hown'⟩ := h.encodes hc' spec' hknown'
  exact gnodeDestination_injective hreal hd (hdest ▸ hd') hown hown'

/-- The routes of the table and the records correspond one to one. -/
lemma Tracks.perm (h : s.Tracks) (hreal : s.myNaddr.IsReal ∨ s.applied.entries = []) :
    (s.kernel.listRoutes (some s.table)).Perm (s.applied.values.map s.kernel.stored) := by
  have hsame : ∀ e ∈ s.applied.entries, ∀ e' ∈ s.applied.entries,
      s.kernel.stored e.2 = s.kernel.stored e'.2 → e = e' := by
    intro e he e' he' heq
    rcases hreal with hreal | hnil
    · have hknown := KeyedMap.mem_entries_iff.mp he
      have hknown' := KeyedMap.mem_entries_iff.mp he'
      have hkey := h.stored_injective hreal hknown hknown' heq
      rw [hkey, hknown', Option.some.injEq] at hknown
      exact Prod.ext hkey hknown.symm
    · rw [hnil] at he
      cases he
  have hvalues : s.applied.values.Nodup :=
    List.Nodup.map_on (fun e he e' he' heq => hsame e he e' he' (congrArg _ heq))
      (List.Nodup.of_map _ s.applied.nodup)
  have hright : (s.applied.values.map s.kernel.stored).Nodup := by
    refine List.Nodup.map_on (fun r hr r' hr' heq => ?_) hvalues
    obtain ⟨hc, hmem⟩ := KeyedMap.mem_values.mp hr
    obtain ⟨hc', hmem'⟩ := KeyedMap.mem_values.mp hr'
    exact congrArg Prod.snd (hsame (hc, r) hmem (hc', r') hmem' heq)
  refine (List.perm_ext_iff_of_nodup (listRoutes_nodup _ _) hright).mpr fun r => ?_
  rw [h.mem_listRoutes_iff, List.mem_map]
  constructor
  · rintro ⟨hc, spec, hknown, hr⟩
    exact ⟨spec, KeyedMap.mem_values_of_get? hknown, hr⟩
  · rintro ⟨spec, hspec, hr⟩
    obtain ⟨hc, hmem⟩ := KeyedMap.mem_values.mp hspec
    exact ⟨hc, spec, KeyedMap.mem_entries_iff.mp hmem, hr⟩

/-- A kernel with the loopback and one more interface, none of whose calls fails. -/
def ethKernel : FakeNetlink where
  links := [⟨1, "lo"⟩, ⟨2, "eth0"⟩]
  addresses := []
  routes := .empty
  rules := []
  faults := fun _ => none
  calls := 0

def ethNaddr : Naddr := ⟨⟨[4, 2], by simp, by simp⟩, [1, 0], rfl⟩

end RouteInstaller

end Netsukuku
