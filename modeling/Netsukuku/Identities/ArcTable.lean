import Mathlib
import Netsukuku.Identities.MainRole
import Netsukuku.Identities.Node

/-!
# The identity-arc table under late results

An arc is resolved and a migration is duplicated by calls that are answered whenever the peer
answers.  What comes of them is applied to whatever the table is by then.

* `WellFormed` — every list belongs to a registered identity and a known arc, its peers are
  distinct, its addresses are not empty.
* `Fits` — what a late result must find: an arc whose peer the main identity does not have yet; for
  a duplication, every identity-arc it duplicates and none of those it adds.
* `State.handle_wellFormed` — one command; `Node.Run.wellFormed` — a run with its tasks.
-/

namespace Netsukuku.Identities

/-! ## The invariant -/

/-- An identity-arc carries both addresses. -/
def IdentityArc.Addressed (ia : IdentityArc) : Prop := ia.peerMac ≠ "" ∧ ia.peerLinklocal ≠ ""

/-- The identity-arcs of one identity over one arc. -/
structure ListOk (l : List IdentityArc) : Prop where
  distinct : (l.map (·.peerId)).Nodup
  addressed : ∀ ia ∈ l, ia.Addressed

lemma listOk_nil : ListOk [] := ⟨List.nodup_nil, by simp⟩

lemma ListOk.getD {l : Option (List IdentityArc)} (h : ∀ list, l = some list → ListOk list) :
    ListOk (l.getD []) := by
  cases l with
  | none => exact listOk_nil
  | some list => exact h list rfl

lemma ListOk.snoc {l : List IdentityArc} (h : ListOk l) {ia : IdentityArc}
    (hnew : ia.peerId ∉ l.map (·.peerId)) (hia : ia.Addressed) : ListOk (l ++ [ia]) where
  distinct := by
    rw [List.map_append, List.map_singleton, List.nodup_append]
    refine ⟨h.distinct, List.nodup_singleton _, ?_⟩
    rintro a ha b hb rfl
    exact hnew (List.mem_singleton.mp hb ▸ ha)
  addressed := by
    intro ia' hmem
    rcases List.mem_append.mp hmem with hmem | hmem
    · exact h.addressed ia' hmem
    · exact List.mem_singleton.mp hmem ▸ hia

lemma ListOk.readdress {l : List IdentityArc} (h : ListOk l) (peerId : IdentityId)
    {mac linklocal : String} (hmac : mac ≠ "") (hlinklocal : linklocal ≠ "") :
    ListOk (ArcTable.readdress peerId mac linklocal l) where
  distinct := by
    rw [ArcTable.map_peerId_readdress]
    exact h.distinct
  addressed := by
    intro ia hmem
    rcases ArcTable.mem_readdress hmem with hmem | ⟨hm, hl⟩
    · exact h.addressed ia hmem
    · exact ⟨hm ▸ hmac, hl ▸ hlinklocal⟩

lemma ListOk.eraseP {l : List IdentityArc} (h : ListOk l) (p : IdentityArc → Bool) :
    ListOk (l.eraseP p) where
  distinct := h.distinct.sublist (List.eraseP_sublist.map _)
  addressed := fun ia hmem => h.addressed ia (List.mem_of_mem_eraseP hmem)

/-- The table is well formed, but for the lists of the arcs `broken`, which are about to go. -/
structure WellFormedBut (broken : List ArcId) (s : State) : Prop where
  main : (s.registry.get s.registry.mainId).isSome = true
  infos : ∀ arc info, s.arcs.get? arc = some info → info.peerMac ≠ "" ∧ info.peerLinklocal ≠ ""
  registered : ∀ key list, s.identityArcs.get? key = some list →
    (s.registry.get key.1).isSome = true
  known : ∀ key list, s.identityArcs.get? key = some list → (s.arcs.get? key.2).isSome = true
  lists : ∀ key list, key.2 ∉ broken → s.identityArcs.get? key = some list → ListOk list

/-- The table is well formed. -/
abbrev WellFormed : State → Prop := WellFormedBut []

variable {s : State} {broken : List ArcId}

lemma wellFormed_spawn (mainId : IdentityId) (initialNaddr : Option Naddr) :
    WellFormed (State.spawn mainId initialNaddr) where
  main := by
    show ((Registry.new mainId initialNaddr).get mainId).isSome = true
    rw [Registry.new_get, Function.update_self]
    rfl
  infos := nofun
  registered := nofun
  known := nofun
  lists := nofun

/-- Another table: each of its lists was there before, or is in order by itself. -/
lemma WellFormedBut.replace (h : WellFormedBut broken s) {m : ArcTable}
    (hm : ∀ key list, m.get? key = some list → s.identityArcs.get? key = some list ∨
      ((s.registry.get key.1).isSome = true ∧ (s.arcs.get? key.2).isSome = true ∧
        (key.2 ∉ broken → ListOk list))) :
    WellFormedBut broken { s with identityArcs := m } where
  main := h.main
  infos := h.infos
  registered := fun key list hget => (hm key list hget).elim (h.registered key list) (·.1)
  known := fun key list hget => (hm key list hget).elim (h.known key list) (·.2.1)
  lists := fun key list hb hget => (hm key list hget).elim (h.lists key list hb) (·.2.2 hb)

/-- Another list under one key. -/
lemma WellFormedBut.setList (h : WellFormedBut broken s) {key : IdentityId × ArcId}
    {list : List IdentityArc} (hid : (s.registry.get key.1).isSome = true)
    (harc : (s.arcs.get? key.2).isSome = true) (hlist : key.2 ∉ broken → ListOk list)
    {m : ArcTable} (hm : m.get? = Function.update s.identityArcs.get? key (some list)) :
    WellFormedBut broken { s with identityArcs := m } := by
  refine h.replace fun key' list' hget => ?_
  rw [congrFun hm key'] at hget
  by_cases hk : key' = key
  · rw [hk, Function.update_self] at hget
    exact .inr (hk ▸ ⟨hid, harc, Option.some.inj hget ▸ hlist⟩)
  · rw [Function.update_of_ne hk] at hget
    exact .inl hget

/-- Fewer lists, and a registry that still has the identities of those left. -/
lemma WellFormedBut.restrict (h : WellFormedBut broken s) (registry : Registry) (m : ArcTable)
    (pendingMigrations : KeyedMap (MigrationId × IdentityId) PendingMigration)
    (hmain : (registry.get registry.mainId).isSome = true)
    (hm : ∀ key list, m.get? key = some list → s.identityArcs.get? key = some list ∧
      (registry.get key.1).isSome = true) :
    WellFormedBut broken { s with registry, identityArcs := m, pendingMigrations } where
  main := hmain
  infos := h.infos
  registered := fun key list hget => (hm key list hget).2
  known := fun key list hget => h.known key list (hm key list hget).1
  lists := fun key list hb hget => h.lists key list hb (hm key list hget).1

/-! ## Tearing an arc down -/

lemma State.get?_removeArc (s : State) {arc : ArcId} (harc : s.arcs.contains arc = true)
    (key : IdentityId × ArcId) :
    (s.removeArc arc).1.identityArcs.get? key
      = if key ∈ s.registry.ids.map (fun id => (id, arc)) then none
        else s.identityArcs.get? key := by
  rw [State.removeArc, if_pos harc]
  refine (KeyedMap.get?_foldl_erase (fun id => (id, arc)) s.registry.ids s.identityArcs
    key).trans ?_
  congr

/-- Removing an arc takes its lists with it: the arc need not be made an exception any more. -/
lemma WellFormedBut.removeArc {arc : ArcId} (h : WellFormedBut (arc :: broken) s) :
    WellFormedBut broken (s.removeArc arc).1 := by
  by_cases harc : s.arcs.contains arc = true
  · -- every list of the arc belongs to a registered identity, so it is among those erased
    have hget : ∀ key list, (s.removeArc arc).1.identityArcs.get? key = some list →
        key.2 ≠ arc ∧ s.identityArcs.get? key = some list := by
      intro key list hk
      rw [State.get?_removeArc s harc] at hk
      split at hk
      · cases hk
      · next hmem =>
          refine ⟨fun heq => hmem ?_, hk⟩
          obtain ⟨record, hrecord⟩ := Option.isSome_iff_exists.mp (h.registered key list hk)
          exact List.mem_map.mpr ⟨key.1, (Registry.mem_ids _).mpr ⟨record, hrecord⟩, heq ▸ rfl⟩
    have harcs : (s.removeArc arc).1.arcs = s.arcs.erase arc := by
      rw [State.removeArc, if_pos harc]
    constructor
    · rw [State.removeArc_registry]
      exact h.main
    · intro arc' info hinfo
      rw [harcs] at hinfo
      by_cases ha : arc' = arc
      · rw [ha, KeyedMap.get?_erase_self] at hinfo
        cases hinfo
      · rw [KeyedMap.get?_erase_of_ne _ ha] at hinfo
        exact h.infos arc' info hinfo
    · intro key list hk
      rw [State.removeArc_registry]
      exact h.registered key list (hget key list hk).2
    · intro key list hk
      rw [harcs, KeyedMap.get?_erase_of_ne _ (hget key list hk).1]
      exact h.known key list (hget key list hk).2
    · intro key list hb hk
      obtain ⟨hne, hk⟩ := hget key list hk
      exact h.lists key list (List.not_mem_cons_of_ne_of_not_mem hne hb) hk
  · -- an arc that is not known has no lists
    have hstate : (s.removeArc arc).1 = s := by
      rw [State.removeArc, if_neg harc]
    rw [hstate]
    refine ⟨h.main, h.infos, h.registered, h.known, fun key list hb hk => ?_⟩
    refine h.lists key list (List.not_mem_cons_of_ne_of_not_mem (fun heq => harc ?_) hb) hk
    rw [← heq]
    exact h.known key list hk

lemma WellFormedBut.removeArcs (arcs : List ArcId) {s : State} (h : WellFormedBut arcs s) :
    WellFormed (arcs.foldl (fun s arc => (s.removeArc arc).1) s) := by
  induction arcs generalizing s with
  | nil => exact h
  | cons arc arcs ih => exact ih h.removeArc

lemma WellFormedBut.mono {broken' : List ArcId} (h : WellFormedBut broken s)
    (hsub : ∀ arc ∈ broken, arc ∈ broken') : WellFormedBut broken' s :=
  ⟨h.main, h.infos, h.registered, h.known,
    fun key list hb => h.lists key list fun hk => hb (hsub _ hk)⟩

/-! ## Applying a duplication -/

/-- The peers of one list of a table. -/
def peers (m : ArcTable) (key : IdentityId × ArcId) : List IdentityId :=
  ((m.get? key).getD []).map (·.peerId)

/-- The addresses of a peer's answer are not empty. -/
def DuplicationData.Addressed (dup : DuplicationData) : Prop :=
  dup.peerOldIdNewMac ≠ "" ∧ dup.peerOldIdNewLinklocal ≠ ""

/-- What the outcome of duplicating an arc must find: every identity-arc it duplicated is still
there, the identity-arcs it adds are distinct and none of them is there yet. -/
structure OutcomeFits (m : ArcTable) (oldId newId : IdentityId) (o : ArcDuplicationOutcome) :
    Prop where
  duplicated : ∀ ia ∈ o.identityArcs, ia.peerId ∈ peers m (oldId, o.arc)
  distinct : (o.identityArcs.map (·.newPeer)).Nodup
  added : ∀ ia ∈ o.identityArcs, ia.newPeer ∉ peers m (newId, o.arc)

variable {oldId newId : IdentityId} {arc : ArcId}

lemma ListOk.readdressed {l : List IdentityArc} (h : ListOk l) {ia : IdentityArcDuplication}
    (hdup : ∀ dup, ia.dupData = some dup → dup.Addressed) : ListOk (ia.readdressed l) := by
  unfold IdentityArcDuplication.readdressed
  split
  · next dup heq => exact h.readdress _ (hdup dup heq).1 (hdup dup heq).2
  · exact h

lemma peers_applyDuplication_old (hne : oldId ≠ newId) (m : ArcTable)
    (ia : IdentityArcDuplication) :
    peers (State.applyDuplication oldId newId arc m ia) (oldId, arc) = peers m (oldId, arc) := by
  have hkey : (oldId, arc) ≠ (newId, arc) := fun h => hne (congrArg Prod.fst h)
  unfold peers
  rw [State.get?_applyDuplication hne, Function.update_of_ne hkey, Function.update_self]
  cases m.get? (oldId, arc) with
  | none => rfl
  | some list => exact ia.map_peerId_readdressed list

lemma peers_applyDuplication_new (hne : oldId ≠ newId) (m : ArcTable)
    (ia : IdentityArcDuplication) :
    peers (State.applyDuplication oldId newId arc m ia) (newId, arc)
      = peers m (newId, arc) ++ [ia.newPeer] := by
  unfold peers
  rw [State.get?_applyDuplication hne, Function.update_self, Option.getD_some, List.map_append]
  rfl

/-- One duplicated identity-arc. -/
lemma WellFormedBut.applyDuplication (h : WellFormedBut broken s) (hne : oldId ≠ newId)
    (hreg : (s.registry.get newId).isSome = true) (harc : (s.arcs.get? arc).isSome = true)
    {ia : IdentityArcDuplication} (hdup : ∀ dup, ia.dupData = some dup → dup.Addressed)
    (hfits : arc ∉ broken → ia.peerId ∈ peers s.identityArcs (oldId, arc) ∧
      ia.newPeer ∉ peers s.identityArcs (newId, arc)) :
    WellFormedBut broken
      { s with identityArcs := State.applyDuplication oldId newId arc s.identityArcs ia } := by
  refine h.replace fun key list hget => ?_
  rw [State.get?_applyDuplication hne] at hget
  by_cases hn : key = (newId, arc)
  · refine .inr ⟨hn ▸ hreg, hn ▸ harc, fun hb => ?_⟩
    rw [hn] at hb
    obtain ⟨hold, hnew⟩ := hfits hb
    rw [hn, Function.update_self] at hget
    rw [← Option.some.inj hget]
    refine (ListOk.getD fun list => h.lists (newId, arc) list hb).snoc hnew ?_
    -- the old identity still has the identity-arc, so its addresses are copied from there
    cases hl : s.identityArcs.get? (oldId, arc) with
    | none =>
        rw [peers, hl] at hold
        exact absurd hold (by simp)
    | some l =>
        have hok : ListOk (ia.readdressed l) :=
          (h.lists (oldId, arc) l hb hl).readdressed hdup
        have hmem : ia.peerId ∈ (ia.readdressed l).map (·.peerId) := by
          rw [peers, hl] at hold
          rw [ia.map_peerId_readdressed]
          exact hold
        obtain ⟨w, hw, hfind⟩ := ArcTable.findPeer_some hmem
        have hadded : ia.added (some (ia.readdressed l)) = ⟨ia.newPeer, w.peerMac,
            w.peerLinklocal⟩ := by
          simp only [IdentityArcDuplication.added, Option.bind_some, hfind, Option.map_some,
            Option.getD_some]
        rw [Option.map_some, hadded]
        exact hok.addressed w hw
  · rw [Function.update_of_ne hn] at hget
    by_cases ho : key = (oldId, arc)
    · rw [ho, Function.update_self, Option.map_eq_some_iff] at hget
      obtain ⟨l, hl, rfl⟩ := hget
      refine .inr (ho ▸ ⟨h.registered _ _ hl, harc, fun hb => ?_⟩)
      exact (h.lists _ _ hb hl).readdressed hdup
    · rw [Function.update_of_ne ho] at hget
      exact .inl hget

/-- One outcome: the induction is on the identity-arcs it duplicates, each of which leaves the old
identity its peers and adds one to the new identity's. -/
lemma WellFormedBut.applyOutcome (h : WellFormedBut broken s) (hne : oldId ≠ newId)
    (hreg : (s.registry.get newId).isSome = true) {o : ArcDuplicationOutcome}
    (harc : (s.arcs.get? o.arc).isSome = true) (hdup : o.Forall DuplicationData.Addressed)
    (hfits : o.arc ∉ broken → OutcomeFits s.identityArcs oldId newId o) :
    WellFormedBut broken
      { s with identityArcs := State.applyOutcome oldId newId s.identityArcs o } := by
  obtain ⟨arc, isBroken, identityArcs⟩ := o
  unfold State.applyOutcome
  simp only at harc hfits ⊢
  induction identityArcs generalizing s with
  | nil => exact h
  | cons ia rest ih =>
      have hstep := h.applyDuplication hne hreg harc (hdup ia List.mem_cons_self) fun hb =>
        ⟨(hfits hb).duplicated ia List.mem_cons_self, (hfits hb).added ia List.mem_cons_self⟩
      refine ih hstep hreg harc (fun ia' hia' => hdup ia' (List.mem_cons_of_mem _ hia'))
        fun hb => ?_
      obtain ⟨hdupl, hdist, hadd⟩ := hfits hb
      rw [List.map_cons, List.nodup_cons] at hdist
      refine ⟨fun ia' hia' => ?_, hdist.2, fun ia' hia' => ?_⟩
      · rw [peers_applyDuplication_old hne]
        exact hdupl ia' (List.mem_cons_of_mem _ hia')
      · rw [peers_applyDuplication_new hne, List.mem_append, List.mem_singleton]
        rintro (hmem | heq)
        · exact hadd ia' (List.mem_cons_of_mem _ hia') hmem
        · exact hdist.1 (heq ▸ List.mem_map_of_mem hia')

lemma peers_applyOutcome_of_ne {o : ArcDuplicationOutcome} (hne : oldId ≠ newId)
    (harc : arc ≠ o.arc) (m : ArcTable) (id : IdentityId) :
    peers (State.applyOutcome oldId newId m o) (id, arc) = peers m (id, arc) := by
  unfold State.applyOutcome
  induction o.identityArcs generalizing m with
  | nil => rfl
  | cons ia rest ih =>
      have hkey : ∀ id', (id, arc) ≠ (id', o.arc) := fun id' h => harc (congrArg Prod.snd h)
      rw [List.foldl_cons, ih]
      unfold peers
      rw [State.get?_applyDuplication hne, Function.update_of_ne (hkey _),
        Function.update_of_ne (hkey _)]

/-- All outcomes.  They are about distinct arcs, so what one finds is what there was at first. -/
lemma WellFormedBut.applyOutcomes (h : WellFormedBut broken s) (hne : oldId ≠ newId)
    (hreg : (s.registry.get newId).isSome = true) {outcomes : List ArcDuplicationOutcome}
    (harcs : ∀ o ∈ outcomes, (s.arcs.get? o.arc).isSome = true)
    (hnodup : (outcomes.map (·.arc)).Nodup)
    (hdup : ∀ o ∈ outcomes, o.Forall DuplicationData.Addressed)
    (hfits : ∀ o ∈ outcomes, o.arc ∉ broken → OutcomeFits s.identityArcs oldId newId o) :
    WellFormedBut broken
      { s with identityArcs := outcomes.foldl (State.applyOutcome oldId newId) s.identityArcs } := by
  induction outcomes generalizing s with
  | nil => exact h
  | cons o rest ih =>
      rw [List.map_cons, List.nodup_cons] at hnodup
      have hstep := h.applyOutcome hne hreg (harcs o List.mem_cons_self)
        (hdup o List.mem_cons_self) (hfits o List.mem_cons_self)
      refine ih hstep hreg (fun o' ho' => harcs o' (List.mem_cons_of_mem _ ho')) hnodup.2
        (fun o' ho' => hdup o' (List.mem_cons_of_mem _ ho')) fun o' ho' hb => ?_
      have harc : o'.arc ≠ o.arc := fun heq => hnodup.1 (heq ▸ List.mem_map_of_mem ho')
      obtain ⟨hdupl, hdist, hadd⟩ := hfits o' (List.mem_cons_of_mem _ ho') hb
      exact ⟨fun ia hia => by rw [peers_applyOutcome_of_ne hne harc]; exact hdupl ia hia, hdist,
        fun ia hia => by rw [peers_applyOutcome_of_ne hne harc]; exact hadd ia hia⟩

/-! ## One command -/

/-- The addresses a command brings along are not empty, and the outcomes of a duplication are what
a task makes of them: about distinct arcs, and of two identities. -/
def Proper : Cmd → Prop
  | .addArc _ info => info.peerMac ≠ "" ∧ info.peerLinklocal ≠ ""
  | .neighbourMigrated _ _ _ newMac newLinklocal _ => newMac ≠ "" ∧ newLinklocal ≠ ""
  | .applyMigrationDuplication _ oldId newId outcomes =>
      oldId ≠ newId ∧ (outcomes.map (·.arc)).Nodup ∧
        ∀ o ∈ outcomes, o.Forall DuplicationData.Addressed
  | _ => True

/-- What a late result must find.  A result that is discarded, because its arc or its new identity
is gone or the arc is torn down anyway, may find anything. -/
def Fits (s : State) : Cmd → Prop
  | .applyArcAdd arc (.ok peerId) =>
      (s.arcs.get? arc).isSome = true → peerId ∉ peers s.identityArcs (s.registry.mainId, arc)
  | .applyMigrationDuplication _ oldId newId outcomes =>
      (s.registry.get newId).isSome = true → ∀ o ∈ outcomes, (s.arcs.get? o.arc).isSome = true →
        o.broken = false → OutcomeFits s.identityArcs oldId newId o
  | _ => True

namespace State

lemma onAddArc_wellFormed (h : WellFormed s) {arc : ArcId} {info : ArcInfo}
    (hinfo : info.peerMac ≠ "" ∧ info.peerLinklocal ≠ "") :
    WellFormed (s.onAddArc arc info).state := by
  unfold onAddArc
  split
  · exact h
  · next harc =>
      have harcs : ∀ arc', (s.arcs.get? arc').isSome = true →
          ((s.arcs.insert arc info).get? arc').isSome = true := by
        intro arc' hsome
        rw [KeyedMap.get?_insert_eq_update]
        by_cases ha : arc' = arc
        · rw [ha, Function.update_self, Option.isSome_some]
        · rwa [Function.update_of_ne ha]
      -- every registered identity gets an entry for the arc
      have hget : ∀ key list, ((s.registry.ids.foldl
          (fun m id => ArcTable.orDefault m (id, arc)) s.identityArcs).get? key) = some list →
          s.identityArcs.get? key = some list ∨
            (s.registry.get key.1).isSome = true ∧ key.2 = arc ∧
              list = (s.identityArcs.get? key).getD [] := by
        intro key list hk
        rw [ArcTable.get?_foldl_orDefault (fun id => (id, arc))] at hk
        split at hk
        · next hmem =>
            obtain ⟨id, hid, rfl⟩ := List.mem_map.mp hmem
            obtain ⟨record, hrecord⟩ := (Registry.mem_ids _).mp hid
            exact .inr ⟨by rw [hrecord]; rfl, rfl, (Option.some.inj hk).symm⟩
        · exact .inl hk
      constructor
      · exact h.main
      · intro arc' info' hk
        have hk : (s.arcs.insert arc info).get? arc' = some info' := hk
        rw [KeyedMap.get?_insert_eq_update] at hk
        by_cases ha : arc' = arc
        · rw [ha, Function.update_self] at hk
          exact Option.some.inj hk ▸ hinfo
        · rw [Function.update_of_ne ha] at hk
          exact h.infos arc' info' hk
      · exact fun key list hk => (hget key list hk).elim (h.registered key list) (·.1)
      · intro key list hk
        rcases hget key list hk with hk | ⟨_, harc', _⟩
        · exact harcs _ (h.known key list hk)
        · show ((s.arcs.insert arc info).get? key.2).isSome = true
          rw [harc', KeyedMap.get?_insert_self, Option.isSome_some]
      · intro key list hb hk
        rcases hget key list hk with hk | ⟨_, _, rfl⟩
        · exact h.lists key list hb hk
        · exact ListOk.getD fun list => h.lists key list hb

lemma onApplyArcAdd_wellFormed (h : WellFormed s) {arc : ArcId}
    {peerMainId : Except Error IdentityId} (hf : Fits s (.applyArcAdd arc peerMainId)) :
    WellFormed (s.onApplyArcAdd arc peerMainId).state := by
  unfold onApplyArcAdd
  cases peerMainId with
  | error e => exact (h.mono (by simp)).removeArc
  | ok peerId =>
      cases harc : s.arcs.get? arc with
      | none => exact h
      | some info =>
          have hknown : (s.arcs.get? arc).isSome = true := by rw [harc]; rfl
          refine h.setList h.main hknown (fun hb => ?_) (ArcTable.get?_push _ _ _)
          exact (ListOk.getD fun list => h.lists _ list hb).snoc (hf hknown) (h.infos arc info harc)

lemma onPrepareMigration_wellFormed (h : WellFormed s) (migrationId : MigrationId)
    (oldId : IdentityId) : WellFormed (s.onPrepareMigration migrationId oldId).state := by
  unfold onPrepareMigration
  split
  · exact h
  · split
    · exact h
    · exact ⟨h.main, h.infos, h.registered, h.known, h.lists⟩

lemma onMigrate_wellFormed (h : WellFormed s) {d : Draw} (hd : d.Allowed s)
    (migrationId : MigrationId) (oldId : IdentityId) (devices : Devices) :
    WellFormed (s.onMigrate d migrationId oldId devices).state := by
  unfold onMigrate
  split
  · exact h
  · exact h
  · next pending oldRecord _ hold =>
      have hfork := Registry.fork_get hold hd.2
      have hnew : ((forkIdentity s.registry oldRecord oldId d.newId).get d.newId).isSome = true := by
        rw [hfork]
        by_cases hno : d.newId = oldId
        · rw [← hno, Function.update_self, Option.isSome_some]
        · rw [Function.update_of_ne hno, Function.update_self, Option.isSome_some]
      have hreg : ∀ id, (s.registry.get id).isSome = true →
          ((forkIdentity s.registry oldRecord oldId d.newId).get id).isSome = true := by
        intro id hid
        by_cases hin : id = d.newId
        · exact hin ▸ hnew
        · rw [hfork]
          by_cases hio : id = oldId
          · rw [hio, Function.update_self, Option.isSome_some]
          · rwa [Function.update_of_ne hio, Function.update_of_ne hin]
      -- the new identity gets an entry for every arc
      have hget : ∀ key list, (((d.order.arrange s.arcs.entries).foldl
          (fun m entry => ArcTable.orDefault m (d.newId, entry.1)) s.identityArcs).get? key)
          = some list → s.identityArcs.get? key = some list ∨
            (key.1 = d.newId ∧ (s.arcs.get? key.2).isSome = true ∧
              list = (s.identityArcs.get? key).getD []) := by
        intro key list hk
        rw [ArcTable.get?_foldl_orDefault (fun entry : ArcId × ArcInfo => (d.newId, entry.1))] at hk
        split at hk
        · next hmem =>
            obtain ⟨entry, hentry, rfl⟩ := List.mem_map.mp hmem
            have hmem := KeyedMap.mem_entries_iff.mp ((d.order.perm _).mem_iff.mp hentry)
            exact .inr ⟨rfl, by rw [hmem]; rfl, (Option.some.inj hk).symm⟩
        · exact .inl hk
      constructor
      · rw [Registry.fork_mainId]
        split
        · exact hnew
        · exact hreg _ h.main
      · exact h.infos
      · intro key list hk
        rcases hget key list hk with hk | ⟨hid, _, _⟩
        · exact hreg _ (h.registered key list hk)
        · exact hid ▸ hnew
      · exact fun key list hk => (hget key list hk).elim (h.known key list) (·.2.1)
      · intro key list hb hk
        rcases hget key list hk with hk | ⟨_, _, rfl⟩
        · exact h.lists key list hb hk
        · exact ListOk.getD fun list => h.lists key list hb

lemma onApplyMigrationDuplication_wellFormed (h : WellFormed s) {migrationId : MigrationId}
    {oldId newId : IdentityId} {outcomes : List ArcDuplicationOutcome}
    (hp : Proper (.applyMigrationDuplication migrationId oldId newId outcomes))
    (hf : Fits s (.applyMigrationDuplication migrationId oldId newId outcomes)) :
    WellFormed (s.onApplyMigrationDuplication oldId newId outcomes).state := by
  unfold onApplyMigrationDuplication
  cases hnew : s.registry.get newId with
  | none => exact h
  | some record =>
      have hreg : (s.registry.get newId).isSome = true := by rw [hnew]; rfl
      have hmem : ∀ o ∈ outcomes.filter (fun o => s.arcs.contains o.arc),
          o ∈ outcomes ∧ (s.arcs.get? o.arc).isSome = true := by
        intro o ho
        rw [List.mem_filter] at ho
        exact ho
      refine WellFormedBut.removeArcs _ ((h.mono (by simp)).applyOutcomes hp.1 hreg
        (fun o ho => (hmem o ho).2) ?_ (fun o ho => hp.2.2 o (hmem o ho).1) fun o ho hb => ?_)
      · exact hp.2.1.sublist (List.filter_sublist.map _)
      · refine hf hreg o (hmem o ho).1 (hmem o ho).2 ?_
        rw [← Bool.not_eq_true]
        exact fun hbroken => hb (List.mem_map_of_mem (List.mem_filter.mpr ⟨ho, hbroken⟩))

lemma onNeighbourMigrated_wellFormed (h : WellFormed s) (myId oldId newId : IdentityId)
    {mac linklocal : String} (arc : ArcId) (hmac : mac ≠ "") (hlinklocal : linklocal ≠ "") :
    WellFormed (s.onNeighbourMigrated myId oldId newId mac linklocal arc) := by
  unfold onNeighbourMigrated
  split
  · exact h
  · next list hlist =>
      split
      · exact h
      · next hany =>
          split
          · exact h
          · split
            · exact h
            · next w0 hw0 =>
                have hok := h.lists _ list (by simp) hlist
                refine h.setList (h.registered _ _ hlist) (h.known _ _ hlist) (fun _ => ?_)
                  (KeyedMap.get?_insert_eq_update _ _ _)
                refine (hok.readdress oldId hmac hlinklocal).snoc ?_
                  (hok.addressed w0 (List.mem_of_find?_eq_some hw0))
                rw [ArcTable.map_peerId_readdress]
                intro hmem
                obtain ⟨w, hw, hpeer⟩ := List.mem_map.mp hmem
                exact hany (List.any_eq_true.mpr ⟨w, hw, decide_eq_true hpeer⟩)

lemma onNotifyIdentityArcRemoved_wellFormed (h : WellFormed s) (myId peerId : IdentityId)
    (arc : ArcId) : WellFormed (s.onNotifyIdentityArcRemoved myId peerId arc) := by
  unfold onNotifyIdentityArcRemoved
  split
  · exact h
  · next list hlist =>
      exact h.setList (h.registered _ _ hlist) (h.known _ _ hlist)
        (fun hb => (h.lists _ list hb hlist).eraseP _) (KeyedMap.get?_insert_eq_update _ _ _)

lemma get?_dismissIdentity (d : Draw) (s : State) (id : IdentityId) (key : IdentityId × ArcId) :
    (s.dismissIdentity d id).1.identityArcs.get? key
      = if key.1 = id ∧ (s.arcs.get? key.2).isSome = true then none
        else s.identityArcs.get? key := by
  have hmem : key ∈ ((d.order.arrange s.arcs.entries).map Prod.fst).map (fun arc => (id, arc)) ↔
      key.1 = id ∧ (s.arcs.get? key.2).isSome = true := by
    rw [List.mem_map]
    constructor
    · rintro ⟨arc, harc, rfl⟩
      obtain ⟨entry, hentry, rfl⟩ := List.mem_map.mp harc
      rw [KeyedMap.mem_entries_iff.mp ((d.order.perm _).mem_iff.mp hentry)]
      exact ⟨rfl, rfl⟩
    · rintro ⟨rfl, hsome⟩
      obtain ⟨info, hinfo⟩ := Option.isSome_iff_exists.mp hsome
      exact ⟨key.2, List.mem_map.mpr ⟨(key.2, info),
        (d.order.perm _).mem_iff.mpr (KeyedMap.mem_entries_iff.mpr hinfo), rfl⟩, rfl⟩
  refine (KeyedMap.get?_foldl_erase (fun arc => (id, arc)) _ s.identityArcs key).trans ?_
  by_cases hc : key.1 = id ∧ (s.arcs.get? key.2).isSome = true
  · rw [if_pos hc, if_pos (hmem.mpr hc)]
  · rw [if_neg hc, if_neg fun h => hc (hmem.mp h)]

lemma dismissIdentity_wellFormed (h : WellFormed s) (d : Draw) (id : IdentityId) :
    WellFormed (s.dismissIdentity d id).1 := by
  refine h.restrict _ _ s.pendingMigrations ?_ fun key list hk => ?_
  · rw [Registry.dismiss_mainId, Registry.dismiss_get_of_ne _ (.inr rfl)]
    exact h.main
  · have hk := (get?_dismissIdentity d s id key).symm.trans hk
    split at hk
    · cases hk
    · next hne =>
        have hid : key.1 ≠ id := fun heq => hne ⟨heq, h.known key list hk⟩
        rw [Registry.dismiss_get_of_ne _ (.inl hid)]
        exact ⟨hk, h.registered key list hk⟩

lemma onRemoveIdentity_wellFormed (h : WellFormed s) (d : Draw) (id : IdentityId) :
    WellFormed (s.onRemoveIdentity d id).state := by
  unfold onRemoveIdentity
  split
  · exact h
  · split
    · exact h
    · exact dismissIdentity_wellFormed h d id

lemma revertFork_wellFormed (h : WellFormed s) (newRecord : IdentityRecord)
    {oldId newId : IdentityId} (hold : (s.registry.get oldId).isSome = true) :
    WellFormed (s.revertFork newRecord oldId newId) := by
  have hget : ∀ id, (((if s.registry.mainId = newId then s.registry.reassignMain oldId
      else s.registry).setStatus oldId newRecord.status).1.get id).isSome
      = (s.registry.get id).isSome := by
    intro id
    rw [Registry.setStatus, Registry.update_isSome]
    split <;> rfl
  refine h.restrict _ s.identityArcs _ ?_ fun key list hk => ⟨hk, ?_⟩
  · rw [hget, Registry.setStatus_mainId]
    split
    · exact hold
    · exact h.main
  · rw [hget]
    exact h.registered key list hk

lemma onAbortMigration_wellFormed (h : WellFormed s) (d : Draw) (oldId newId : IdentityId) :
    WellFormed (s.onAbortMigration d oldId newId).state := by
  unfold onAbortMigration
  split
  · exact h
  · exact h
  · next hold =>
      exact dismissIdentity_wellFormed (revertFork_wellFormed h _ (by rw [hold]; rfl)) d newId

/-- **One command keeps the table well formed**, if what it brings along is proper and, for a late
result, what it finds fits. -/
theorem handle_wellFormed (h : WellFormed s) {d : Draw} (hd : d.Allowed s) {cmd : Cmd}
    (hp : Proper cmd) (hf : Fits s cmd) : WellFormed (s.handle d cmd).state := by
  cases cmd with
  | addArc arc info => exact onAddArc_wellFormed h hp
  | applyArcAdd arc peerMainId => exact onApplyArcAdd_wellFormed h hf
  | removeArc arc => exact (h.mono (by simp)).removeArc
  | prepareMigration migrationId oldId => exact onPrepareMigration_wellFormed h migrationId oldId
  | migrate migrationId oldId devices => exact onMigrate_wellFormed h hd migrationId oldId devices
  | applyMigrationDuplication migrationId oldId newId outcomes =>
      exact onApplyMigrationDuplication_wellFormed h hp hf
  | cleanupMigration migrationId oldId =>
      exact ⟨h.main, h.infos, h.registered, h.known, h.lists⟩
  | removeIdentity id => exact onRemoveIdentity_wellFormed h d id
  | abortMigration oldId newId => exact onAbortMigration_wellFormed h d oldId newId
  | setNaddr id naddr =>
      refine h.restrict (s.registry.setNaddr id naddr).1 s.identityArcs s.pendingMigrations ?_
        fun key list hk => ⟨hk, ?_⟩
      · rw [Registry.setNaddr_mainId, Registry.setNaddr, Registry.update_isSome]
        exact h.main
      · rw [Registry.setNaddr, Registry.update_isSome]
        exact h.registered key list hk
  | neighbourMigrated myId oldId newId mac linklocal arc =>
      exact onNeighbourMigrated_wellFormed h myId oldId newId arc hp.1 hp.2
  | notifyIdentityArcRemoved myId peerId arc =>
      exact onNotifyIdentityArcRemoved_wellFormed h myId peerId arc

end State

/-! ## Runs -/

/-- An answer whose addresses, if it is a duplication's, are not empty. -/
def AnswerAddressed (result : CallResult) : Prop :=
  ∀ data, result = .ok (.duplicationData data) → data.Addressed

/-- The addresses that reach the node are not empty; each command is executed in a state `C` holds
of it in. -/
def addressedRules (C : State → Cmd → Prop) : Node.Rules where
  issued := Proper
  answers := AnswerAddressed
  executed := C

/-- Whatever the peers answer, a task ends with a proper command. -/
lemma State.handle_spawned {d : Draw} (hd : d.Allowed s) (cmd : Cmd) :
    ∀ task ∈ (s.handle d cmd).spawned, task.Sends AnswerAddressed Proper := by
  have hnone : ∀ task ∈ ([] : List Process), task.Sends AnswerAddressed Proper := by simp
  have hdismiss : ∀ (s : State) (id : IdentityId),
      ∀ task ∈ [(s.dismissIdentity d id).2], task.Sends AnswerAddressed Proper := by
    intro s id task hmem
    rw [List.mem_singleton] at hmem
    exact hmem ▸ sends_notifyPeersArcRemoved _ _ _
  cases cmd with
  | addArc arc info =>
      show ∀ task ∈ (s.onAddArc arc info).spawned, _
      unfold State.onAddArc
      split
      · exact hnone
      · intro task hmem
        rw [List.mem_singleton] at hmem
        exact hmem ▸ sends_resolvePeerMainId fun _ _ => trivial
  | applyArcAdd arc peerMainId =>
      show ∀ task ∈ (s.onApplyArcAdd arc peerMainId).spawned, _
      unfold State.onApplyArcAdd
      split
      · split <;> exact hnone
      · exact hnone
  | prepareMigration migrationId oldId =>
      show ∀ task ∈ (s.onPrepareMigration migrationId oldId).spawned, _
      unfold State.onPrepareMigration
      split
      · exact hnone
      · split <;> exact hnone
  | migrate migrationId oldId devices =>
      show ∀ task ∈ (s.onMigrate d migrationId oldId devices).spawned, _
      unfold State.onMigrate
      split
      · exact hnone
      · exact hnone
      · next oldRecord _ hold =>
          intro task hmem
          rw [List.mem_singleton] at hmem
          refine hmem ▸ sends_runMigrationDuplication (fun data h => h data rfl) _ _ _ (by simp)
            fun outcomes hout hmap => ⟨?_, ?_, hout⟩
          · intro heq
            have hnew := hd.2
            rw [← heq, hold] at hnew
            cases hnew
          · -- the arcs asked about are some of those the node knows, each once
            have hsub : ((State.perArc (d.order.arrange s.arcs.entries) s.identityArcs oldId).map
                Prod.fst).Sublist ((d.order.arrange s.arcs.entries).map Prod.fst) := by
              unfold State.perArc
              induction d.order.arrange s.arcs.entries with
              | nil => exact List.Sublist.refl _
              | cons entry entries ih =>
                  rw [List.filterMap_cons]
                  split
                  · exact ih.cons _
                  · next b hb =>
                      have hfst : b.1 = entry.1 := by
                        split at hb
                        · exact Option.some.inj hb ▸ rfl
                        · cases hb
                      rw [List.map_cons, List.map_cons, hfst]
                      exact ih.cons_cons _
            rw [hmap, List.map_nil, List.nil_append]
            exact (((d.order.perm _).map Prod.fst).nodup_iff.mpr s.arcs.nodup).sublist hsub
  | applyMigrationDuplication migrationId oldId newId outcomes =>
      show ∀ task ∈ (s.onApplyMigrationDuplication oldId newId outcomes).spawned, _
      unfold State.onApplyMigrationDuplication
      split <;> exact hnone
  | removeIdentity id =>
      show ∀ task ∈ (s.onRemoveIdentity d id).spawned, _
      unfold State.onRemoveIdentity
      split
      · exact hnone
      · split
        · exact hnone
        · exact hdismiss s id
  | abortMigration oldId newId =>
      show ∀ task ∈ (s.onAbortMigration d oldId newId).spawned, _
      unfold State.onAbortMigration
      split
      · exact hnone
      · exact hnone
      · exact hdismiss _ newId
  | removeArc arc => exact hnone
  | cleanupMigration migrationId oldId => exact hnone
  | setNaddr id naddr => exact hnone
  | neighbourMigrated myId oldId newId mac linklocal arc => exact hnone
  | notifyIdentityArcRemoved myId peerId arc => exact hnone

/-- What a run keeps: the table, and that whatever is still under way is proper. -/
structure NodeOk (n : Node) : Prop where
  table : WellFormed n.state
  tasks : ∀ task ∈ n.tasks, task.Sends AnswerAddressed Proper
  inbox : ∀ cmd ∈ n.inbox, Proper cmd

lemma NodeOk.step {n n' : Node} (h : NodeOk n) (hstep : Node.Step (addressedRules Fits) n n') :
    NodeOk n' := by
  cases hstep with
  | issue s ts q cmd hext hissued =>
      refine ⟨h.table, h.tasks, fun cmd' hmem => ?_⟩
      rcases Multiset.mem_cons.mp hmem with rfl | hmem
      · exact hissued
      · exact h.inbox cmd' hmem
  | execute s ts q cmd d hd hexec =>
      refine ⟨State.handle_wellFormed h.table hd (h.inbox cmd (Multiset.mem_cons_self _ _)) hexec, ?_,
        fun cmd' hmem => h.inbox cmd' (Multiset.mem_cons_of_mem hmem)⟩
      intro task hmem
      rcases Multiset.mem_add.mp hmem with hmem | hmem
      · exact h.tasks task hmem
      · exact State.handle_spawned hd cmd task hmem
  | answer s ts q arc method resume result hanswer =>
      refine ⟨h.table, fun task hmem => ?_, h.inbox⟩
      rcases Multiset.mem_cons.mp hmem with rfl | hmem
      · exact h.tasks _ (Multiset.mem_cons_self _ _) result hanswer
      · exact h.tasks task (Multiset.mem_cons_of_mem hmem)
  | send s ts q cmd =>
      refine ⟨h.table, fun task hmem => h.tasks task (Multiset.mem_cons_of_mem hmem),
        fun cmd' hmem => ?_⟩
      rcases Multiset.mem_cons.mp hmem with rfl | hmem
      · exact h.tasks _ (Multiset.mem_cons_self _ _)
      · exact h.inbox cmd' hmem
  | finish s ts q =>
      exact ⟨h.table, fun task hmem => h.tasks task (Multiset.mem_cons_of_mem hmem), h.inbox⟩

lemma nodeOk_of_run {n : Node} (h : Node.Run (addressedRules Fits) n) : NodeOk n := by
  induction h with
  | spawn mainId initialNaddr =>
      exact ⟨wellFormed_spawn mainId initialNaddr, by simp [Node.spawn], by simp [Node.spawn]⟩
  | step _ hstep ih => exact ih.step hstep

/-- **The identity-arc table stays well formed** in every run whose late results find what they
fit: each key names a registered identity and a known arc, the peers of one list are distinct and
every identity-arc carries both addresses. -/
theorem wellFormed_of_run {n : Node} (h : Node.Run (addressedRules Fits) n) :
    WellFormed n.state :=
  (nodeOk_of_run h).table

/-! ## Results that come too late -/

/-- The arc of the runs below. -/
def lateArc : ArcInfo := ⟨"eth0", "02:00:00:00:00:09", "fe80::9"⟩

/-- Identity 1 with an identity-arc to 9 over arc 5. -/
def linked : State :=
  (((State.spawn 1 none).handle (.of 2) (.addArc 5 lateArc)).state.handle (.of 2)
    (.applyArcAdd 5 (.ok 9))).state

lemma linked_run {C : State → Cmd → Prop} (hadd : ∀ s arc info, C s (.addArc arc info))
    (hfirst : ∀ s peerId, peers s.identityArcs (s.registry.mainId, 5) = [] →
      C s (.applyArcAdd 5 (.ok peerId))) :
    Node.Run (addressedRules C) ⟨linked, 0, 0⟩ := by
  have hspawn : Node.Run (addressedRules C) ⟨State.spawn 1 none, 0, 0⟩ := .spawn 1 none
  have hadded : Node.Run (addressedRules C) ⟨_, resolvePeerMainId 5 ::ₘ 0, 0⟩ :=
    hspawn.command (.addArc 5 lateArc) trivial ⟨by decide, by decide⟩ (.of 2) ⟨by decide, rfl⟩
      (hadd _ _ _)
  exact (hadded.step (.answer _ 0 0 5 .getPeerMainId _ (.ok (.identityId 9)) nofun)).result
    (.of 2) ⟨by decide, rfl⟩ (hfirst _ 9 rfl)

/-- The table once the arc is resolved. -/
theorem wellFormed_of_run_linked : WellFormed linked :=
  wellFormed_of_run (linked_run (fun _ _ _ => trivial) fun _ _ h _ => by rw [h]; simp)

/-- Arc 5 added, removed and added again, both calls answered after that. -/
def resolvedTwice : State :=
  (((((State.spawn 1 none).handle (.of 2) (.addArc 5 lateArc)).state.handle (.of 2)
    (.removeArc 5)).state.handle (.of 2) (.addArc 5 lateArc)).state.handle (.of 2)
      (.applyArcAdd 5 (.ok 9))).state.handle (.of 2) (.applyArcAdd 5 (.ok 9)) |>.state

/-- Identity 1 forked into 2 while the peer dismisses the identity the fork asks about. -/
def duplicatedLate : State :=
  ((((linked.handle (.of 2) (.prepareMigration 7 1)).state.handle (.of 2)
    (.migrate 7 1 (KeyedMap.empty.insert "eth0" ⟨"02:00:00:00:00:01", "fe80::1"⟩))).state.handle
      (.of 3) (.notifyIdentityArcRemoved 1 9 5)).state.handle (.of 3)
        (.applyMigrationDuplication 7 1 2 [⟨5, false, [⟨9, none⟩]⟩])).state

/-- A late result of `add_arc` repeats a peer, and a late duplication adds an identity-arc without
addresses. -/
theorem not_wellFormed_late_results :
    (∃ n, Node.Run (addressedRules fun _ _ => True) n ∧ ∃ key list,
      n.state.identityArcs.get? key = some list ∧ ¬(list.map (·.peerId)).Nodup) ∧
    ∃ n, Node.Run (addressedRules fun _ _ => True) n ∧ ∃ key list,
      n.state.identityArcs.get? key = some list ∧ ∃ ia ∈ list, ¬ia.Addressed := by
  constructor
  · have hspawn : Node.Run (addressedRules fun _ _ => True) ⟨State.spawn 1 none, 0, 0⟩ :=
      .spawn 1 none
    have hadded : Node.Run (addressedRules fun _ _ => True)
        ⟨_, resolvePeerMainId 5 ::ₘ resolvePeerMainId 5 ::ₘ 0, 0⟩ :=
      ((hspawn.command (.addArc 5 lateArc) trivial ⟨by decide, by decide⟩ (.of 2)
        ⟨by decide, rfl⟩ trivial).command (.removeArc 5) trivial trivial (.of 2)
          ⟨by decide, rfl⟩ trivial).command (.addArc 5 lateArc) trivial ⟨by decide, by decide⟩
            (.of 2) ⟨by decide, rfl⟩ trivial
    have hfirst : Node.Run (addressedRules fun _ _ => True) ⟨_, resolvePeerMainId 5 ::ₘ 0, 0⟩ :=
      (hadded.step (.answer _ (resolvePeerMainId 5 ::ₘ 0) 0 5 .getPeerMainId _
        (.ok (.identityId 9)) nofun)).result (.of 2) ⟨by decide, rfl⟩ trivial
    have hsecond : Node.Run (addressedRules fun _ _ => True) ⟨resolvedTwice, 0, 0⟩ :=
      (hfirst.step (.answer _ 0 0 5 .getPeerMainId _ (.ok (.identityId 9)) nofun)).result (.of 2)
        ⟨by decide, rfl⟩ trivial
    exact ⟨_, hsecond, (1, 5), _, rfl, by decide +kernel⟩
  · have hlinked : Node.Run (addressedRules fun _ _ => True) ⟨linked, 0, 0⟩ :=
      linked_run (fun _ _ _ => trivial) fun _ _ _ => trivial
    have hforked : Node.Run (addressedRules fun _ _ => True)
        ⟨_, runMigrationDuplication 7 1 2
          (KeyedMap.empty.insert "eth0" ⟨"02:00:00:00:00:01", "fe80::1"⟩)
          [(5, lateArc, [⟨9, "02:00:00:00:00:09", "fe80::9"⟩])] [] ::ₘ 0, 0⟩ :=
      ((hlinked.command (.prepareMigration 7 1) trivial trivial (.of 2) ⟨by decide, rfl⟩
        trivial).command
          (.migrate 7 1 (KeyedMap.empty.insert "eth0" ⟨"02:00:00:00:00:01", "fe80::1"⟩)) trivial
            trivial (.of 2) ⟨by decide, rfl⟩ trivial).command (.notifyIdentityArcRemoved 1 9 5)
              trivial trivial (.of 3) ⟨by decide, rfl⟩ trivial
    have happlied : Node.Run (addressedRules fun _ _ => True) ⟨duplicatedLate, 0, 0⟩ :=
      (hforked.step (.answer _ 0 0 5 _ _ (.ok .empty) nofun)).result (.of 3) ⟨by decide, rfl⟩
        trivial
    exact ⟨_, happlied, (2, 5), _, rfl, ⟨9, "", ""⟩, by decide +kernel, fun h => h.1 rfl⟩

end Netsukuku.Identities
