import Mathlib
import Netsukuku.Identities.Dismissal
import Netsukuku.Identities.Matched
import Netsukuku.Identities.Unmatched

/-!
# What the two tables say in the end

* `final_matched`, `final_alone`, `informed_lists` — the tables at the end of a handshake.
* `duplication_agreement` — they always agree on the ids, and the peer is always told of a side
  that migrates alone if the pseudo-device's addresses are not too long.  When both sides migrate,
  the address recorded for a new identity is the pseudo-device's, so that the tables agree only
  where that is the address the device had before.
-/

namespace Netsukuku.Identities

variable {ν : Type}

namespace Party

variable {migrationId : MigrationId} {p q : Party ν}

/-! ## The tables -/

lemma newId_ne (h : Linked migrationId p q) (hm : p.CanMigrate) : p.newId ≠ p.id := by
  intro heq
  have hnew : p.init.registry.get p.newId = none := hm.fresh.2
  rw [heq] at hnew
  have hreg := h.registered
  rw [hnew] at hreg
  cases hreg

lemma migrated_table (h : Linked migrationId p q) (hm : p.CanMigrate) :
    (p.migrated migrationId).identityArcs
      = ArcTable.orDefault p.init.identityArcs (p.newId, p.arc) := by
  obtain ⟨_, _, heq⟩ := migrated_eq h hm
  rw [migrated, heq]

/-- What the old identity's list becomes. -/
def oldList (q : Party ν) (dupData : Option DuplicationData) : List IdentityArc :=
  (⟨q.id, dupData⟩ : IdentityArcDuplication).readdressed [⟨q.id, q.mac, q.linklocal⟩]

/-- What the new identity gets. -/
def newArc (q : Party ν) (dupData : Option DuplicationData) : IdentityArc :=
  (⟨q.id, dupData⟩ : IdentityArcDuplication).added (some (q.oldList dupData))

/-- The table of a side that has applied what its call came back with. -/
lemma final_lists (h : Linked migrationId p q) (hm : p.CanMigrate)
    (dupData : Option DuplicationData) (key : IdentityId × ArcId) :
    ((p.final migrationId q dupData).identityArcs.get? key).getD []
      = if key = (p.newId, p.arc) then [q.newArc dupData]
        else if key = (p.id, p.arc) then q.oldList dupData else [] := by
  have hne := newId_ne h hm
  have hkey : (p.id, p.arc) ≠ (p.newId, p.arc) := fun heq => hne (congrArg Prod.fst heq).symm
  have hold : (p.migrated migrationId).identityArcs.get? (p.id, p.arc)
      = some [⟨q.id, q.mac, q.linklocal⟩] := by
    rw [migrated_table h hm, ArcTable.get?_orDefault, if_neg hkey, h.linked]
  have hother : ∀ key, key ≠ (p.id, p.arc) →
      ((p.migrated migrationId).identityArcs.get? key).getD [] = [] := by
    intro key hk
    rw [migrated_table h hm, ArcTable.getD_orDefault]
    exact h.others key hk
  show ((State.applyDuplication p.id p.newId p.arc (p.migrated migrationId).identityArcs
    ⟨q.id, dupData⟩).get? key).getD [] = _
  rw [State.get?_applyDuplication hne.symm, hold, hother _ hkey.symm]
  by_cases hn : key = (p.newId, p.arc)
  · rw [if_pos hn, hn, Function.update_self]
    rfl
  · rw [if_neg hn, Function.update_of_ne hn]
    by_cases ho : key = (p.id, p.arc)
    · rw [if_pos ho, ho, Function.update_self]
      rfl
    · rw [if_neg ho, Function.update_of_ne ho]
      exact hother key ho

/-- Both sides have migrated: the peer's pseudo-device on either identity-arc. -/
lemma final_matched (h : Linked migrationId p q) (hm : p.CanMigrate) (key : IdentityId × ArcId) :
    ((p.final migrationId q (some q.answer)).identityArcs.get? key).getD []
      = if key = (p.newId, p.arc) then [⟨q.newId, q.dev.oldIdNewMac, q.dev.oldIdNewLinklocal⟩]
        else if key = (p.id, p.arc) then [⟨q.id, q.dev.oldIdNewMac, q.dev.oldIdNewLinklocal⟩]
        else [] := by
  have hold : q.oldList (some q.answer) = [⟨q.id, q.dev.oldIdNewMac, q.dev.oldIdNewLinklocal⟩] := by
    simp [oldList, IdentityArcDuplication.readdressed, ArcTable.readdress, answer]
  have hnew : q.newArc (some q.answer)
      = ⟨q.newId, q.dev.oldIdNewMac, q.dev.oldIdNewLinklocal⟩ := by
    rw [newArc, hold]
    simp [IdentityArcDuplication.added, IdentityArcDuplication.newPeer, ArcTable.findPeer, answer]
  rw [final_lists h hm, hold, hnew]

/-- One side has migrated alone: the peer's original addresses on either identity-arc. -/
lemma final_alone (h : Linked migrationId p q) (hm : p.CanMigrate) (key : IdentityId × ArcId) :
    ((p.final migrationId q none).identityArcs.get? key).getD []
      = if key = (p.newId, p.arc) then [⟨q.id, q.mac, q.linklocal⟩]
        else if key = (p.id, p.arc) then [⟨q.id, q.mac, q.linklocal⟩] else [] := by
  have hnew : q.newArc none = ⟨q.id, q.mac, q.linklocal⟩ := by
    simp [newArc, oldList, IdentityArcDuplication.added, IdentityArcDuplication.newPeer,
      IdentityArcDuplication.readdressed, ArcTable.findPeer]
  rw [final_lists h hm, hnew]
  rfl

/-- The pseudo-device's addresses are short enough for a peer to note. -/
def ShortAddresses (p : Party ν) : Prop :=
  p.dev.oldIdNewMac.utf8ByteSize ≤ maxPeerStringLen ∧
    p.dev.oldIdNewLinklocal.utf8ByteSize ≤ maxPeerStringLen

instance (p : Party ν) : Decidable p.ShortAddresses := inferInstanceAs (Decidable (_ ∧ _))

/-- The peer of a side that has migrated alone, once it has noted it or declined to. -/
lemma informed_lists (h : Linked migrationId p q) (h' : Linked migrationId q p)
    (hm : p.CanMigrate) (key : IdentityId × ArcId) :
    ((p.informed q).identityArcs.get? key).getD []
      = if key = (q.id, q.arc) then
          (if p.ShortAddresses then
            [⟨p.id, p.dev.oldIdNewMac, p.dev.oldIdNewLinklocal⟩, ⟨p.newId, p.mac, p.linklocal⟩]
          else [⟨p.id, p.mac, p.linklocal⟩])
        else [] := by
  have hne := newId_ne h hm
  have hany : ([⟨p.id, p.mac, p.linklocal⟩] : List IdentityArc).any (·.peerId = p.newId) = false := by
    simp [hne.symm]
  have hfind : ArcTable.findPeer p.id [⟨p.id, p.mac, p.linklocal⟩]
      = some ⟨p.id, p.mac, p.linklocal⟩ := by
    simp [ArcTable.findPeer]
  unfold informed State.onNeighbourMigrated
  rw [h'.linked]
  dsimp only
  rw [hany, hfind]
  by_cases hshort : p.ShortAddresses
  · rw [if_neg Bool.false_ne_true, if_neg (by unfold ShortAddresses at hshort; omega),
      if_pos hshort]
    dsimp only
    rw [KeyedMap.get?_insert_eq_update]
    by_cases hk : key = (q.id, q.arc)
    · rw [if_pos hk, hk, Function.update_self]
      simp [ArcTable.readdress]
    · rw [if_neg hk, Function.update_of_ne hk]
      exact h'.others key hk
  · rw [if_neg Bool.false_ne_true, if_pos (by unfold ShortAddresses at hshort; omega),
      if_neg hshort]
    by_cases hk : key = (q.id, q.arc)
    · rw [if_pos hk, hk, h'.linked]
      rfl
    · rw [if_neg hk]
      exact h'.others key hk

/-! ## Agreement -/

/-- An identity and a peer in one of two lists of one identity-arc each. -/
private lemma mem_pair {sp : State} {arc : ArcId} {x y a b c d : IdentityId}
    {ia ib : IdentityArc} (hia : ia.peerId = c) (hib : ib.peerId = d)
    (hlists : ∀ key, (sp.identityArcs.get? key).getD []
      = if key = (b, arc) then [ib] else if key = (a, arc) then [ia] else []) (hne : b ≠ a) :
    y ∈ peers sp.identityArcs (x, arc) ↔ (x = b ∧ y = d) ∨ (x = a ∧ y = c) := by
  unfold peers
  rw [hlists]
  by_cases hb : x = b
  · subst hb
    simp [hib, hne]
  · by_cases ha : x = a
    · subst ha
      simp [hia, Ne.symm hne]
    · simp [ha, hb]

private lemma nodup_pair {sp : State} {arc : ArcId} {x a b : IdentityId} {ia ib : IdentityArc}
    (hlists : ∀ key, (sp.identityArcs.get? key).getD []
      = if key = (b, arc) then [ib] else if key = (a, arc) then [ia] else []) :
    (peers sp.identityArcs (x, arc)).Nodup := by
  unfold peers
  rw [hlists]
  split
  · simp
  · split <;> simp

/-- The pseudo-device has the addresses the device had before. -/
def KeepsAddresses (p : Party ν) : Prop :=
  p.dev.oldIdNewMac = p.mac ∧ p.dev.oldIdNewLinklocal = p.linklocal

instance (p : Party ν) : Decidable p.KeepsAddresses := inferInstanceAs (Decidable (_ ∧ _))

/-- When both sides have migrated the tables agree exactly where each pseudo-device has the
addresses the device had before. -/
theorem agreement_matched_iff (h : Linked migrationId p q) (h' : Linked migrationId q p)
    (hm : p.CanMigrate) (hm' : q.CanMigrate) :
    Agreement p q true true (p.final migrationId q (some q.answer))
        (q.final migrationId p (some p.answer)) ↔ p.KeepsAddresses ∧ q.KeepsAddresses := by
  have hp := final_matched h hm
  have hq := final_matched h' hm'
  have hnp := newId_ne h hm
  have hnq := newId_ne h' hm'
  constructor
  · intro ha
    have hmem : (⟨q.newId, q.dev.oldIdNewMac, q.dev.oldIdNewLinklocal⟩ : IdentityArc)
        ∈ ((p.final migrationId q (some q.answer)).identityArcs.get? (p.newId, p.arc)).getD [] := by
      rw [hp, if_pos rfl]
      exact List.mem_singleton_self _
    have hmem' : (⟨p.newId, p.dev.oldIdNewMac, p.dev.oldIdNewLinklocal⟩ : IdentityArc)
        ∈ ((q.final migrationId p (some p.answer)).identityArcs.get? (q.newId, q.arc)).getD [] := by
      rw [hq, if_pos rfl]
      exact List.mem_singleton_self _
    have hnew := ha.addressed p.newId _ hmem
    have hnew' := ha.addressed' q.newId _ hmem'
    rw [addresses, if_neg fun hc => hnq hc.2, Prod.mk.injEq] at hnew
    rw [addresses, if_neg fun hc => hnp hc.2, Prod.mk.injEq] at hnew'
    exact ⟨hnew', hnew⟩
  · rintro ⟨⟨hpm, hpl⟩, hqm, hql⟩
    have haddresses : ∀ r : Party ν, r.dev.oldIdNewMac = r.mac →
        r.dev.oldIdNewLinklocal = r.linklocal → ∀ id, r.addresses true id = (r.mac, r.linklocal) := by
      intro r hrm hrl id
      unfold addresses
      rw [hrm, hrl, ite_self]
    refine ⟨fun x y => ?_, fun x => nodup_pair hp, fun y => nodup_pair hq, fun x ia hia => ?_,
      fun y ia hia => ?_⟩
    · rw [mem_pair rfl rfl hp hnp, mem_pair rfl rfl hq hnq]
      tauto
    · rw [haddresses q hqm hql, Prod.mk.injEq]
      rw [hp] at hia
      split at hia
      · rw [List.mem_singleton.mp hia]
        exact ⟨hqm, hql⟩
      · split at hia
        · rw [List.mem_singleton.mp hia]
          exact ⟨hqm, hql⟩
        · cases hia
    · rw [haddresses p hpm hpl, Prod.mk.injEq]
      rw [hq] at hia
      split at hia
      · rw [List.mem_singleton.mp hia]
        exact ⟨hpm, hpl⟩
      · split at hia
        · rw [List.mem_singleton.mp hia]
          exact ⟨hpm, hpl⟩
        · cases hia

/-- When one side has migrated alone the tables agree exactly where its pseudo-device's addresses
are short enough for the peer to note. -/
theorem agreement_alone_iff (h : Linked migrationId p q) (h' : Linked migrationId q p)
    (hm : p.CanMigrate) :
    Agreement p q true false (p.final migrationId q none) (p.informed q) ↔ p.ShortAddresses := by
  have hp := final_alone h hm
  have hq := informed_lists h h' hm
  have hnp := newId_ne h hm
  constructor
  · intro ha
    by_contra hshort
    -- the new identity's identity-arc is not there on the other side
    have hmem := (ha.paired p.newId q.id).mp ((mem_pair rfl rfl hp hnp).mpr (.inl ⟨rfl, rfl⟩))
    unfold peers at hmem
    rw [hq, if_pos rfl, if_neg hshort, List.map_singleton, List.mem_singleton] at hmem
    exact hnp hmem
  · intro hshort
    rw [if_pos hshort] at hq
    refine ⟨fun x y => ?_, fun x => nodup_pair hp, fun y => ?_, fun x ia hia => ?_,
      fun y ia hia => ?_⟩
    · rw [mem_pair rfl rfl hp hnp]
      unfold peers
      rw [hq]
      by_cases hy : y = q.id
      · subst hy
        simp
        tauto
      · simp [hy]
    · unfold peers
      rw [hq]
      split
      · simpa using hnp.symm
      · exact List.nodup_nil
    · rw [hp] at hia
      unfold addresses
      split at hia
      · rw [List.mem_singleton.mp hia]
        simp
      · split at hia
        · rw [List.mem_singleton.mp hia]
          simp
        · cases hia
    · rw [hq] at hia
      split at hia
      · rcases List.mem_cons.mp hia with rfl | hia
        · simp [addresses]
        · rw [List.mem_singleton.mp hia]
          simp [addresses, hnp]
      · cases hia

end Party

/-! ## Every handshake -/

open Party in
/-- **The duplication handshake.**  Let a network be at rest in which `p` and `q` hold an
identity-arc each way, and let `p` prepare and migrate, alone or with `q`.  At the end of every
interleaving the two tables agree if and only if, when `p` migrates alone, the addresses of its
pseudo-device are short enough to be noted; and, when both migrate, both pseudo-devices have the
addresses their devices had before. -/
theorem duplication_agreement [DecidableEq ν] {links : Links ν} {migrationId : MigrationId}
    {p q : Party ν} (S : Sharing links migrationId p q) (hm : p.CanMigrate) {net : Network ν}
    (hrest : Session.AtRest p q net) :
    (∀ w, Relation.ReflTransGen (Session.Step links) (loneSession migrationId p net) w → w.Over →
      (Agreement p q true false (w.net.state p.node) (w.net.state q.node) ↔
        p.ShortAddresses)) ∧
    (q.CanMigrate → ∀ w,
      Relation.ReflTransGen (Session.Step links) (bothSession migrationId p q net) w → w.Over →
      (Agreement p q true true (w.net.state p.node) (w.net.state q.node) ↔
        p.KeepsAddresses ∧ q.KeepsAddresses)) := by
  refine ⟨fun w hrun hover => ?_, fun hm' w hrun hover => ?_⟩
  · obtain ⟨hp, hq⟩ := lone_over S hm hrest hrun hover
    rw [hp, hq]
    exact agreement_alone_iff S.linked S.linked' hm
  · obtain ⟨hp, hq⟩ := matched_over ⟨S, hm, hm'⟩ hrest hrun hover
    rw [hp, hq]
    exact agreement_matched_iff S.linked S.linked' hm hm'

/-! ## Two nodes -/

/-- Identity 9 with an identity-arc to 1 over arc 6. -/
def linkedBack : State :=
  (((State.spawn 9 none).handle (.of 2) (.addArc 6 ⟨"eth0", "02:00:00:00:00:01", "fe80::1"⟩)).state
    |>.handle (.of 2) (.applyArcAdd 6 (.ok 1))).state

/-- The node that forks 1 into 2. -/
def forking : Party Bool where
  node := false
  arc := 5
  info := lateArc
  id := 1
  mac := "02:00:00:00:00:01"
  linklocal := "fe80::1"
  init := linked
  draw := .of 2
  devices := KeyedMap.empty.insert "eth0" ⟨"02:00:00:00:00:0a", "fe80::a"⟩
  dev := ⟨"02:00:00:00:00:0a", "fe80::a"⟩

/-- Its neighbour, which forks 9 into 10. -/
def neighbour : Party Bool where
  node := true
  arc := 6
  info := ⟨"eth0", "02:00:00:00:00:01", "fe80::1"⟩
  id := 9
  mac := "02:00:00:00:00:09"
  linklocal := "fe80::9"
  init := linkedBack
  draw := .of 10
  devices := KeyedMap.empty.insert "eth0" ⟨"02:00:00:00:00:0b", "fe80::b"⟩
  dev := ⟨"02:00:00:00:00:0b", "fe80::b"⟩

/-- The two at rest. -/
def resting : Network Bool := ⟨fun n => bif n then linkedBack else linked, 0, 0, 0⟩

lemma others_of_singleton {m : ArcTable} {key : IdentityId × ArcId} {ia : List IdentityArc}
    (hm : m.entries = [(key, ia)]) : ∀ key', key' ≠ key → (m.get? key').getD [] = [] := by
  intro key' hne
  cases hget : m.get? key' with
  | none => rfl
  | some list =>
      rw [← KeyedMap.mem_entries_iff, hm, List.mem_singleton, Prod.mk.injEq] at hget
      exact absurd hget.1 hne

lemma forking_canMigrate : forking.CanMigrate := ⟨⟨by decide, rfl⟩, rfl⟩

lemma neighbour_canMigrate : neighbour.CanMigrate := ⟨⟨by decide, rfl⟩, rfl⟩

lemma both_forking : Party.BothMigrate twoNodes 7 forking neighbour where
  distinct := by decide
  link := (rfl : twoNodes.peer false 5 = some (true, 6))
  linked := ⟨rfl, rfl, rfl, rfl, others_of_singleton rfl⟩
  linked' := ⟨rfl, rfl, rfl, rfl, others_of_singleton rfl⟩
  migrates := forking_canMigrate
  migrates' := neighbour_canMigrate

lemma resting_atRest : Session.AtRest forking neighbour resting := ⟨rfl, rfl, rfl, rfl, rfl⟩

open Network in
/-- The commands and the calls of a fork of 1 alone, one after the other. -/
lemma lone_completes : ∃ w,
    Relation.ReflTransGen (Session.Step twoNodes) (Party.loneSession 7 forking resting) w ∧
      w.Over := by
  refine ⟨_, ((((((((Relation.ReflTransGen.single
    (@Session.Step.prepare _ _ _ _ _ _ _ 0 rfl forking_canMigrate.fresh)).tail
    (@Session.Step.migrate _ _ _ _ _ _ _ 0 rfl rfl ⟨by decide, rfl⟩)).tail
    (.move (@Move.dial _ _ _ _ _ _ _ _ _ _ 0 rfl rfl))).tail
    (.move (@Move.lookup _ _ _ _ _ _ _ _ _ _ 0 rfl))).tail
    (.move (@Move.queue _ _ _ _ _ _ _ _ _ 0 rfl))).tail
    (.move (@Move.execute _ _ _ _ _ _ 0 (.of 3) rfl ⟨by decide, rfl⟩))).tail
    (.move (@Move.reply _ _ _ _ _ _ _ _ 0 rfl))).tail
    (.move (@Move.send _ _ _ _ _ _ 0 rfl))).tail
    (.move (@Move.execute _ _ _ _ _ _ 0 (.of 3) rfl ⟨by decide, rfl⟩)), rfl, rfl, rfl, rfl, rfl⟩

/-- When 1 is forked alone, whose addresses are short, some run comes to its end, and there the
tables agree. -/
theorem duplication_agreement_alone : forking.ShortAddresses ∧ ∃ w,
    Relation.ReflTransGen (Session.Step twoNodes) (Party.loneSession 7 forking resting) w ∧
      w.Over ∧ Agreement forking neighbour true false (w.net.state false) (w.net.state true) := by
  have hshort : forking.ShortAddresses := by decide +kernel
  obtain ⟨w, hrun, hover⟩ := lone_completes
  exact ⟨hshort, w, hrun, hover, ((duplication_agreement both_forking.toSharing forking_canMigrate
    resting_atRest).1 w hrun hover).mpr hshort⟩

/-- When 1 and 9 are forked together, some run comes to its end, and there the tables give for
either new identity the address of the pseudo-device its old identity moved to. -/
theorem not_duplication_agreement : ∃ w,
    Relation.ReflTransGen (Session.Step twoNodes) (Party.bothSession 7 forking neighbour resting) w ∧
    w.Over ∧
    ¬Agreement forking neighbour true true (w.net.state false) (w.net.state true) := by
  obtain ⟨w, hrun, hover⟩ := Party.both_complete both_forking resting_atRest
    ⟨.of 3, by decide, rfl⟩ ⟨.of 3, by decide, rfl⟩
  obtain ⟨hp, hq⟩ := Party.matched_over both_forking resting_atRest hrun hover
  refine ⟨w, hrun, hover, fun ha => ?_⟩
  rw [show w.net.state false = _ from hp, show w.net.state true = _ from hq,
    Party.agreement_matched_iff both_forking.linked both_forking.linked' forking_canMigrate
      neighbour_canMigrate] at ha
  exact absurd ha (by decide +kernel)

end Netsukuku.Identities
