import Mathlib
import Netsukuku.Neighborhood.Actor
import Netsukuku.Neighborhood.Consistency

/-!
# The published cost of a link

A monitor smooths what it measures and reports each smoothed value; the manager publishes it only
when it leaves the band around the cost published last.  Between two reports the manager handles
anything else.

* `damped`, `Exact` — a smoothing step over the integers, and that the 64-bit one is the same.
* `smoothedAfter`, `Monitors` — what a monitor has made of its measurements, and the managers that
  have heard of it.
* `published_follows` — the published cost stays within a factor of two of the smoothed value, and
  the smoothed value gets to a sample that stays.
-/

namespace Netsukuku.Neighborhood

open Manager

/-! ## The smoothing step -/

/-- How far a step goes for a difference, over the integers. -/
def damped (delta : ℤ) : ℤ :=
  if delta = 0 then 0
  else if 0 < delta then max (delta.tdiv 10) 1
  else min (delta.tdiv 3) (-1)

/-- Towards the sample, at least by one, and not past it. -/
lemma damped_spec (delta : ℤ) :
    (delta = 0 → damped delta = 0) ∧ (0 < delta → 0 < damped delta ∧ damped delta ≤ delta) ∧
      (delta < 0 → damped delta < 0 ∧ delta ≤ damped delta) := by
  unfold damped
  refine ⟨fun h => by simp [h], fun h => ?_, fun h => ?_⟩
  · rw [if_neg (by omega), if_pos h]
    have hdiv := Int.tdiv_eq_ediv_of_nonneg (b := 10) h.le
    omega
  · rw [if_neg (by omega), if_neg (by omega)]
    have hdiv : delta.tdiv 3 = -(-delta / 3) := by
      rw [← Int.tdiv_eq_ediv_of_nonneg (by omega), Int.neg_tdiv, neg_neg]
    omega

/-- Nothing overflows in the step: every signed value is the integer it stands for. -/
structure Exact (last sample : UInt64) : Prop where
  toInt_last : last.toInt64.toInt = last.toNat
  toInt_sample : sample.toInt64.toInt = sample.toNat
  toInt_delta : (sample.toInt64 - last.toInt64).toInt = (sample.toNat : ℤ) - last.toNat
  next : ((emaStep last sample).toNat : ℤ) = last.toNat + damped (sample.toNat - last.toNat)

lemma toInt_toInt64 {v : UInt64} (h : v.toNat < 2 ^ 63) : v.toInt64.toInt = v.toNat := by
  rw [← Int64.toInt_toBitVec, UInt64.toBitVec_toInt64, BitVec.toInt_eq_toNat_of_lt]
  · rfl
  · rw [UInt64.toNat_toBitVec]
    omega

/-- The value of the signed difference `emaStep` adds. -/
lemma toInt_damped (delta : Int64) :
    (if delta = 0 then 0
      else if delta > 0 then (if delta / 10 < 1 then 1 else delta / 10)
      else (if delta / 3 > -1 then -1 else delta / 3) : Int64).toInt = damped delta.toInt := by
  have hten := Int64.toInt_div_of_ne_right delta 10 (by decide)
  have hthree := Int64.toInt_div_of_ne_right delta 3 (by decide)
  rw [show (10 : Int64).toInt = 10 from rfl] at hten
  rw [show (3 : Int64).toInt = 3 from rfl] at hthree
  have hzero : delta = 0 ↔ delta.toInt = 0 := by
    rw [← Int64.toInt_inj]
    rfl
  simp only [gt_iff_lt, Int64.lt_iff_toInt_lt, apply_ite Int64.toInt, hten, hthree, hzero,
    show (0 : Int64).toInt = 0 from rfl, show (1 : Int64).toInt = 1 from rfl,
    show (-1 : Int64).toInt = -1 from rfl]
  unfold damped
  split_ifs <;> omega

/-- **Below `2 ^ 62` a smoothing step is exact.** -/
lemma exact_of_lt {last sample : UInt64} (hlast : last.toNat < 2 ^ 62)
    (hsample : sample.toNat < 2 ^ 62) : Exact last sample := by
  have htoLast := toInt_toInt64 (v := last) (by omega)
  have htoSample := toInt_toInt64 (v := sample) (by omega)
  have hdelta : (sample.toInt64 - last.toInt64).toInt = (sample.toNat : ℤ) - last.toNat := by
    rw [Int64.toInt_sub, htoLast, htoSample, Int.bmod_eq_of_le] <;> omega
  refine ⟨htoLast, htoSample, hdelta, ?_⟩
  have hdamped := toInt_damped (sample.toInt64 - last.toInt64)
  obtain ⟨hsame, hup, hdown⟩ := damped_spec ((sample.toNat : ℤ) - last.toNat)
  unfold emaStep
  dsimp only
  set step : Int64 := ite (sample.toInt64 - last.toInt64 = 0) _ _
  rw [hdelta] at hdamped
  have hnext : (last.toInt64 + step).toInt
      = last.toNat + damped ((sample.toNat : ℤ) - last.toNat) := by
    rw [Int64.toInt_add, hdamped, htoLast, Int.bmod_eq_of_le] <;> omega
  have hpos : (0 : Int64) ≤ last.toInt64 + step := by
    rw [Int64.le_iff_toInt_le, hnext, Int64.toInt_zero]
    omega
  rw [if_neg (Int64.not_lt.mpr hpos), Int64.toNat_toUInt64_of_le hpos, ← Int64.toNat_toInt, hnext]
  omega

/-! ## The monitor -/

/-- The smoothed value after some measurements. -/
def smoothedAfter (measured : List (Option UInt64)) : Option UInt64 :=
  measured.foldl (fun smoothed m => (monitored smoothed m).1) none

lemma smoothedAfter_append (measured : List (Option UInt64)) (m : Option UInt64) :
    smoothedAfter (measured ++ [m]) = (monitored (smoothedAfter measured) m).1 :=
  List.foldl_append

/-- The values between the least and the greatest sample. -/
def Between (measured : List (Option UInt64)) (v : UInt64) : Prop :=
  ∃ low high, some low ∈ measured ∧ some high ∈ measured ∧ low ≤ v ∧ v ≤ high

lemma Between.append {measured : List (Option UInt64)} {v : UInt64} (h : Between measured v)
    (m : Option UInt64) : Between (measured ++ [m]) v := by
  obtain ⟨low, high, hlow, hhigh, hle, hge⟩ := h
  exact ⟨low, high, List.mem_append_left _ hlow, List.mem_append_left _ hhigh, hle, hge⟩

/-- A step from a value between samples towards another one. -/
lemma Between.emaStep {measured : List (Option UInt64)} {last sample : UInt64}
    (h : Between measured last) (hexact : Exact last sample) :
    Between (measured ++ [some sample]) (emaStep last sample) := by
  obtain ⟨low, high, hlow, hhigh, hle, hge⟩ := h
  obtain ⟨hsame, hup, hdown⟩ := damped_spec ((sample.toNat : ℤ) - last.toNat)
  have hnext := hexact.next
  have hsample : some sample ∈ measured ++ [some sample] := by simp
  rw [UInt64.le_iff_toNat_le] at hle hge
  rcases le_total sample.toNat last.toNat with hfall | hrise
  · refine ⟨sample, high, hsample, List.mem_append_left _ hhigh, ?_, ?_⟩ <;>
      rw [UInt64.le_iff_toNat_le] <;> omega
  · refine ⟨low, sample, List.mem_append_left _ hlow, hsample, ?_, ?_⟩ <;>
      rw [UInt64.le_iff_toNat_le] <;> omega

/-- Every sample is below `2 ^ 62`. -/
def Small (measured : List (Option UInt64)) : Prop :=
  ∀ rtt, some rtt ∈ measured → rtt.toNat < 2 ^ 62

lemma Between.lt {measured : List (Option UInt64)} {v : UInt64} (h : Between measured v)
    (hsmall : Small measured) : v.toNat < 2 ^ 62 := by
  obtain ⟨low, high, -, hhigh, -, hge⟩ := h
  exact (UInt64.le_iff_toNat_le.mp hge).trans_lt (hsmall high hhigh)

/-- **The smoothed value is between the samples.** -/
lemma between_of_smoothedAfter {measured : List (Option UInt64)} (hsmall : Small measured)
    {v : UInt64} (h : smoothedAfter measured = some v) : Between measured v := by
  induction measured using List.reverseRecOn generalizing v with
  | nil => cases h
  | append_singleton measured m ih =>
      have hbefore : Small measured := fun rtt hmem => hsmall rtt (List.mem_append_left _ hmem)
      rw [smoothedAfter_append] at h
      cases m with
      | none => exact (ih hbefore h).append none
      | some rtt =>
          cases hlast : smoothedAfter measured with
          | none =>
              rw [hlast] at h
              obtain rfl := Option.some.inj h
              exact ⟨rtt, rtt, by simp, by simp, UInt64.le_refl rtt, UInt64.le_refl rtt⟩
          | some last =>
              rw [hlast] at h
              cases h
              have hlt := (ih hbefore hlast).lt hbefore
              exact (ih hbefore hlast).emaStep (exact_of_lt hlt (hsmall rtt (by simp)))

/-- How many more samples a smoothed value may need to get to `r`. -/
def gap (r : UInt64) : Option UInt64 → ℕ
  | none => 1
  | some v => ((r.toNat : ℤ) - v.toNat).natAbs

lemma eq_of_gap_eq_zero {r : UInt64} {smoothed : Option UInt64} (h : gap r smoothed = 0) :
    smoothed = some r := by
  cases smoothed with
  | none => cases h
  | some v =>
      rw [gap, Int.natAbs_eq_zero] at h
      rw [UInt64.toNat_inj.mp (show v.toNat = r.toNat by omega)]

/-- A sample brings the smoothed value nearer. -/
lemma gap_monitored_lt {r : UInt64} {smoothed : Option UInt64} (hr : r.toNat < 2 ^ 62)
    (hlt : ∀ v, smoothed = some v → v.toNat < 2 ^ 62) :
    gap r (monitored smoothed (some r)).1 ≤ gap r smoothed - 1 := by
  cases smoothed with
  | none => simp [monitored, gap]
  | some v =>
      have hnext := (exact_of_lt (hlt v rfl) hr).next
      obtain ⟨hsame, hup, hdown⟩ := damped_spec ((r.toNat : ℤ) - v.toNat)
      simp only [monitored, gap]
      omega

/-- **A sample that stays is reached.** -/
lemma gap_le_of_tail {r : UInt64} {measured : List (Option UInt64)} (hsmall : Small measured)
    (hr : r.toNat < 2 ^ 62) {tail : List (Option UInt64)}
    (htail : ∀ m ∈ tail, m = none ∨ m = some r) :
    gap r (smoothedAfter (measured ++ tail)) ≤
      gap r (smoothedAfter measured) - tail.count (some r) := by
  induction tail using List.reverseRecOn with
  | nil => simp
  | append_singleton tail m ih =>
      have hbefore := ih fun m' hm' => htail m' (List.mem_append_left _ hm')
      have hall : Small (measured ++ tail) := by
        intro rtt hmem
        rcases List.mem_append.mp hmem with hmem | hmem
        · exact hsmall rtt hmem
        · rcases htail (some rtt) (List.mem_append_left _ hmem) with heq | heq
          · cases heq
          · cases heq
            exact hr
      rw [← List.append_assoc, smoothedAfter_append, List.count_append]
      rcases htail m (by simp) with rfl | rfl
      · simpa [monitored] using hbefore
      · have hstep := gap_monitored_lt hr fun v hv => (between_of_smoothedAfter hall hv).lt hall
        rw [List.count_singleton_self]
        omega

/-! ## The gate -/

/-- Equal, or within a factor of two. -/
def Band (published smoothed : UInt64) : Prop :=
  smoothed = published ∨
    published.toNat ≤ 2 * smoothed.toNat ∧ smoothed.toNat < 2 * published.toNat

/-- What does not pass the gate is in the band. -/
lemma band_of_not_exceedsHysteresis {published smoothed : UInt64}
    (h : exceedsHysteresis published smoothed = false) : Band published smoothed := by
  have hinside := of_decide_eq_false h
  rw [not_and_or, not_not, not_or, not_lt, not_le] at hinside
  refine hinside.imp id ?_
  rintro ⟨hlow, hhigh⟩
  unfold saturatingDouble at hlow hhigh
  omega

/-- What the cost of an arc has to do with the smoothed value of its monitor. -/
structure Tracks (e : ArcEntry) (smoothed : Option UInt64) : Prop where
  finite : ∀ cost, e.arc.cost = some cost → ∃ published, cost = .finite published
  band : ∀ v, smoothed = some v → ∃ published, e.arc.cost = some (.finite published) ∧
    Band published v

lemma tracks_of_cost {e : ArcEntry} {smoothed : Option UInt64} {published : UInt64}
    (hcost : e.arc.cost = some (.finite published))
    (hband : ∀ v, smoothed = some v → Band published v) : Tracks e smoothed where
  finite cost h := by
    rw [hcost] at h
    exact ⟨published, (Option.some.inj h).symm⟩
  band v hv := ⟨published, hcost, hband v hv⟩

variable {c : Option Command} {s s' : Manager} {outs : List Output} {tasks : List ArcTask}
  {key : Mac} {e : ArcEntry} {inserted : Token}

/-- What becomes of the arc a report finds. -/
def Heard (key : Mac) (e : ArcEntry) (smoothed : Option UInt64) (r : Ran) : Prop :=
  ∃ e', r.state.arcs.get? key = some e' ∧ e'.inserted = e.inserted ∧ Tracks e' smoothed

lemma heard_pure (hget : s.arcs.get? key = some e) {smoothed : Option UInt64}
    (h : Tracks e smoothed) : Heard key e smoothed (.pure s) := ⟨e, hget, rfl, h⟩

lemma heard_setEntry {e' : ArcEntry} (hinserted : e'.inserted = e.inserted)
    {smoothed : Option UInt64} (h : Tracks e' smoothed) :
    Heard key e smoothed ⟨s.setEntry key e', outs, tasks⟩ :=
  ⟨e', KeyedMap.get?_insert_self _ _ _, hinserted, h⟩

/-- A value that is published only if it passes the gate. -/
lemma heard_republish (hget : s.arcs.get? key = some e) {published : UInt64}
    (hcost : e.arc.cost = some (.finite published)) (v : UInt64) :
    Heard key e (some v) (s.republish key e v) := by
  unfold republish
  rw [hcost]
  dsimp only
  split
  · exact heard_setEntry rfl (tracks_of_cost rfl fun _ hv => .inl (Option.some.inj hv).symm)
  · next hexceeds =>
      refine heard_pure hget (tracks_of_cost hcost fun w hw => ?_)
      obtain rfl := Option.some.inj hw
      exact band_of_not_exceedsHysteresis (Bool.eq_false_of_not_eq_true hexceeds)

/-- **A report leaves the cost in the band of what is reported.** -/
lemma heard_monitorResult (hget : s.arcs.get? key = some e) {smoothed : Option UInt64}
    (h : Tracks e smoothed) (measured : Option UInt64) :
    Heard key e (monitored smoothed measured).1
      (s.handleMonitorResult key (monitored smoothed measured).2) := by
  cases measured with
  | none =>
      simp only [monitored, handleMonitorResult, hget]
      split
      · exact heard_pure hget h
      · next hcost =>
          have hnone : e.arc.cost = none := by simpa using hcost
          -- no cost, so nothing has been measured
          have hsmoothed : smoothed = none := by
            cases smoothed with
            | none => rfl
            | some v =>
                obtain ⟨published, hsome, -⟩ := h.band v rfl
                rw [hnone] at hsome
                cases hsome
          rw [hsmoothed]
          split
          · exact heard_setEntry rfl (tracks_of_cost rfl fun v hv => by cases hv)
          · exact heard_setEntry rfl ⟨h.finite, fun v hv => by cases hv⟩
  | some rtt =>
      cases smoothed with
      | none =>
          simp only [monitored, handleMonitorResult, hget]
          split
          · next hcost =>
              obtain ⟨cost, hsome⟩ := Option.isSome_iff_exists.mp hcost
              obtain ⟨published, rfl⟩ := h.finite cost hsome
              exact heard_republish hget hsome rtt
          · exact heard_setEntry rfl
              (tracks_of_cost rfl fun _ hv => .inl (Option.some.inj hv).symm)
      | some prev =>
          obtain ⟨published, hcost, -⟩ := h.band prev rfl
          simp only [monitored, handleMonitorResult, hget]
          exact heard_republish hget hcost (emaStep prev rtt)

/-! ## Everything else -/

/-- What the cost of an entry was before an edit. -/
inductive CostBefore (c : Option Command) (s : Manager) (key : Mac) (e' : ArcEntry) : Prop
  | new (htokens : s.tokens ≤ e'.inserted) (hcost : e'.arc.cost = none)
  | kept {e : ArcEntry} (hget : s.arcs.get? key = some e) (hinserted : e'.inserted = e.inserted)
      (hcost : e'.arc.cost = e.arc.cost)
  | heard {e : ArcEntry} {outcome : MonitorOutcome} {inserted : Token} (published : UInt64)
      (hget : s.arcs.get? key = some e) (hinserted : e'.inserted = e.inserted)
      (hcost : e'.arc.cost = some (.finite published))
      (hc : c = some (.monitorResult key outcome inserted)) : CostBefore c s key e'

lemma CostBefore.of_get? {e' : ArcEntry} (hget : s.arcs.get? key = some e') :
    CostBefore c s key e' := .kept hget rfl rfl

/-- The entry of one MAC is replaced. -/
lemma CostBefore.of_insert {mac : Mac} {e₂ e' : ArcEntry}
    (hget' : (s.arcs.insert mac e₂).get? key = some e')
    (hsame : mac = key → CostBefore c s key e₂) : CostBefore c s key e' := by
  by_cases hmac : mac = key
  · subst hmac
    rw [KeyedMap.get?_insert_self] at hget'
    obtain rfl := Option.some.inj hget'
    exact hsame rfl
  · rw [KeyedMap.get?_insert_of_ne _ _ (Ne.symm hmac)] at hget'
    exact .of_get? hget'

lemma CostBefore.same {mac : Mac} {e₂ : ArcEntry} (hget : s.arcs.get? mac = some e)
    (hinserted : e₂.inserted = e.inserted) (hcost : e₂.arc.cost = e.arc.cost) (hmac : mac = key) :
    CostBefore c s key e₂ := by
  subst hmac
  exact .kept hget hinserted hcost

/-- **Only a report changes a cost.** -/
lemma Edit.costBefore (h : Edit c s outs tasks s') {e' : ArcEntry}
    (hget' : s'.arcs.get? key = some e') : CostBefore c s key e' := by
  cases h with
  | pin hget _ => exact .of_insert hget' (CostBefore.same hget rfl rfl)
  | insert i verified _ _ _ _ _ => exact .of_insert hget' fun _ => .new le_rfl rfl
  | @remove mac _ _ _ =>
      have hne : key ≠ mac := by
        rintro rfl
        rw [KeyedMap.get?_erase_self] at hget'
        cases hget'
      exact .of_get? ((KeyedMap.get?_erase_of_ne _ hne).symm.trans hget')
  | negotiate hget _ =>
      rw [negotiateArc_state hget] at hget'
      exact .of_insert hget' (CostBefore.same hget rfl rfl)
  | giveUp _ hget _ => exact .of_insert hget' (CostBefore.same hget rfl rfl)
  | establish hget hstate hnic _ =>
      rw [exportArc_state hget hstate hnic] at hget'
      exact .of_insert hget' (CostBefore.same hget rfl rfl)
  | countNoRtt _ hget _ _ => exact .of_insert hget' (CostBefore.same hget rfl rfl)
  | announce noRtt cost hc hget _ =>
      refine .of_insert hget' fun hmac => ?_
      subst hmac
      exact .heard cost hget rfl rfl hc
  | republish cost hc hget _ =>
      refine .of_insert hget' fun hmac => ?_
      subst hmac
      exact .heard cost hget rfl rfl hc
  | _ => exact .of_get? hget'

/-- Every cost is finite. -/
def Finite (s : Manager) : Prop := ∀ key e, s.arcs.get? key = some e → Tracks e none

lemma Path.finite (h : Path c s outs tasks s') (hs : Finite s) : Finite s' := by
  induction h with
  | refl => exact hs
  | tail _ edit ih =>
      intro key e' hget'
      refine ⟨fun cost hsome => ?_, fun v hv => by cases hv⟩
      cases edit.costBefore hget' with
      | new _ hcost =>
          rw [hcost] at hsome
          cases hsome
      | kept hget _ hcost => exact (ih _ _ hget).finite cost (hcost ▸ hsome)
      | heard published _ _ hcost _ =>
          rw [hcost] at hsome
          exact ⟨published, (Option.some.inj hsome).symm⟩

lemma Run.finite {myId : NodeId} {maxArcs : ℕ} {requireAuth : Bool} {log : List Output}
    (run : Run myId maxArcs requireAuth s log) : Finite s := by
  induction run with
  | spawn => exact fun key e hget => by cases hget
  | command _ i cmd ih => exact (handle_path i _ cmd).finite ih
  | shutdown _ i ih => exact (shutdown_follows (c := none) i _).finite ih

/-- Without a report the cost of an arc stays. -/
lemma Path.cost_eq (h : Path c s outs tasks s')
    (hother : ∀ outcome inserted, c ≠ some (.monitorResult key outcome inserted)) {e' : ArcEntry}
    (hget' : s'.arcs.get? key = some e') :
    s.tokens ≤ e'.inserted ∨
      ∃ e, s.arcs.get? key = some e ∧ e'.inserted = e.inserted ∧ e'.arc.cost = e.arc.cost := by
  induction h generalizing e' with
  | refl => exact .inr ⟨e', hget', rfl, rfl⟩
  | tail path edit ih =>
      cases edit.costBefore hget' with
      | new htokens _ => exact .inl (path.tokens_le.trans htokens)
      | @kept e hget hinserted hcost =>
          rcases ih hget with hle | ⟨e₀, hget₀, hinserted₀, hcost₀⟩
          · exact .inl (hinserted ▸ hle)
          · exact .inr ⟨e₀, hget₀, hinserted.trans hinserted₀, hcost.trans hcost₀⟩
      | heard _ _ _ _ hc => exact absurd hc (hother _ _)

/-! ## The reports of one monitor -/

/-- The managers that have handled the reports on `measured`, in order, of a monitor of the arc
inserted with `inserted`, and any commands but reports of others under its MAC.  An arc whose
neighbour does not answer is removed. -/
inductive Monitors (myId : NodeId) (maxArcs : ℕ) (requireAuth : Bool) (key : Mac)
    (inserted : Token) : List (Option UInt64) → Manager → Prop
  | start {s : Manager} {log : List Output} {e : ArcEntry}
      (run : Run myId maxArcs requireAuth s log) (hget : s.arcs.get? key = some e)
      (hinserted : e.inserted = inserted) : Monitors myId maxArcs requireAuth key inserted [] s
  | report {measured : List (Option UInt64)} {s : Manager}
      (monitors : Monitors myId maxArcs requireAuth key inserted measured s) (i : Input)
      (m : Option UInt64) :
      Monitors myId maxArcs requireAuth key inserted (measured ++ [m])
        (s.handle i
          (.monitorResult key (monitored (smoothedAfter measured) m).2 inserted)).1.state
  | other {measured : List (Option UInt64)} {s : Manager}
      (monitors : Monitors myId maxArcs requireAuth key inserted measured s) (i : Input)
      (cmd : Command)
      (hother : ∀ outcome inserted', cmd ≠ .monitorResult key outcome inserted') :
      Monitors myId maxArcs requireAuth key inserted measured (s.handle i cmd).1.state
  | failed {measured : List (Option UInt64)} {s : Manager}
      (monitors : Monitors myId maxArcs requireAuth key inserted measured s) (i : Input)
      (inserted' : Token) :
      Monitors myId maxArcs requireAuth key inserted measured
        (s.handle i (.monitorResult key .nopFailed inserted')).1.state

/-- What holds of the managers that have heard of a monitor. -/
structure Watched (s : Manager) (key : Mac) (inserted : Token) (smoothed : Option UInt64) :
    Prop where
  dated : Dated s
  old : inserted < s.tokens
  tracks : ∀ e, s.arcs.get? key = some e → e.inserted = inserted → Tracks e smoothed

lemma Watched.path {smoothed : Option UInt64} (h : Watched s key inserted smoothed)
    (path : Path c s outs tasks s')
    (htracks : ∀ e, s'.arcs.get? key = some e → e.inserted = inserted → Tracks e smoothed) :
    Watched s' key inserted smoothed :=
  ⟨path.dated h.dated, h.old.trans_le path.tokens_le, htracks⟩

lemma Watched.other {smoothed : Option UInt64} (h : Watched s key inserted smoothed)
    (path : Path c s outs tasks s')
    (hother : ∀ outcome inserted', c ≠ some (.monitorResult key outcome inserted')) :
    Watched s' key inserted smoothed := by
  refine h.path path fun e' hget' hinserted => ?_
  rcases path.cost_eq hother hget' with hle | ⟨e, hget, hsame, hcost⟩
  · exact absurd (hinserted ▸ hle) (not_le.mpr h.old)
  · obtain ⟨hfinite, hband⟩ := h.tracks e hget (hsame.symm.trans hinserted)
    exact ⟨hcost ▸ hfinite, hcost ▸ hband⟩

lemma Watched.report {smoothed : Option UInt64} (h : Watched s key inserted smoothed) (i : Input)
    (m : Option UInt64) :
    Watched (s.handle i (.monitorResult key (monitored smoothed m).2 inserted)).1.state key
      inserted (monitored smoothed m).1 := by
  have path := handle_path i s (.monitorResult key (monitored smoothed m).2 inserted)
  refine ⟨path.dated h.dated, h.old.trans_le path.tokens_le, fun e' hget' hinserted => ?_⟩
  rcases path.before hget' with hle | ⟨e, hget, hbecomes⟩
  · exact absurd (hinserted ▸ hle) (not_le.mpr h.old)
  · obtain ⟨e₂, hget₂, -, htracks⟩ := heard_monitorResult hget
      (h.tracks e hget (hbecomes.inserted.symm.trans hinserted)) m
    obtain rfl := Option.some.inj (hget₂.symm.trans hget')
    exact htracks

/-- **Each report, and everything else, keeps the cost near the smoothed value.** -/
lemma Monitors.watched {myId : NodeId} {maxArcs : ℕ} {requireAuth : Bool}
    {measured : List (Option UInt64)}
    (h : Monitors myId maxArcs requireAuth key inserted measured s) :
    Watched s key inserted (smoothedAfter measured) := by
  induction h with
  | start run hget hinserted =>
      exact ⟨run.dated, hinserted ▸ run.dated _ _ hget, fun e hget' _ => run.finite _ e hget'⟩
  | report _ i m ih =>
      rw [smoothedAfter_append]
      exact ih.report i m
  | other _ i cmd hother ih =>
      exact ih.other (handle_path i _ cmd) fun outcome inserted' heq =>
        hother outcome inserted' (Option.some.inj heq)
  | @failed _ s _ i inserted' ih =>
      refine ih.path (handle_path i _ _) fun e hget _ => ?_
      change (s.removeMyArc key false).state.arcs.get? key = some e at hget
      unfold removeMyArc at hget
      split at hget
      · next hnone =>
          rw [Ran.pure, hnone] at hget
          cases hget
      · rw [KeyedMap.get?_erase_self] at hget
        cases hget

/-- **The published cost follows the link.** -/
theorem published_follows {myId : NodeId} {maxArcs : ℕ} {requireAuth : Bool} {key : Mac}
    {inserted : Token} {measured : List (Option UInt64)} {s : Manager}
    (h : Monitors myId maxArcs requireAuth key inserted measured s) (hsmall : Small measured) :
    (∀ e v published, s.arcs.get? key = some e → e.inserted = inserted →
      smoothedAfter measured = some v → e.arc.cost = some (.finite published) →
        Band published v) ∧
    (∀ v, smoothedAfter measured = some v → Between measured v) ∧
    (∀ before rtt last, before ++ [some rtt] <+: measured → smoothedAfter before = some last →
      Exact last rtt) ∧
    ∀ r : UInt64, r.toNat < 2 ^ 62 → ∃ n, ∀ tail, (∀ m ∈ tail, m = none ∨ m = some r) →
      n ≤ tail.count (some r) → smoothedAfter (measured ++ tail) = some r ∧
        ∀ s' e, Monitors myId maxArcs requireAuth key inserted (measured ++ tail) s' →
          s'.arcs.get? key = some e → e.inserted = inserted →
            ∃ published, e.arc.cost = some (.finite published) ∧ Band published r := by
  refine ⟨fun e v published hget hinserted hv hcost => ?_,
    fun v => between_of_smoothedAfter hsmall, fun before rtt last hinit hlast => ?_,
    fun r hr => ⟨gap r (smoothedAfter measured), fun tail htail hcount => ?_⟩⟩
  · obtain ⟨published', hcost', hband⟩ := (h.watched.tracks e hget hinserted).band v hv
    rw [hcost] at hcost'
    cases hcost'
    exact hband
  · have hbefore : Small (before ++ [some rtt]) :=
      fun rtt' hmem => hsmall rtt' (hinit.subset hmem)
    have hpast : Small before := fun rtt' hmem => hbefore rtt' (List.mem_append_left _ hmem)
    exact exact_of_lt ((between_of_smoothedAfter hpast hlast).lt hpast) (hbefore rtt (by simp))
  · have hgap := gap_le_of_tail hsmall hr htail
    have hreached : smoothedAfter (measured ++ tail) = some r := eq_of_gap_eq_zero (by omega)
    refine ⟨hreached, fun s' e h' hget hinserted => ?_⟩
    exact (h'.watched.tracks e hget hinserted).band r hreached

/-- The arc with the one neighbour found, and its monitor's first reports: 1 ms, nothing, 5 ms. -/
lemma monitors_neighbour :
    ∃ s, Monitors ourId 1 false "02:00:00:00:00:02" 1 [some 1000, none, some 5000] s := by
  have spawned : Run ourId 1 false _ _ := .spawn
  have found := (spawned.command (.at 0) (.startMonitor eth0)).command (.at 0)
    (.hereIAm "eth0" theirId "02:00:00:00:00:02" "169.254.0.2" none)
  have monitors : Monitors ourId 1 false "02:00:00:00:00:02" 1 [] _ := .start found rfl rfl
  exact ⟨_, ((monitors.report (.at 0) (some 1000)).report (.at 0) none).report (.at 0) (some 5000)⟩

/-- Between two measurements, and with a step that does not wrap. -/
theorem published_follows_neighbour :
    Between [some 1000, none, some 5000] 1400 ∧ Exact 1000 5000 := by
  obtain ⟨s, monitors⟩ := monitors_neighbour
  obtain ⟨-, hbetween, hexact, -⟩ := published_follows monitors (by unfold Small; simp)
  exact ⟨hbetween 1400 rfl, hexact [some 1000, none] 5000 1000 (List.prefix_refl _) rfl⟩

end Netsukuku.Neighborhood
