import Mathlib
import Netsukuku.PeerServices.Tuple

/-!
# What the tuple operations compute

The constructors check what the types demand, so a call that returned built the tuple with the
positions it was given; and from a real address every operation returns.  The later modules read
the operations through these lemmas.

* `TupleNode.new_eq_ok`, `TupleGNode.new_eq_ok` — a constructor returns exactly the tuples with the
  given positions.
* `positions_makeTupleNode`, `positions_rebaseTupleNode` — the positions of the result.
* `convertScan_of_agree`, `convertScan_of_parts` — the relation of a tuple to an address, by where
  the two part.
-/

namespace Netsukuku

/-! ## The constructors -/

/-- In range, a list of positions fits in the levels. -/
lemma InRange.length_le {t : Topology} {level : ℕ} {pos : List UInt32} (h : InRange t level pos)
    (hne : pos ≠ []) : level + pos.length ≤ t.levels := by
  have hlen : 0 < pos.length := List.length_pos_of_ne_nil hne
  obtain ⟨g, hg, -⟩ := h (pos.length - 1) _ (List.getElem?_eq_getElem (by omega))
  have hlt : level + (pos.length - 1) < t.gsizes.length := by
    by_contra hge
    rw [Topology.gsize, List.getElem?_eq_none (not_lt.mp hge)] at hg
    cases hg
  have : t.levels = t.gsizes.length := rfl
  omega

lemma InRange.take {t : Topology} {level : ℕ} {pos : List UInt32} (h : InRange t level pos)
    (n : ℕ) : InRange t level (pos.take n) := by
  intro i p hp
  rw [List.getElem?_take] at hp
  split_ifs at hp
  exact h i p hp

lemma InRange.drop {t : Topology} {level : ℕ} {pos : List UInt32} (h : InRange t level pos)
    (n : ℕ) : InRange t (level + n) (pos.drop n) := by
  intro i p hp
  rw [List.getElem?_drop] at hp
  obtain ⟨g, hg, hlt⟩ := h (n + i) p hp
  exact ⟨g, by rw [Nat.add_assoc, hg], hlt⟩

lemma InRange.append {t : Topology} {level : ℕ} {pos above : List UInt32}
    (h : InRange t level pos) (h' : InRange t (level + pos.length) above) :
    InRange t level (pos ++ above) := by
  intro i p hp
  by_cases hi : i < pos.length
  · rw [List.getElem?_append_left hi] at hp
    exact h i p hp
  · rw [List.getElem?_append_right (not_lt.mp hi)] at hp
    obtain ⟨g, hg, hlt⟩ := h' (i - pos.length) p hp
    exact ⟨g, by rw [← hg]; congr 1; omega, hlt⟩

namespace TupleNode

@[ext] lemma ext {x y : TupleNode} (ht : x.topology = y.topology)
    (hp : x.positions = y.positions) : x = y := by
  cases x
  cases y
  cases ht
  cases hp
  rfl

lemma top_le (x : TupleNode) : x.top ≤ x.topology.levels := by
  by_cases hne : x.positions = []
  · simp [top, hne]
  · have := x.inRange.length_le hne
    rw [top]
    omega

/-- The constructor returns exactly the tuple with the given positions. -/
lemma new_eq_ok {t : Topology} {pos : List UInt32} {x : TupleNode} :
    new t pos = .ok x ↔ x.topology = t ∧ x.positions = pos := by
  constructor
  · intro h
    unfold new at h
    split_ifs at h
    · cases h
    · split at h
      · cases h
      · cases h
        exact ⟨rfl, rfl⟩
  · rintro ⟨rfl, rfl⟩
    have hlen : ¬ x.topology.levels < x.positions.length := not_lt.mpr x.top_le
    unfold new
    rw [if_neg hlen]
    split
    next e he =>
      rw [checkPositions_eq_ok.mpr x.inRange] at he
      cases he
    · rfl

end TupleNode

namespace TupleGNode

@[ext] lemma ext {x y : TupleGNode} (ht : x.topology = y.topology) (htop : x.top = y.top)
    (hp : x.positions = y.positions) : x = y := by
  cases x
  cases y
  cases ht
  cases htop
  cases hp
  rfl

lemma level_add_length (x : TupleGNode) : x.level + x.positions.length = x.top :=
  Nat.sub_add_cancel x.length_le

lemma top_le (x : TupleGNode) : x.top ≤ x.topology.levels := by
  rw [← x.level_add_length]
  exact x.inRange.length_le x.nonempty

lemma new_eq_ok {t : Topology} {top : ℕ} {pos : List UInt32} {x : TupleGNode} :
    new t top pos = .ok x ↔ x.topology = t ∧ x.top = top ∧ x.positions = pos := by
  constructor
  · intro h
    unfold new at h
    split_ifs at h
    · cases h
    · cases h
    · cases h
    · split at h
      · cases h
      · cases h
        exact ⟨rfl, rfl, rfl⟩
  · rintro ⟨rfl, rfl, rfl⟩
    unfold new
    rw [dif_neg x.nonempty, if_neg (not_lt.mpr x.top_le), dif_neg (not_lt.mpr x.length_le)]
    split
    next e he =>
      rw [checkPositions_eq_ok.mpr x.inRange] at he
      cases he
    · rfl

end TupleGNode

/-! ## Moving between scopes -/

/-- What rebasing makes of the positions. -/
lemma positions_rebaseTupleNode {myPos : List UInt32} {x y : TupleNode} {newTop : ℕ}
    (h : rebaseTupleNode myPos x newTop = .ok y) :
    y.positions = x.positions ++ (myPos.take newTop).drop x.top := by
  obtain ⟨_, -, h⟩ := Outcome.bind_eq_ok.mp h
  obtain ⟨above, habove, h⟩ := Outcome.bind_eq_ok.mp h
  obtain ⟨-, hpos⟩ := TupleNode.new_eq_ok.mp (Outcome.unwrap_eq_ok.mp h)
  rw [hpos, (Outcome.slice_eq_ok.mp habove).2]

/-- A traversal of indices reads a stretch of the list. -/
lemma mapM_index_eq_ok {l r : List UInt32} {start n : ℕ} :
    ((List.range' start n).mapM (Outcome.index l) : Outcome Empty (List UInt32)) = .ok r ↔
      (n = 0 ∨ start + n ≤ l.length) ∧ r = (l.drop start).take n := by
  induction n generalizing start r with
  | zero => simp [eq_comm]
  | succ n ih =>
      rw [List.range'_succ, List.mapM_cons]
      constructor
      · intro h
        obtain ⟨p, hp, h⟩ := Outcome.bind_eq_ok.mp h
        obtain ⟨r', hr', h⟩ := Outcome.bind_eq_ok.mp h
        cases h
        obtain ⟨hlen, rfl⟩ := ih.mp hr'
        have hget := Outcome.index_eq_ok.mp hp
        obtain ⟨hlt, rfl⟩ := List.getElem?_eq_some_iff.mp hget
        refine ⟨Or.inr (by omega), ?_⟩
        rw [List.drop_eq_getElem_cons hlt, List.take_succ_cons]
      · rintro ⟨hlen, rfl⟩
        have hlt : start < l.length := by omega
        have hrest := (@ih ((l.drop (start + 1)).take n) (start + 1)).mpr ⟨by omega, rfl⟩
        rw [Outcome.index_of_lt hlt, Outcome.ok_bind, hrest, Outcome.ok_bind,
          List.drop_eq_getElem_cons hlt, List.take_succ_cons]
        rfl

/-- What a g-node of mine becomes in a scope. -/
lemma positions_makeTupleNode {t : Topology} {myPos : List UInt32} {h : HCoord} {top : ℕ}
    {x : TupleNode} (hx : makeTupleNode t myPos h top = .ok x) :
    h.level < top ∧
      x.positions = List.replicate h.level 0 ++ h.pos :: (myPos.take top).drop (h.level + 1) := by
  obtain ⟨_, hassert, hx⟩ := Outcome.bind_eq_ok.mp hx
  obtain ⟨above, habove, hx⟩ := Outcome.bind_eq_ok.mp hx
  obtain ⟨-, hpos⟩ := TupleNode.new_eq_ok.mp (Outcome.unwrap_eq_ok.mp hx)
  obtain ⟨-, rfl⟩ := mapM_index_eq_ok.mp habove
  refine ⟨of_decide_eq_true (Outcome.assert_eq_ok.mp hassert), ?_⟩
  rw [hpos, List.drop_take]

lemma top_makeTupleNode {t : Topology} {myPos : List UInt32} {h : HCoord} {top : ℕ}
    {x : TupleNode} (hx : makeTupleNode t myPos h top = .ok x) : x.top = top := by
  obtain ⟨_, hassert, hx⟩ := Outcome.bind_eq_ok.mp hx
  obtain ⟨above, habove, hx⟩ := Outcome.bind_eq_ok.mp hx
  obtain ⟨-, hpos⟩ := TupleNode.new_eq_ok.mp (Outcome.unwrap_eq_ok.mp hx)
  obtain ⟨hlen, rfl⟩ := mapM_index_eq_ok.mp habove
  have hlt : h.level < top := of_decide_eq_true (Outcome.assert_eq_ok.mp hassert)
  rw [TupleNode.top, hpos]
  simp only [List.length_append, List.length_replicate, List.length_cons, List.length_take,
    List.length_drop]
  omega

lemma topology_makeTupleNode {t : Topology} {myPos : List UInt32} {h : HCoord} {top : ℕ}
    {x : TupleNode} (hx : makeTupleNode t myPos h top = .ok x) : x.topology = t := by
  obtain ⟨_, -, hx⟩ := Outcome.bind_eq_ok.mp hx
  obtain ⟨above, -, hx⟩ := Outcome.bind_eq_ok.mp hx
  exact (TupleNode.new_eq_ok.mp (Outcome.unwrap_eq_ok.mp hx)).1

/-- My own tuple is what my address shows in the scope. -/
lemma positions_makeTupleNode_self {t : Topology} {myPos : List UInt32} {p₀ : UInt32} {top : ℕ}
    {x : TupleNode} (hp₀ : myPos[0]? = some p₀)
    (hx : makeTupleNode t myPos ⟨0, p₀⟩ top = .ok x) : x.positions = myPos.take top := by
  obtain ⟨htop, hpos⟩ := positions_makeTupleNode hx
  obtain ⟨hlt, rfl⟩ := List.getElem?_eq_some_iff.mp hp₀
  rw [hpos]
  cases myPos with
  | nil => exact absurd hlt (Nat.not_lt_zero 0)
  | cons p pos =>
      cases top with
      | zero => exact absurd htop (Nat.not_lt_zero _)
      | succ top => rfl

lemma positions_makeTupleGnode {t : Topology} {myPos : List UInt32} {h : HCoord} {top : ℕ}
    {x : TupleGNode} (hx : makeTupleGnode t myPos h top = .ok x) :
    h.level < top ∧ x.top = top ∧ x.positions = h.pos :: (myPos.take top).drop (h.level + 1) := by
  obtain ⟨_, hassert, hx⟩ := Outcome.bind_eq_ok.mp hx
  obtain ⟨above, habove, hx⟩ := Outcome.bind_eq_ok.mp hx
  obtain ⟨-, htop, hpos⟩ := TupleGNode.new_eq_ok.mp (Outcome.unwrap_eq_ok.mp hx)
  obtain ⟨-, rfl⟩ := mapM_index_eq_ok.mp habove
  refine ⟨of_decide_eq_true (Outcome.assert_eq_ok.mp hassert), htop, ?_⟩
  rw [hpos, List.drop_take]

/-! ## When the constructors return -/

/-- The positions of a real address are in range. -/
lemma inRange_of_isReal {n : Naddr} (h : n.IsReal) : InRange n.topology 0 n.positions := by
  intro i p hp
  have hi : i < n.topology.levels := by
    rw [← n.length_positions]
    exact (List.getElem?_eq_some_iff.mp hp).1
  obtain ⟨g, hg⟩ := Topology.exists_gsize hi
  refine ⟨g, by rw [Nat.zero_add]; exact hg, ?_⟩
  have hvirtual := h i hi
  simpa [Naddr.isVirtualAt, Naddr.pos, hp, hg] using hvirtual

/-- A g-node of the map: a position of its level. -/
def HCoord.InRange (t : Topology) (h : HCoord) : Prop :=
  ∃ g, t.gsize h.level = some g ∧ h.pos.toNat < g.toNat

/-- The positions a scan of a level goes through. -/
lemma HCoord.inRange_ofNat {t : Topology} {level q : ℕ} {g : UInt32} (hg : t.gsize level = some g)
    (hq : q < g.toNat) : HCoord.InRange t ⟨level, UInt32.ofNat q⟩ := by
  refine ⟨g, hg, ?_⟩
  show (UInt32.ofNat q).toNat < g.toNat
  rw [UInt32.toNat_ofNat']
  exact (Nat.mod_le _ _).trans_lt hq

lemma inRange_replicate_zero {t : Topology} {n : ℕ} (hn : n ≤ t.levels) :
    InRange t 0 (List.replicate n 0) := by
  intro i p hp
  obtain ⟨hi, rfl⟩ := List.getElem?_eq_some_iff.mp hp
  rw [List.length_replicate] at hi
  obtain ⟨g, hg⟩ := Topology.exists_gsize (lt_of_lt_of_le hi hn)
  refine ⟨g, by rw [Nat.zero_add]; exact hg, ?_⟩
  simpa using t.gsize_pos g (List.mem_of_getElem? hg)

/-- The positions from a g-node of the map up to `top`, above it those of a real address. -/
lemma inRange_cons_above {t : Topology} {myPos : List UInt32} {h : HCoord} {top : ℕ}
    (hreal : InRange t 0 myPos) (hh : h.InRange t) :
    InRange t h.level (h.pos :: (myPos.take top).drop (h.level + 1)) := by
  intro i p hp
  cases i with
  | zero =>
      obtain ⟨g, hg, hlt⟩ := hh
      cases hp
      exact ⟨g, hg, hlt⟩
  | succ i =>
      rw [List.getElem?_cons_succ] at hp
      obtain ⟨g, hg, hlt⟩ := ((hreal.take top).drop (h.level + 1)) i p hp
      exact ⟨g, by rw [← hg]; congr 1; omega, hlt⟩

/-- The levels above `h` up to `top` are there. -/
lemma mapM_index_above {myPos : List UInt32} {level top : ℕ} (hlt : level < top)
    (hle : top ≤ myPos.length) :
    ((List.range' (level + 1) (top - (level + 1))).mapM (Outcome.index myPos) :
      Outcome Empty (List UInt32)) = .ok ((myPos.take top).drop (level + 1)) := by
  refine mapM_index_eq_ok.mpr ⟨Or.inr (by omega), ?_⟩
  rw [List.drop_take]

/-- The same for `make_tuple_node`, which fills the levels below with zeros. -/
lemma makeTupleNode_ok {t : Topology} {myPos : List UInt32} {h : HCoord} {top : ℕ}
    (hreal : InRange t 0 myPos) (hlen : myPos.length = t.levels) (hlt : h.level < top)
    (hle : top ≤ t.levels) (hh : h.InRange t) : ∃ x, makeTupleNode t myPos h top = .ok x := by
  refine ⟨⟨t, List.replicate h.level 0 ++ h.pos :: (myPos.take top).drop (h.level + 1), ?_⟩, ?_⟩
  · refine (inRange_replicate_zero (by omega)).append ?_
    rw [List.length_replicate, Nat.zero_add]
    exact inRange_cons_above hreal hh
  · rw [makeTupleNode, decide_eq_true hlt, Outcome.assert_true, Outcome.ok_bind,
      mapM_index_above hlt (by omega), Outcome.ok_bind]
    exact Outcome.unwrap_eq_ok.mpr (TupleNode.new_eq_ok.mpr ⟨rfl, rfl⟩)

/-! ## The relation to an address -/

/-- The node `n` is in the g-node `h` as seen from `mine`: it has the position of `h` at its level,
and agrees with `mine` above. -/
def InGnode (mine : List UInt32) (h : HCoord) (n : List UInt32) : Prop :=
  n[h.level]? = some h.pos ∧ ∀ l, h.level < l → n[l]? = mine[l]?

/-- The node `n` is in the g-node of the tuple. -/
def TupleGNode.Contains (x : TupleGNode) (n : List UInt32) : Prop :=
  ∀ i < x.positions.length, n[x.level + i]? = x.positions[i]?

/-- The tuple of a g-node of my map contains exactly what the g-node does. -/
lemma contains_makeTupleGnode {t : Topology} {myPos n : List UInt32} {h : HCoord} {x : TupleGNode}
    (hx : makeTupleGnode t myPos h myPos.length = .ok x) (hn : InGnode myPos h n) :
    x.Contains n := by
  obtain ⟨hlt, htop, hpos⟩ := positions_makeTupleGnode hx
  rw [List.take_of_length_le (le_refl _)] at hpos
  have hlevel : x.level = h.level := by
    rw [TupleGNode.level, htop, hpos, List.length_cons, List.length_drop]
    omega
  intro i hi
  rw [hlevel, hpos]
  cases i with
  | zero => simpa using hn.1
  | succ i =>
      rw [List.getElem?_cons_succ, List.getElem?_drop, hn.2 _ (by omega)]
      congr 1
      omega

/-- A tuple my address agrees with all along is mine. -/
lemma convertScan_of_agree {myPos tuple : List UInt32} {level n : ℕ} {p₀ : UInt32}
    (hp₀ : tuple[0]? = some p₀)
    (h : ∀ i < n, ∃ p, myPos[level + i]? = some p ∧ tuple[i]? = some p) :
    convertScan myPos level tuple n = .ok (.mine, ⟨level, p₀⟩) := by
  induction n with
  | zero =>
      rw [convertScan, Outcome.index_eq_ok.mpr hp₀]
      rfl
  | succ n ih =>
      obtain ⟨p, hmine, htheirs⟩ := h n (Nat.lt_succ_self n)
      rw [convertScan, Outcome.index_eq_ok.mpr hmine, Outcome.ok_bind,
        Outcome.index_eq_ok.mpr htheirs, Outcome.ok_bind, if_neg (not_not.mpr rfl)]
      exact ih fun i hi => h i (hi.trans (Nat.lt_succ_self n))

/-- A tuple that parts from my address is visible if it parts at its own level, and hidden in the
g-node where it parts otherwise. -/
lemma convertScan_of_parts {myPos tuple : List UInt32} {level n offset : ℕ} {p q : UInt32}
    (hlt : offset < n) (hp : myPos[level + offset]? = some p) (hq : tuple[offset]? = some q)
    (hne : p ≠ q)
    (h : ∀ i, offset < i → i < n → ∃ p, myPos[level + i]? = some p ∧ tuple[i]? = some p) :
    convertScan myPos level tuple n =
      .ok (if offset = 0 then .visible else .hidden, ⟨level + offset, q⟩) := by
  induction n with
  | zero => exact absurd hlt (Nat.not_lt_zero _)
  | succ n ih =>
      rcases Nat.lt_succ_iff_lt_or_eq.mp hlt with hlt' | rfl
      · obtain ⟨r, hmine, htheirs⟩ := h n hlt' (Nat.lt_succ_self n)
        rw [convertScan, Outcome.index_eq_ok.mpr hmine, Outcome.ok_bind,
          Outcome.index_eq_ok.mpr htheirs, Outcome.ok_bind, if_neg (not_not.mpr rfl)]
        exact ih hlt' fun i hi hin => h i hi (hin.trans (Nat.lt_succ_self n))
      · rw [convertScan, Outcome.index_eq_ok.mpr hp, Outcome.ok_bind, Outcome.index_eq_ok.mpr hq,
          Outcome.ok_bind, if_pos hne]

/-- A scan that does not end in "mine" has found the highest level where the tuple parts from my
address. -/
lemma convertScan_parts {myPos tuple : List UInt32} {level n : ℕ} {rel : GNodeRelation}
    {h : HCoord} (hscan : convertScan myPos level tuple n = .ok (rel, h)) (hrel : rel ≠ .mine) :
    ∃ offset < n, h.level = level + offset ∧ (offset = 0 → rel = .visible) ∧
      tuple[offset]? = some h.pos ∧ myPos[h.level]? ≠ some h.pos ∧
      ∀ i, offset < i → i < n → tuple[i]? = myPos[level + i]? := by
  induction n with
  | zero =>
      rw [convertScan] at hscan
      obtain ⟨p, -, hscan⟩ := Outcome.bind_eq_ok.mp hscan
      cases hscan
      exact absurd rfl hrel
  | succ n ih =>
      rw [convertScan] at hscan
      obtain ⟨mine, hmine, hscan⟩ := Outcome.bind_eq_ok.mp hscan
      obtain ⟨theirs, htheirs, hscan⟩ := Outcome.bind_eq_ok.mp hscan
      rw [Outcome.index_eq_ok] at hmine htheirs
      by_cases hne : mine ≠ theirs
      · rw [if_pos hne] at hscan
        cases hscan
        refine ⟨n, Nat.lt_succ_self n, rfl, fun hn => if_pos hn, htheirs, ?_,
          fun i hi hin => by omega⟩
        rw [hmine]
        exact fun he => hne (Option.some.inj he)
      · rw [if_neg hne] at hscan
        obtain ⟨offset, hlt, hlevel, hvisible, hpos, hparts, habove⟩ := ih hscan
        refine ⟨offset, hlt.trans (Nat.lt_succ_self n), hlevel, hvisible, hpos, hparts,
          fun i hi hin => ?_⟩
        rcases Nat.lt_succ_iff_lt_or_eq.mp hin with hin | rfl
        · exact habove i hi hin
        · rw [hmine, htheirs, not_not.mp hne]

/-- A tuple within the levels of my address can always be related to it. -/
lemma convertTupleGnode_ok {myPos : List UInt32} {x : TupleGNode} (h : x.top ≤ myPos.length) :
    ∃ r, convertTupleGnode myPos x = .ok r := by
  have hscan : ∀ n ≤ x.positions.length,
      ∃ r, convertScan myPos x.level x.positions n = .ok r := by
    intro n
    induction n with
    | zero =>
        intro _
        have hpos : 0 < x.positions.length := List.length_pos_of_ne_nil x.nonempty
        exact ⟨_, by rw [convertScan, Outcome.index_of_lt hpos]; rfl⟩
    | succ n ih =>
        intro hn
        have hlevel := x.level_add_length
        obtain ⟨r, hr⟩ := ih (by omega)
        rw [convertScan, Outcome.index_of_lt (show x.level + n < myPos.length by omega),
          Outcome.ok_bind, Outcome.index_of_lt hn, Outcome.ok_bind]
        split
        · exact ⟨_, rfl⟩
        · exact ⟨r, hr⟩
  exact hscan _ (le_refl _)

/-- Where a tuple that spans all levels parts from my address is a g-node of my map that is not
mine and contains all the tuple does. -/
lemma inGnode_convertTupleGnode {myPos n : List UInt32} {x : TupleGNode} {rel : GNodeRelation}
    {h : HCoord} (hc : convertTupleGnode myPos x = .ok (rel, h)) (hrel : rel ≠ .mine)
    (htop : x.top = myPos.length) (hlen : n.length = myPos.length) (hn : x.Contains n) :
    InGnode myPos h n ∧ myPos[h.level]? ≠ some h.pos := by
  obtain ⟨offset, hlt, hlevel, -, hpos, hparts, habove⟩ := convertScan_parts hc hrel
  refine ⟨⟨?_, fun l hl => ?_⟩, hparts⟩
  · rw [hlevel, hn offset hlt, hpos]
  · have hx := x.level_add_length
    by_cases hin : l < myPos.length
    · have hl' : x.level + (l - x.level) = l := by omega
      have h1 := hn (l - x.level) (by omega)
      have h2 := habove (l - x.level) (by omega) (by omega)
      rw [hl'] at h1 h2
      rw [h1, h2]
    · rw [List.getElem?_eq_none (show n.length ≤ l by omega),
        List.getElem?_eq_none (show myPos.length ≤ l by omega)]

/-! ## What is elected -/

/-- A g-node of my map that I am not part of, below `top`, known to exist and not excluded. -/
structure Candidate (myPos : List UInt32) (top : ℕ) (excludeList : List HCoord)
    (gnodeExists : HCoord → Bool) (h : HCoord) : Prop where
  level_lt : h.level < top
  parts : ∃ p, myPos[h.level]? = some p ∧ p ≠ h.pos
  notMem : h ∉ excludeList
  known : gnodeExists h = true

lemma weigh_eq_ok {t : Topology} {myPos : List UInt32} {x : TupleNode}
    {best best' : Option (HCoord × ℕ)} {h : HCoord} (hw : weigh t myPos x best h = .ok best') :
    best' = best ∨ ∃ d, best' = some (h, d) := by
  obtain ⟨y, -, hw⟩ := Outcome.bind_eq_ok.mp hw
  obtain ⟨d, -, hw⟩ := Outcome.bind_eq_ok.mp hw
  cases hw
  split_ifs
  · exact .inr ⟨d, rfl⟩
  · exact .inl rfl

/-- **Only candidates are elected**, besides myself. -/
lemma approximateOthers_candidate {t : Topology} {myPos : List UInt32} {x : TupleNode}
    {excludeList : List HCoord} {gnodeExists : HCoord → Bool} {best : Option (HCoord × ℕ)}
    (h : approximateOthers t myPos x excludeList gnodeExists = .ok best) :
    ∀ b, best = some b → Candidate myPos x.top excludeList gnodeExists b.1 := by
  refine Outcome.foldlM_preserves
    (P := fun best => ∀ b, best = some b → Candidate myPos x.top excludeList gnodeExists b.1)
    (fun b hb => by cases hb) (fun best level best' hbest hlevel hrun => ?_) h
  obtain ⟨g, hg, hrun⟩ := Outcome.bind_eq_ok.mp hrun
  refine Outcome.foldlM_preserves
    (P := fun best => ∀ b, best = some b → Candidate myPos x.top excludeList gnodeExists b.1)
    hbest (fun best h best' hbest hh hrun => ?_) hrun
  obtain ⟨q, -, rfl⟩ := List.mem_map.mp hh
  obtain ⟨p, hp, hrun⟩ := Outcome.bind_eq_ok.mp hrun
  split_ifs at hrun with hmine hexcluded
  · cases hrun
    exact hbest
  · cases hrun
    exact hbest
  · intro b hb
    rw [not_or] at hexcluded
    rcases weigh_eq_ok hrun with rfl | ⟨d, rfl⟩
    · exact hbest b hb
    · cases hb
      exact ⟨List.mem_range.mp hlevel, ⟨p, Outcome.index_eq_ok.mp hp, fun he => hmine he.symm⟩,
        hexcluded.1, by simpa using hexcluded.2⟩

/-- A candidate that is elected is a position of its level. -/
lemma approximateOthers_inRange {t : Topology} {myPos : List UInt32} {x : TupleNode}
    {excludeList : List HCoord} {gnodeExists : HCoord → Bool} {best : Option (HCoord × ℕ)}
    (h : approximateOthers t myPos x excludeList gnodeExists = .ok best) :
    ∀ b, best = some b → b.1.InRange t := by
  refine Outcome.foldlM_preserves (P := fun best => ∀ b, best = some b → b.1.InRange t)
    (fun b hb => by cases hb) (fun best level best' hbest hlevel hrun => ?_) h
  obtain ⟨g, hg, hrun⟩ := Outcome.bind_eq_ok.mp hrun
  refine Outcome.foldlM_preserves (P := fun best => ∀ b, best = some b → b.1.InRange t)
    hbest (fun best h best' hbest hh hrun => ?_) hrun
  obtain ⟨q, hq, rfl⟩ := List.mem_map.mp hh
  obtain ⟨p, -, hrun⟩ := Outcome.bind_eq_ok.mp hrun
  split_ifs at hrun with hmine hexcluded
  · cases hrun
    exact hbest
  · cases hrun
    exact hbest
  · intro b hb
    rcases weigh_eq_ok hrun with rfl | ⟨d, rfl⟩
    · exact hbest b hb
    · cases hb
      exact HCoord.inRange_ofNat (Outcome.expect_eq_ok.mp hg) (List.mem_range.mp hq)

/-- What is elected is a position of its level, or myself. -/
lemma approximate_inRange_or_self {t : Topology} {myPos : List UInt32}
    {xMacron : Option TupleNode} {excludeList : List HCoord} {gnodeExists : HCoord → Bool}
    {h : HCoord} (ha : approximate t myPos xMacron excludeList gnodeExists = .ok (some h)) :
    h.InRange t ∨ h.level = 0 ∧ myPos[0]? = some h.pos := by
  unfold approximate at ha
  split at ha
  next hnone =>
    obtain ⟨p₀, hp₀, ha⟩ := Outcome.bind_eq_ok.mp ha
    split_ifs at ha with hmem
    · cases ha
    · cases ha
      exact .inr ⟨rfl, Outcome.index_eq_ok.mp hp₀⟩
  next x hx =>
    obtain ⟨best, hbest, ha⟩ := Outcome.bind_eq_ok.mp ha
    obtain ⟨p₀, hp₀, ha⟩ := Outcome.bind_eq_ok.mp ha
    split_ifs at ha with hmem
    · obtain ⟨⟨h', d⟩, hd, rfl⟩ := Option.map_eq_some_iff.mp (Except.ok.inj ha)
      exact .inl (approximateOthers_inRange hbest _ hd)
    · obtain ⟨best', hbest', ha⟩ := Outcome.bind_eq_ok.mp ha
      obtain ⟨⟨h', d⟩, hd, rfl⟩ := Option.map_eq_some_iff.mp (Except.ok.inj ha)
      rcases weigh_eq_ok hbest' with rfl | ⟨d', rfl⟩
      · exact .inl (approximateOthers_inRange hbest _ hd)
      · cases hd
        exact .inr ⟨rfl, Outcome.index_eq_ok.mp hp₀⟩

/-- Every other g-node of my map below `lvl` is listed. -/
lemma mem_allGnodesUpToLvl {t : Topology} {myPos : List UInt32} {lvl : ℕ} {l : List HCoord}
    (hl : allGnodesUpToLvl t myPos lvl = .ok l) {h : HCoord} (hlevel : h.level < lvl)
    (hrange : h.InRange t) {q : UInt32} (hq : myPos[h.level]? = some q) (hne : q ≠ h.pos) :
    h ∈ l := by
  obtain ⟨others, hothers, hl⟩ := Outcome.bind_eq_ok.mp hl
  obtain ⟨p₀, -, hl⟩ := Outcome.bind_eq_ok.mp hl
  cases hl
  have hmem : (q, h.level) ∈ myPos.zipIdx.take lvl := by
    refine List.mem_iff_getElem?.mpr ⟨h.level, ?_⟩
    rw [List.getElem?_take_of_lt hlevel, List.getElem?_zipIdx, hq, Option.map_some, Nat.zero_add]
  obtain ⟨here, hhere, hrun⟩ := Outcome.exists_of_mapM hothers _ hmem
  obtain ⟨gsize, hgsize, hrun⟩ := Outcome.bind_eq_ok.mp hrun
  cases hrun
  obtain ⟨g, hg, hlt⟩ := hrange
  have hgeq : gsize = g := Option.some.inj ((Outcome.expect_eq_ok.mp hgsize).symm.trans hg)
  refine List.mem_append_left _ (List.mem_flatten_of_mem hhere (List.mem_map.mpr
    ⟨h.pos.toNat, List.mem_filter.mpr ⟨?_, ?_⟩, ?_⟩))
  · rw [List.mem_range, hgeq]
    exact hlt
  · exact decide_eq_true fun heq => hne (UInt32.toNat_inj.mp heq).symm
  · rw [UInt32.ofNat_toNat]

/-- And so am I. -/
lemma self_mem_allGnodesUpToLvl {t : Topology} {myPos : List UInt32} {lvl : ℕ} {l : List HCoord}
    (hl : allGnodesUpToLvl t myPos lvl = .ok l) {p₀ : UInt32} (hp₀ : myPos[0]? = some p₀) :
    (⟨0, p₀⟩ : HCoord) ∈ l := by
  obtain ⟨others, -, hl⟩ := Outcome.bind_eq_ok.mp hl
  rw [Outcome.index_eq_ok.mpr hp₀, Outcome.ok_bind] at hl
  cases hl
  exact List.mem_append_right _ (List.mem_singleton_self _)

/-- What `approximate` elects is not excluded, and is myself or a candidate. -/
lemma approximate_eq_some {t : Topology} {myPos : List UInt32} {xMacron : Option TupleNode}
    {excludeList : List HCoord} {gnodeExists : HCoord → Bool} {h : HCoord}
    (ha : approximate t myPos xMacron excludeList gnodeExists = .ok (some h)) :
    h ∉ excludeList ∧ ((h.level = 0 ∧ myPos[0]? = some h.pos) ∨
      ∃ x, xMacron = some x ∧ Candidate myPos x.top excludeList gnodeExists h) := by
  unfold approximate at ha
  split at ha
  next hnone =>
    obtain ⟨p₀, hp₀, ha⟩ := Outcome.bind_eq_ok.mp ha
    split_ifs at ha with hmem
    · cases ha
    · cases ha
      exact ⟨hmem, .inl ⟨rfl, Outcome.index_eq_ok.mp hp₀⟩⟩
  next x hx =>
    have hxMacron : xMacron = some x := (Option.filter_eq_some_iff.mp hx).1
    obtain ⟨best, hbest, ha⟩ := Outcome.bind_eq_ok.mp ha
    obtain ⟨p₀, hp₀, ha⟩ := Outcome.bind_eq_ok.mp ha
    have hcandidate : ∀ d, best = some (h, d) → h ∉ excludeList ∧ ((h.level = 0 ∧
        myPos[0]? = some h.pos) ∨ ∃ x, xMacron = some x ∧
          Candidate myPos x.top excludeList gnodeExists h) := fun d hd =>
      have hc := approximateOthers_candidate hbest _ hd
      ⟨hc.notMem, .inr ⟨x, hxMacron, hc⟩⟩
    split_ifs at ha with hmem
    · obtain ⟨⟨h', d⟩, hd, rfl⟩ := Option.map_eq_some_iff.mp (Except.ok.inj ha)
      exact hcandidate d hd
    · obtain ⟨best', hbest', ha⟩ := Outcome.bind_eq_ok.mp ha
      obtain ⟨⟨h', d⟩, hd, rfl⟩ := Option.map_eq_some_iff.mp (Except.ok.inj ha)
      rcases weigh_eq_ok hbest' with rfl | ⟨d', rfl⟩
      · exact hcandidate d hd
      · cases hd
        exact ⟨hmem, .inl ⟨rfl, Outcome.index_eq_ok.mp hp₀⟩⟩

end Netsukuku
