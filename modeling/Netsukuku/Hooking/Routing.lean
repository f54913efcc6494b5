import Mathlib
import Netsukuku.Core.Courier
import Netsukuku.Hooking.Messages
import Netsukuku.Hooking.Release

/-!
# Requests to other g-nodes

A node that is not in the g-node it asks hands its request to a gateway.  Every node on the way
decides afresh, by comparing the tuple of the g-node with its own address, and the one that is
inside executes the request; the answer goes back in the same way, to the full address of the
caller.

* `tupleToHc` — the highest level at which a tuple differs from my address.
* `arrivalAt` — what `MessageRouting` does with a packet for a tuple; the handlers are this.
* `Mesh` — the nodes, the gateways they know and the coordinators they ask.
* `Mesh.search`, `explore`, `mig` — the three exchanges.
* `Mesh.routed_exact` — routed requests are executed and answered as local ones are.
-/

namespace Netsukuku.Hooking

open Courier (Exact Lawful)

/-! ## Where a tuple differs from my address -/

/-- The loop of `tuple_to_hc`: from the `n`-th position of the tuple downwards. -/
def divergence (view : QspnView) (pos : List UInt32) : ℕ → Option HCoord
  | 0 => none
  | j + 1 =>
      match pos[j]? with
      | none => none
      | some p =>
          if view.myPos (view.levels - pos.length + j) ≠ p then
            some ⟨view.levels - pos.length + j, p⟩
          else divergence view pos j

/-- `tuple_to_hc`; a malformed tuple has none. -/
def tupleToHc (a : TupleGNode) (view : QspnView) : Option HCoord :=
  if a.pos = [] ∨ view.levels < a.pos.length then none
  else divergence view a.pos a.pos.length

section Divergence

variable {view : QspnView} {pos : List UInt32} {g : TupleGNode} {hc : HCoord} {n : ℕ}

lemma divergence_eq_none (hn : n ≤ pos.length) (h : divergence view pos n = none) :
    ∀ j < n, pos[j]? = some (view.myPos (view.levels - pos.length + j)) := by
  induction n with
  | zero => exact fun j hj => absurd hj (Nat.not_lt_zero j)
  | succ n ih =>
      have hget : pos[n]? = some pos[n] := List.getElem?_eq_getElem hn
      simp only [divergence, hget, ne_eq, ite_not] at h
      split_ifs at h with heq
      intro j hj
      rcases Nat.lt_succ_iff_lt_or_eq.mp hj with hlt | rfl
      · exact ih (by omega) h j hlt
      · rw [hget, heq]

lemma divergence_eq_some (hn : n ≤ pos.length) (h : divergence view pos n = some hc) :
    ∃ j < n, hc.level = view.levels - pos.length + j ∧ pos[j]? = some hc.pos ∧
      view.myPos hc.level ≠ hc.pos ∧
      ∀ k, j < k → k < n → pos[k]? = some (view.myPos (view.levels - pos.length + k)) := by
  induction n with
  | zero => cases h
  | succ n ih =>
      have hget : pos[n]? = some pos[n] := List.getElem?_eq_getElem hn
      simp only [divergence, hget, ne_eq, ite_not] at h
      split_ifs at h with heq
      · obtain ⟨j, hj, hlevel, hpos, hne, habove⟩ := ih (by omega) h
        refine ⟨j, by omega, hlevel, hpos, hne, fun k hjk hk => ?_⟩
        rcases Nat.lt_succ_iff_lt_or_eq.mp hk with hlt | rfl
        · exact habove k hjk hlt
        · rw [hget, heq]
      · cases h
        exact ⟨n, n.lt_succ_self, rfl, hget, heq, fun k hjk hk => by omega⟩

/-- A node is inside a g-node if it has the positions of the tuple. -/
lemma iAmInside_iff_getElem? : iAmInside g view = true ↔ g.pos.length ≤ view.levels ∧
    ∀ j < g.pos.length, g.pos[j]? = some (view.myPos (view.levels - g.pos.length + j)) := by
  rw [iAmInside_iff]
  refine and_congr_right fun hlen => ?_
  rw [← makeTupleFromLevel_eq_drop, makeTupleFromLevel]
  have hspan : view.levels - (view.levels - g.pos.length) = g.pos.length := by omega
  rw [hspan]
  constructor
  · intro h j hj
    refine (congrArg (fun l => l[j]?) h).trans ?_
    rw [List.getElem?_map, List.getElem?_range' hj, Option.map_some, Nat.one_mul]
  · intro h
    refine List.ext_getElem? fun j => ?_
    by_cases hj : j < g.pos.length
    · rw [h j hj, List.getElem?_map, List.getElem?_range' hj, Option.map_some, Nat.one_mul]
    · rw [List.getElem?_eq_none_iff.mpr (not_lt.mp hj), eq_comm, List.getElem?_eq_none_iff]
      simpa using hj

/-- A tuple that is not longer than the address differs from it somewhere, or I am inside. -/
lemma inside_of_tupleToHc_eq_none (hlen : g.pos.length ≤ view.levels)
    (h : tupleToHc g view = none) : iAmInside g view = true := by
  rw [tupleToHc] at h
  split_ifs at h with hbad
  · rcases hbad with hnil | hlong
    · rw [iAmInside_iff_getElem?, hnil]
      exact ⟨Nat.zero_le _, fun j hj => absurd hj (Nat.not_lt_zero j)⟩
    · omega
  · exact iAmInside_iff_getElem?.mpr ⟨hlen, divergence_eq_none le_rfl h⟩

/-- Above the coordinate the tuple is my address; there it is not. -/
lemma tupleToHc_eq_some (h : tupleToHc g view = some hc) : g.pos.length ≤ view.levels ∧
    ∃ j < g.pos.length, hc.level = view.levels - g.pos.length + j ∧ g.pos[j]? = some hc.pos ∧
      view.myPos hc.level ≠ hc.pos ∧ ∀ k, j < k → k < g.pos.length →
        g.pos[k]? = some (view.myPos (view.levels - g.pos.length + k)) := by
  rw [tupleToHc] at h
  split_ifs at h with hbad
  rw [not_or, not_lt] at hbad
  exact ⟨hbad.2, divergence_eq_some le_rfl h⟩

end Divergence

/-! ## The handlers -/

/-- A packet for a g-node: executed here if I am inside, and else given to the gateway towards
where the tuple leads (`gateway_for`). -/
def arrivalAt (view : QspnView) (target : TupleGNode) : Arrival HCoord :=
  if iAmInside target view then .here
  else
    match tupleToHc target view with
    | some hc => .toward hc
    | none => .drop

/-- A request goes to the g-node of its last hop. -/
def atLastHop (view : QspnView) (hops : List PathHop) : Arrival HCoord :=
  match hops.getLast? with
  | none => .drop
  | some hop => arrivalAt view hop.visitingGnode

/-- `route_search_request`. -/
def routeSearchRequest (view : QspnView) (req : SearchMigrationPathRequest) : Arrival HCoord :=
  atLastHop view req.pathHops

/-- `route_search_error`. -/
def routeSearchError (view : QspnView) (pkt : SearchMigrationPathErrorPkt) : Arrival HCoord :=
  arrivalAt view pkt.origin

/-- `route_search_response`. -/
def routeSearchResponse (view : QspnView) (resp : SearchMigrationPathResponse) : Arrival HCoord :=
  arrivalAt view resp.origin

/-- `route_explore_request`. -/
def routeExploreRequest (view : QspnView) (req : ExploreGNodeRequest) : Arrival HCoord :=
  atLastHop view req.pathHops

/-- `route_explore_response`. -/
def routeExploreResponse (view : QspnView) (resp : ExploreGNodeResponse) : Arrival HCoord :=
  arrivalAt view resp.origin

/-- `route_delete_reserve_request`. -/
def routeDeleteReserveRequest (view : QspnView) (req : DeleteReservationRequest) : Arrival HCoord :=
  arrivalAt view req.destGnode

/-- `route_mig_request`. -/
def routeMigRequest (view : QspnView) (req : RequestPacket) : Arrival HCoord :=
  arrivalAt view req.dest

/-- `route_mig_response`. -/
def routeMigResponse (view : QspnView) (resp : ResponsePacket) : Arrival HCoord :=
  arrivalAt view resp.dest

/-- `my_tuple`. -/
def myTuple (view : QspnView) : TupleGNode := makeTupleFromLevel 0 view

/-- The answer `deliver_search_response` sends. -/
def searchResponse (req : SearchMigrationPathRequest) (result : SearchStepResult) :
    SearchMigrationPathResponse where
  pktId := req.pktId
  origin := req.origin
  minHostLvl := result.minHostLvl
  setAdjacent := result.setAdjacent
  finalHostLvl := result.finalHostLvl
  realNewPos := result.realNewPos
  realNewEldership := result.realNewEldership
  newConnVirPos := result.newConnVirPos
  newEldership := result.newEldership

/-- What `send_search_request` makes of an answer. -/
def stepResult (resp : SearchMigrationPathResponse) : SearchStepResult where
  minHostLvl := resp.minHostLvl
  finalHostLvl := resp.finalHostLvl
  realNewPos := resp.realNewPos
  realNewEldership := resp.realNewEldership
  setAdjacent := resp.setAdjacent
  newConnVirPos := resp.newConnVirPos
  newEldership := resp.newEldership

/-! ## The mesh -/

/-- The nodes at their addresses, the gateways they know, the coordinators they ask, and the wire
between them. -/
structure Mesh (N : Type) where
  view : N → QspnView
  /-- `gateway_stub`: a node a packet towards a g-node may be handed to, or none. -/
  gatewayStub : N → HCoord → Option N → Prop
  /-- What the coordinators may answer a node under a request id, level by level. -/
  reserve : N → Int32 → (ℕ → Option Reservation) → Prop
  searchRequest : Prost V1.SearchMigrationPathRequest
  searchResponse : Prost V1.SearchMigrationPathResponse
  exploreRequest : Prost V1.ExploreGNodeRequest
  exploreResponse : Prost V1.ExploreGNodeResponse
  migRequest : Prost V1.RequestPacket
  migResponse : Prost V1.ResponsePacket

/-- The arguments of `send_search_request`. -/
structure SearchCall where
  pathHops : List PathHop
  maxHostLvl : ℕ
  reserveRequestId : Int32
  deriving DecidableEq

/-- The arguments of `send_explore_request`. -/
structure ExploreCall where
  pathHops : List PathHop
  requestedLvl : ℕ
  deriving DecidableEq

namespace Mesh

variable {N : Type} (mesh : Mesh N)

/-- `execute_search` at node `n`, whatever the coordinators answer. -/
def Searches (n : N) (hops : List PathHop) (maxHostLvl : ℕ) (reserveRequestId : Int32)
    (result : Option SearchStepResult) : Prop :=
  ∃ hop reserve, hops.getLast? = some hop ∧ mesh.reserve n reserveRequestId reserve ∧
    result = executeSearch (mesh.view n) reserve hop.visitingGnode maxHostLvl

/-- Node `n` is in the g-node of the last hop. -/
def InLastHop (n : N) (hops : List PathHop) : Prop :=
  ∃ hop, hops.getLast? = some hop ∧ iAmInside hop.visitingGnode (mesh.view n) = true

/-- `send_search_request`, `route_search_request` and `route_search_response`. -/
def search : Courier N HCoord Int32 SearchCall SearchMigrationPathRequest
    SearchMigrationPathResponse (Option SearchStepResult) SearchStepResult where
  gateway := mesh.gatewayStub
  dest n x := atLastHop (mesh.view n) x.pathHops
  request n pktId x := {
    pktId
    origin := myTuple (mesh.view n)
    caller := myTuple (mesh.view n)
    pathHops := x.pathHops
    maxHostLvl := x.maxHostLvl
    reserveRequestId := x.reserveRequestId }
  route n req := routeSearchRequest (mesh.view n) req
  carry req :=
    (decodeSearchRequest mesh.searchRequest (encodeSearchRequest mesh.searchRequest req)).toOption
  runsCall n x result := mesh.InLastHop n x.pathHops ∧
    mesh.Searches n x.pathHops x.maxHostLvl x.reserveRequestId result
  runs n req result := mesh.Searches n req.pathHops req.maxHostLvl req.reserveRequestId result
  answer := id
  reply := Hooking.searchResponse
  routeReply n resp := routeSearchResponse (mesh.view n) resp
  carryReply resp :=
    (decodeSearchResponse mesh.searchResponse
      (encodeSearchResponse mesh.searchResponse resp)).toOption
  key := SearchMigrationPathResponse.pktId
  value := stepResult

/-- `send_explore_request`, `route_explore_request` and `route_explore_response`. -/
def explore : Courier N HCoord Int32 ExploreCall ExploreGNodeRequest ExploreGNodeResponse TupleGNode
    TupleGNode where
  gateway := mesh.gatewayStub
  dest n x := atLastHop (mesh.view n) x.pathHops
  request n pktId x := ⟨pktId, myTuple (mesh.view n), x.pathHops, x.requestedLvl⟩
  route n req := routeExploreRequest (mesh.view n) req
  carry req :=
    (decodeExploreRequest mesh.exploreRequest
      (encodeExploreRequest mesh.exploreRequest req)).toOption
  runsCall n x result := mesh.InLastHop n x.pathHops ∧
    result = executeExplore x.requestedLvl (mesh.view n)
  runs n req result := result = executeExplore req.requestedLvl (mesh.view n)
  answer := some
  reply req result := ⟨req.pktId, req.origin, result⟩
  routeReply n resp := routeExploreResponse (mesh.view n) resp
  carryReply resp :=
    (decodeExploreResponse mesh.exploreResponse
      (encodeExploreResponse mesh.exploreResponse resp)).toOption
  key := ExploreGNodeResponse.pktId
  value := ExploreGNodeResponse.result

/-- `send_mig_request`, `route_mig_request` and `route_mig_response`. -/
def mig : Courier N HCoord Int32 RequestPacket RequestPacket ResponsePacket (Option CoordCall)
    Unit where
  gateway := mesh.gatewayStub
  dest n packet := arrivalAt (mesh.view n) packet.dest
  request n pktId packet := { packet with pktId, src := myTuple (mesh.view n) }
  route n req := routeMigRequest (mesh.view n) req
  carry req := (decodeMigRequest mesh.migRequest (encodeMigRequest mesh.migRequest req)).toOption
  runsCall n packet effect := iAmInside packet.dest (mesh.view n) = true ∧
    (effect = executeMig (mesh.view n) packet ∨ effect = executeMig (mesh.view n) packet.received)
  runs n req effect := effect = executeMig (mesh.view n) req
  answer _ := some ()
  reply req _ := ⟨req.pktId, req.src⟩
  routeReply n resp := routeMigResponse (mesh.view n) resp
  carryReply resp :=
    (decodeMigResponse mesh.migResponse (encodeMigResponse mesh.migResponse resp)).toOption
  key := ResponsePacket.pktId
  value _ := ()

/-! ## Addresses -/

/-- Two nodes are in one g-node of level `l`. -/
def SameGnode (l : ℕ) (i j : N) : Prop :=
  ∀ k, l ≤ k → k < (mesh.view i).levels → (mesh.view i).myPos k = (mesh.view j).myPos k

/-- There is a node in the g-node that `hc` is for `n`, and it is not `n`'s own. -/
def Occupied (n : N) (hc : HCoord) : Prop :=
  (mesh.view n).myPos hc.level ≠ hc.pos ∧
    ∃ t, mesh.SameGnode (hc.level + 1) n t ∧ (mesh.view t).myPos hc.level = hc.pos

/-- Some node is in the g-node. -/
def Named (g : TupleGNode) : Prop := ∃ t, iAmInside g (mesh.view t) = true

/-- Distinct addresses of one topology, and gateways that bring a packet closer to any g-node in
which there is a node.  A packet carries a full address in a frame whose length is a `u32`, two
bytes a level at least; the coordinators grant positions that fit an `i32`, and no negative
eldership. -/
structure Fixed (mesh : Mesh N) (topology : Topology) (rank : HCoord → N → ℕ) : Prop where
  sameTopology : ∀ n, (mesh.view n).topology = topology
  distinct : ∀ i j, mesh.SameGnode 0 i j → i = j
  gateways : ∀ n hc, ∃ o, mesh.gatewayStub n hc o
  closer : ∀ n hc o, mesh.gatewayStub n hc o → mesh.Occupied n hc →
    ∃ j, o = some j ∧ mesh.SameGnode (hc.level + 1) n j ∧ rank hc j < rank hc n
  levels : 2 * topology.levels + 2 < 2 ^ 32
  reserves : ∀ n id, ∃ reserve, mesh.reserve n id reserve
  granted : ∀ n id reserve lvl r, mesh.reserve n id reserve → reserve lvl = some r →
    r.pos.toNat < 2 ^ 31 ∧ 0 ≤ r.eldership.toInt
  searchRequest : ∀ w, mesh.searchRequest.Decodes w
  searchResponse : ∀ w, mesh.searchResponse.Decodes w
  exploreRequest : ∀ w, mesh.exploreRequest.Decodes w
  exploreResponse : ∀ w, mesh.exploreResponse.Decodes w
  migRequest : ∀ w, mesh.migRequest.Decodes w
  migResponse : ∀ w, mesh.migResponse.Decodes w

/-- How far a node is from a g-node: the level at which they part, then the rank. -/
def remoteness (rank : HCoord → N → ℕ) (g : TupleGNode) (n : N) : ℕ ×ₗ ℕ :=
  match tupleToHc g (mesh.view n) with
  | none => toLex (0, 0)
  | some hc => toLex (hc.level + 1, rank hc n)

/-- `i` is closer to the g-node than `j`. -/
def Closer (rank : HCoord → N → ℕ) (g : TupleGNode) (i j : N) : Prop :=
  mesh.remoteness rank g i < mesh.remoteness rank g j

variable {mesh} {topology : Topology} {rank : HCoord → N → ℕ} {g : TupleGNode} {i j n : N}
  {hc : HCoord} {o : Option N}

lemma closer_strict (rank : HCoord → N → ℕ) (g : TupleGNode) :
    IsStrictOrder N (mesh.Closer rank g) where
  irrefl n := lt_irrefl (mesh.remoteness rank g n)
  trans _ _ _ := lt_trans

lemma Fixed.levels_eq (h : mesh.Fixed topology rank) (n : N) :
    (mesh.view n).levels = topology.levels := by rw [QspnView.levels, h.sameTopology]

/-- A node differs from a g-node in which there is a node by a coordinate that is occupied. -/
lemma Fixed.occupied (h : mesh.Fixed topology rank) (hg : mesh.Named g)
    (hhc : tupleToHc g (mesh.view n) = some hc) : mesh.Occupied n hc := by
  obtain ⟨t, ht⟩ := hg
  obtain ⟨-, hinside⟩ := iAmInside_iff_getElem?.mp ht
  obtain ⟨hlen, j, hj, hlevel, hpos, hne, habove⟩ := tupleToHc_eq_some hhc
  rw [h.levels_eq] at hinside hlen hlevel habove
  refine ⟨hne, t, fun k hk hlt => ?_, ?_⟩
  · rw [h.levels_eq] at hlt
    obtain ⟨m, rfl⟩ : ∃ m, k = topology.levels - g.pos.length + m :=
      ⟨k - (topology.levels - g.pos.length), by omega⟩
    have hn := habove m (by omega) (by omega)
    rw [hinside m (by omega)] at hn
    exact (Option.some.inj hn).symm
  · rw [hinside j hj] at hpos
    rw [hlevel]
    exact Option.some.inj hpos

/-- **A gateway brings a packet closer**: it is handed to a node that parts from the g-node at a
lower level, or at the same one and is of lower rank. -/
lemma Fixed.closer_of_gateway (h : mesh.Fixed topology rank) (hg : mesh.Named g)
    (hhc : tupleToHc g (mesh.view n) = some hc) (ho : mesh.gatewayStub n hc o) :
    ∃ j, o = some j ∧ mesh.Closer rank g j n := by
  obtain ⟨m, rfl, hsame, hrank⟩ := h.closer n hc o ho (h.occupied hg hhc)
  refine ⟨m, rfl, ?_⟩
  rw [Closer, remoteness, remoteness, hhc]
  cases hm : tupleToHc g (mesh.view m) with
  | none =>
      dsimp only
      rw [Prod.Lex.toLex_lt_toLex]
      exact .inl (Nat.succ_pos _)
  | some hc' =>
      obtain ⟨hlen, j, hj, hlevel, hpos, hne, habove⟩ := tupleToHc_eq_some hhc
      obtain ⟨-, j', hj', hlevel', hpos', hne', -⟩ := tupleToHc_eq_some hm
      rw [h.levels_eq] at hlen hlevel hlevel' habove
      -- above `hc` the node that gets the packet is where the one that hands it over is
      have hle : j' ≤ j := by
        by_contra hlt
        have hagree := habove j' (by omega) hj'
        have hsameAt := hsame hc'.level (by omega) (by rw [h.levels_eq]; omega)
        rw [hpos', ← hlevel', hsameAt] at hagree
        exact hne' (Option.some.inj hagree).symm
      dsimp only
      rw [Prod.Lex.toLex_lt_toLex]
      rcases Nat.lt_or_eq_of_le hle with hlt | rfl
      · exact .inl (by dsimp only; omega)
      · have hsamehc : hc' = hc := by
          rw [hpos] at hpos'
          cases hc
          cases hc'
          simp only [HCoord.mk.injEq]
          exact ⟨hlevel'.trans hlevel.symm, (Option.some.inj hpos').symm⟩
        subst hsamehc
        exact .inr ⟨rfl, hrank⟩

/-- A packet for a g-node in which there is a node is never at a loss. -/
lemma Fixed.arrivalAt_named (h : mesh.Fixed topology rank) (hg : mesh.Named g) (n : N) :
    arrivalAt (mesh.view n) g ≠ .drop ∧ ∀ hc, arrivalAt (mesh.view n) g = .toward hc →
      ∀ o, mesh.gatewayStub n hc o → ∃ j, o = some j ∧ mesh.Closer rank g j n := by
  rw [arrivalAt]
  split_ifs with hinside
  · exact ⟨nofun, nofun⟩
  · cases hhc : tupleToHc g (mesh.view n) with
    | none =>
        obtain ⟨t, ht⟩ := hg
        have hlen := (iAmInside_iff_getElem?.mp ht).1
        rw [h.levels_eq, ← h.levels_eq n] at hlen
        exact absurd (inside_of_tupleToHc_eq_none hlen hhc) hinside
    | some hc =>
        refine ⟨nofun, ?_⟩
        rintro hc' ⟨⟩ o ho
        exact h.closer_of_gateway hg hhc ho

lemma arrivalAt_eq_here {view : QspnView} (h : arrivalAt view g = .here) :
    iAmInside g view = true := by
  rw [arrivalAt] at h
  split_ifs at h with hinside
  · exact hinside
  · cases hhc : tupleToHc g view <;> rw [hhc] at h <;> cases h

/-- A node is where its own address leads. -/
lemma named_myTuple (i : N) : mesh.Named (myTuple (mesh.view i)) := by
  refine ⟨i, iAmInside_iff.mpr ?_⟩
  rw [myTuple, length_makeTupleFromLevel, Nat.sub_zero]
  refine ⟨le_rfl, ?_⟩
  rw [Nat.sub_self, List.drop_zero]

/-- Nobody else is. -/
lemma Fixed.eq_of_inside_myTuple (h : mesh.Fixed topology rank)
    (hinside : iAmInside (myTuple (mesh.view i)) (mesh.view n) = true) : n = i := by
  obtain ⟨-, hagree⟩ := iAmInside_iff_getElem?.mp hinside
  refine h.distinct n i fun k _ hk => ?_
  rw [h.levels_eq] at hk
  have hlen : (myTuple (mesh.view i)).pos.length = topology.levels := by
    rw [myTuple, length_makeTupleFromLevel, h.levels_eq, Nat.sub_zero]
  have hget := hagree k (by omega)
  rw [hlen, h.levels_eq, Nat.sub_self, Nat.zero_add, myTuple, makeTupleFromLevel, h.levels_eq,
    Nat.sub_zero, List.getElem?_map, List.getElem?_range' hk, Option.map_some, Nat.one_mul,
    Nat.zero_add] at hget
  exact (Option.some.inj hget).symm

/-! ## What crosses the wire -/

lemma Fixed.carry_search (h : mesh.Fixed topology rank) (req : SearchMigrationPathRequest) :
    mesh.search.carry req = some req.received :=
  congrArg Except.toOption (decodeSearchRequest_encode h.searchRequest req)

lemma Fixed.carryReply_search (h : mesh.Fixed topology rank) (resp : SearchMigrationPathResponse) :
    mesh.search.carryReply resp = some resp.received :=
  congrArg Except.toOption (decodeSearchResponse_encode h.searchResponse resp)

lemma Fixed.carry_explore (h : mesh.Fixed topology rank) (req : ExploreGNodeRequest) :
    mesh.explore.carry req = some req.received :=
  congrArg Except.toOption (decodeExploreRequest_encode h.exploreRequest req)

lemma Fixed.carryReply_explore (h : mesh.Fixed topology rank) (resp : ExploreGNodeResponse) :
    mesh.explore.carryReply resp = some resp.received :=
  congrArg Except.toOption (decodeExploreResponse_encode h.exploreResponse resp)

lemma Fixed.carry_mig (h : mesh.Fixed topology rank) (req : RequestPacket) :
    mesh.mig.carry req = some req.received :=
  congrArg Except.toOption (decodeMigRequest_encode h.migRequest req)

lemma Fixed.carryReply_mig (h : mesh.Fixed topology rank) (resp : ResponsePacket) :
    mesh.mig.carryReply resp = some resp.received :=
  congrArg Except.toOption (decodeMigResponse_encode h.migResponse resp)

lemma paired_makeTupleFromLevel (l : ℕ) (view : QspnView) : (makeTupleFromLevel l view).Paired := by
  simp [TupleGNode.Paired, makeTupleFromLevel]

lemma paired_makeTupleFromHc (hc : HCoord) (view : QspnView) : (makeTupleFromHc hc view).Paired := by
  simp [TupleGNode.Paired, makeTupleFromHc]

lemma received_myTuple (view : QspnView) : (myTuple view).received = myTuple view :=
  TupleGNode.received_eq_self.mpr (paired_makeTupleFromLevel 0 view)

lemma getLast?_received (hops : List PathHop) :
    (hops.map PathHop.received).getLast? = hops.getLast?.map PathHop.received :=
  List.getLast?_map

/-- A hop names its g-node by positions, which the wire leaves alone. -/
lemma atLastHop_received (view : QspnView) (hops : List PathHop) :
    atLastHop view (hops.map PathHop.received) = atLastHop view hops := by
  rw [atLastHop, atLastHop, getLast?_received]
  cases hops.getLast? <;> rfl

/-- A limit that the wire cuts is above the top anyway. -/
lemma executeSearch_received {view : QspnView} (hlevels : view.levels < 2 ^ 32)
    (reserve : ℕ → Option Reservation) (g : TupleGNode) (maxHostLvl : ℕ) :
    executeSearch view reserve g.received (clampU32 maxHostLvl) =
      executeSearch view reserve g maxHostLvl := by
  have hmin : min (clampU32 maxHostLvl) view.levels = min maxHostLvl view.levels := by
    rw [clampU32]
    omega
  rw [executeSearch, executeSearch, hmin]
  rfl

lemma executeExplore_received {view : QspnView} (hlevels : view.levels < 2 ^ 32)
    (requestedLvl : ℕ) :
    executeExplore (clampU32 requestedLvl) view = executeExplore requestedLvl view := by
  rw [executeExplore, executeExplore]
  by_cases hlt : requestedLvl < 2 ^ 32
  · rw [clampU32, min_eq_left (by omega)]
  · have hzero : view.levels - clampU32 requestedLvl = 0 := by
      rw [clampU32]
      omega
    have hzero' : view.levels - requestedLvl = 0 := by omega
    rw [makeTupleFromLevel, makeTupleFromLevel, hzero, hzero']
    rfl

lemma firstReservation_granted {reserve : ℕ → Option Reservation} {count : ℕ} :
    ∀ {lvl m : ℕ} {r : Reservation}, firstReservation reserve lvl count = some (m, r) →
      reserve m = some r := by
  induction count with
  | zero => exact nofun
  | succ count ih =>
      intro lvl m r h
      rw [firstReservation] at h
      cases hr : reserve lvl with
      | none =>
          rw [hr] at h
          exact ih h
      | some r' =>
          rw [hr] at h
          cases h
          exact hr

lemma climbToReal_granted {view : QspnView} {reserve : ℕ → Option Reservation} {count : ℕ} :
    ∀ {lvl final : ℕ} {real : Option Reservation},
      climbToReal view reserve lvl count = some (final, real) → final ≤ lvl + count ∧
        ∀ r, real = some r → reserve final = some r := by
  induction count with
  | zero =>
      intro lvl final real h
      cases h
      exact ⟨le_rfl, nofun⟩
  | succ count ih =>
      intro lvl final real h
      rw [climbToReal] at h
      cases hr : reserve lvl with
      | none =>
          rw [hr] at h
          cases h
      | some r =>
          simp only [hr] at h
          split_ifs at h with hpos
          · cases h
            refine ⟨by omega, ?_⟩
            rintro r' ⟨⟩
            exact hr
          · obtain ⟨hle, hreal⟩ := ih h
            exact ⟨by omega, hreal⟩

/-- **What a search answers survives the wire**: its levels and what the coordinators grant fit the
fields, and every tuple of it is paired. -/
lemma Fixed.sendable (h : mesh.Fixed topology rank) {id : Int32}
    {reserve : ℕ → Option Reservation} (hreserve : mesh.reserve n id reserve) {maxHostLvl : ℕ}
    {result : SearchStepResult}
    (hrun : executeSearch (mesh.view n) reserve g maxHostLvl = some result)
    {req : SearchMigrationPathRequest} (horigin : req.origin.Paired) :
    (Hooking.searchResponse req result).Sendable := by
  have hfits : ∀ lvl r, reserve lvl = some r → r.pos.toNat < 2 ^ 31 ∧ r.eldership ≠ -1 := by
    intro lvl r hr
    obtain ⟨hpos, heldership⟩ := h.granted n id reserve lvl r hreserve hr
    refine ⟨hpos, ?_⟩
    rintro hneg
    rw [hneg] at heldership
    exact absurd heldership (by decide)
  have hset : ∀ l, ∀ p ∈ adjacencySet (mesh.view n) l, p.gnode.Paired := by
    intro l p hp
    obtain ⟨adj, -, rfl⟩ := List.mem_map.mp hp
    exact paired_makeTupleFromHc adj.hc _
  have hlevels := h.levels
  rw [executeSearch] at hrun
  split_ifs at hrun
  simp only [Option.bind_eq_bind, Option.bind_eq_some_iff] at hrun
  obtain ⟨⟨minHostLvl, r⟩, hfirst, hrun⟩ := hrun
  have hrange := firstReservation_range hfirst
  have hr := hfits _ _ (firstReservation_granted hfirst)
  rw [h.levels_eq] at hrange
  simp only at hrun
  split_ifs at hrun with hreal
  · cases hrun
    refine ⟨horigin, ?_, hset minHostLvl, ?_, ?_, ?_, ?_, ?_⟩
    · simp only [Hooking.searchResponse]
      omega
    · simp only [Hooking.searchResponse]
      omega
    · rintro p ⟨⟩
      exact hr.1
    · exact fun heq => hr.2 (Option.some.inj heq)
    · intro p hp
      cases hp
    · intro heq
      cases heq
  · obtain ⟨⟨final, real⟩, hclimb, hrun⟩ := Option.bind_eq_some_iff.mp hrun
    cases hrun
    obtain ⟨hfinal, hgrant⟩ := climbToReal_granted hclimb
    rw [h.levels_eq] at hfinal
    refine ⟨horigin, ?_, hset minHostLvl, ?_, ?_, ?_, ?_, ?_⟩
    · simp only [Hooking.searchResponse]
      omega
    · simp only [Hooking.searchResponse]
      omega
    · intro p hp
      obtain ⟨r', hr', rfl⟩ := Option.map_eq_some_iff.mp hp
      exact (hfits _ _ (hgrant r' hr')).1
    · intro heldership
      obtain ⟨r', hr', hneg⟩ := Option.map_eq_some_iff.mp heldership
      exact (hfits _ _ (hgrant r' hr')).2 hneg
    · rintro p ⟨⟩
      exact hr.1
    · exact fun heq => hr.2 (Option.some.inj heq)

/-! ## The three exchanges -/

/-- The g-node a request is for. -/
def targetOf (hops : List PathHop) : TupleGNode :=
  (hops.getLast?.map PathHop.visitingGnode).getD .default

/-- There is a node in the g-node of the last hop. -/
def ReachesHop (mesh : Mesh N) (hops : List PathHop) : Prop :=
  ∃ hop, hops.getLast? = some hop ∧ mesh.Named hop.visitingGnode

lemma Fixed.atLastHop_reached (h : mesh.Fixed topology rank) {hops : List PathHop}
    (hreach : mesh.ReachesHop hops) (n : N) : atLastHop (mesh.view n) hops ≠ .drop ∧
      ∀ hc, atLastHop (mesh.view n) hops = .toward hc → ∀ o, mesh.gatewayStub n hc o →
        ∃ j, o = some j ∧ mesh.Closer rank (targetOf hops) j n := by
  obtain ⟨hop, hlast, hnamed⟩ := hreach
  rw [atLastHop, targetOf, hlast]
  exact h.arrivalAt_named hnamed n

lemma inLastHop_of_here {hops : List PathHop} (h : atLastHop (mesh.view n) hops = .here) :
    mesh.InLastHop n hops := by
  rw [atLastHop] at h
  cases hlast : hops.getLast? with
  | none =>
      rw [hlast] at h
      cases h
  | some hop =>
      rw [hlast] at h
      exact ⟨hop, hlast, arrivalAt_eq_here h⟩

/-- A search is asked for what it was asked for at its start. -/
lemma Fixed.searches_received (h : mesh.Fixed topology rank) {hops : List PathHop} {maxHostLvl : ℕ}
    {id : Int32} {result : Option SearchStepResult} :
    mesh.Searches n (hops.map PathHop.received) (clampU32 maxHostLvl) id result ↔
      mesh.Searches n hops maxHostLvl id result := by
  have hlevels : (mesh.view n).levels < 2 ^ 32 := by
    have := h.levels
    rw [h.levels_eq]
    omega
  constructor
  · rintro ⟨hop, reserve, hlast, hreserve, rfl⟩
    rw [getLast?_received, Option.map_eq_some_iff] at hlast
    obtain ⟨hop, hlast, rfl⟩ := hlast
    exact ⟨hop, reserve, hlast, hreserve, executeSearch_received hlevels _ _ _⟩
  · rintro ⟨hop, reserve, hlast, hreserve, rfl⟩
    refine ⟨hop.received, reserve, ?_, hreserve, (executeSearch_received hlevels _ _ _).symm⟩
    rw [getLast?_received, hlast, Option.map_some]

theorem Fixed.lawful_search (h : mesh.Fixed topology rank) :
    Lawful mesh.search (fun x => mesh.ReachesHop x.pathHops)
      (fun i pktId x req => req = (mesh.search.request i pktId x).received)
      (fun i pktId result resp => resp.pktId = pktId ∧ resp.origin = myTuple (mesh.view i) ∧
        stepResult resp = result ∧ resp.Sendable)
      (fun x => mesh.Closer rank (targetOf x.pathHops))
      (fun i => mesh.Closer rank (myTuple (mesh.view i))) where
  order x := closer_strict rank _
  orderHome i := closer_strict rank _
  gateways := h.gateways
  request _ hcarry := by
    rw [h.carry_search] at hcarry
    exact (Option.some.inj hcarry).symm
  carried := by
    rintro i pktId x req req' rfl hcarry
    rw [h.carry_search, SearchMigrationPathRequest.received_received] at hcarry
    exact (Option.some.inj hcarry).symm
  runs := by
    rintro i pktId x req n result rfl hroute hruns
    refine ⟨inLastHop_of_here ?_, h.searches_received.mp hruns⟩
    rw [← atLastHop_received]
    exact hroute
  executes := by
    rintro i pktId x req n rfl hroute
    obtain ⟨hop, hlast, -⟩ := inLastHop_of_here hroute
    obtain ⟨reserve, hreserve⟩ := h.reserves n x.reserveRequestId
    exact ⟨_, hop, reserve, hlast, hreserve, rfl⟩
  reply := by
    rintro i pktId x req n result a rfl hroute ⟨hop, reserve, -, hreserve, hresult⟩ rfl
    refine ⟨rfl, received_myTuple _, rfl, h.sendable hreserve hresult.symm ?_⟩
    exact TupleGNode.paired_received _
  carriedReply := by
    rintro i pktId a resp resp' ⟨hid, horigin, hvalue, hsendable⟩ hcarry
    rw [h.carryReply_search, SearchMigrationPathResponse.received_eq_self.mpr hsendable] at hcarry
    cases hcarry
    exact ⟨hid, horigin, hvalue, hsendable⟩
  known hreply := ⟨hreply.1, hreply.2.2.1⟩
  home := by
    rintro i pktId a resp n ⟨-, horigin, -⟩ hroute
    refine h.eq_of_inside_myTuple ?_
    rw [← horigin]
    exact arrivalAt_eq_here hroute
  start := by
    rintro i x hreach
    obtain ⟨hdrop, htoward⟩ := h.atLastHop_reached hreach i
    exact ⟨hdrop, fun hc hdest => ⟨fun k => ⟨_, h.carry_search _⟩, htoward hc hdest⟩⟩
  onward := by
    rintro i pktId x req n hreach rfl
    have hroute : mesh.search.route n (mesh.search.request i pktId x).received =
        atLastHop (mesh.view n) x.pathHops := atLastHop_received _ _
    rw [hroute]
    obtain ⟨hdrop, htoward⟩ := h.atLastHop_reached hreach n
    exact ⟨hdrop, fun hc hdest => ⟨⟨_, h.carry_search _⟩, htoward hc hdest⟩⟩
  homeward := by
    rintro i pktId a resp n ⟨-, horigin, -⟩
    have hroute : mesh.search.routeReply n resp = arrivalAt (mesh.view n) (myTuple (mesh.view i)) := by
      rw [← horigin]
      rfl
    rw [hroute]
    obtain ⟨hdrop, htoward⟩ := h.arrivalAt_named (named_myTuple i) n
    exact ⟨hdrop, fun hc hdest => ⟨⟨_, h.carryReply_search _⟩, htoward hc hdest⟩⟩

theorem Fixed.lawful_explore (h : mesh.Fixed topology rank) :
    Lawful mesh.explore (fun x => mesh.ReachesHop x.pathHops)
      (fun i pktId x req => req = (mesh.explore.request i pktId x).received)
      (fun i pktId result resp => resp.pktId = pktId ∧ resp.origin = myTuple (mesh.view i) ∧
        resp.result = result ∧ resp.result.Paired)
      (fun x => mesh.Closer rank (targetOf x.pathHops))
      (fun i => mesh.Closer rank (myTuple (mesh.view i))) where
  order x := closer_strict rank _
  orderHome i := closer_strict rank _
  gateways := h.gateways
  request _ hcarry := by
    rw [h.carry_explore] at hcarry
    exact (Option.some.inj hcarry).symm
  carried := by
    rintro i pktId x req req' rfl hcarry
    rw [h.carry_explore, ExploreGNodeRequest.received_received] at hcarry
    exact (Option.some.inj hcarry).symm
  runs := by
    rintro i pktId x req n result rfl hroute hruns
    have hlevels : (mesh.view n).levels < 2 ^ 32 := by
      have := h.levels
      rw [h.levels_eq]
      omega
    refine ⟨inLastHop_of_here ?_, hruns.trans (executeExplore_received hlevels _)⟩
    rw [← atLastHop_received]
    exact hroute
  executes _ _ := ⟨_, rfl⟩
  reply := by
    rintro i pktId x req n result a rfl hroute hruns ⟨⟩
    refine ⟨rfl, received_myTuple _, rfl, ?_⟩
    have hpaired := paired_makeTupleFromLevel (clampU32 x.requestedLvl) (mesh.view n)
    rw [hruns]
    exact hpaired
  carriedReply := by
    rintro i pktId a resp resp' ⟨hid, horigin, hresult, hpaired⟩ hcarry
    have hsame : resp.received = resp := by
      rw [ExploreGNodeResponse.received_eq_self, horigin]
      exact ⟨paired_makeTupleFromLevel 0 _, hpaired⟩
    rw [h.carryReply_explore, hsame] at hcarry
    cases hcarry
    exact ⟨hid, horigin, hresult, hpaired⟩
  known hreply := ⟨hreply.1, hreply.2.2.1⟩
  home := by
    rintro i pktId a resp n ⟨-, horigin, -⟩ hroute
    refine h.eq_of_inside_myTuple ?_
    rw [← horigin]
    exact arrivalAt_eq_here hroute
  start := by
    rintro i x hreach
    obtain ⟨hdrop, htoward⟩ := h.atLastHop_reached hreach i
    exact ⟨hdrop, fun hc hdest => ⟨fun k => ⟨_, h.carry_explore _⟩, htoward hc hdest⟩⟩
  onward := by
    rintro i pktId x req n hreach rfl
    have hroute : mesh.explore.route n (mesh.explore.request i pktId x).received =
        atLastHop (mesh.view n) x.pathHops := atLastHop_received _ _
    rw [hroute]
    obtain ⟨hdrop, htoward⟩ := h.atLastHop_reached hreach n
    exact ⟨hdrop, fun hc hdest => ⟨⟨_, h.carry_explore _⟩, htoward hc hdest⟩⟩
  homeward := by
    rintro i pktId a resp n ⟨-, horigin, -⟩
    have hroute : mesh.explore.routeReply n resp =
        arrivalAt (mesh.view n) (myTuple (mesh.view i)) := by
      rw [← horigin]
      rfl
    rw [hroute]
    obtain ⟨hdrop, htoward⟩ := h.arrivalAt_named (named_myTuple i) n
    exact ⟨hdrop, fun hc hdest => ⟨⟨_, h.carryReply_explore _⟩, htoward hc hdest⟩⟩

theorem Fixed.lawful_mig (h : mesh.Fixed topology rank) :
    Lawful mesh.mig (fun packet => mesh.Named packet.dest)
      (fun i pktId packet req => req = (mesh.mig.request i pktId packet).received)
      (fun i pktId _ resp => resp.pktId = pktId ∧ resp.dest = myTuple (mesh.view i))
      (fun packet => mesh.Closer rank packet.dest)
      (fun i => mesh.Closer rank (myTuple (mesh.view i))) where
  order packet := closer_strict rank _
  orderHome i := closer_strict rank _
  gateways := h.gateways
  request _ hcarry := by
    rw [h.carry_mig] at hcarry
    exact (Option.some.inj hcarry).symm
  carried := by
    rintro i pktId packet req req' rfl hcarry
    rw [h.carry_mig, RequestPacket.received_received] at hcarry
    exact (Option.some.inj hcarry).symm
  runs := by
    rintro i pktId packet req n effect rfl hroute hruns
    exact ⟨arrivalAt_eq_here hroute, .inr hruns⟩
  executes _ _ := ⟨_, rfl⟩
  reply := by
    rintro i pktId packet req n effect a rfl hroute hruns -
    exact ⟨rfl, received_myTuple _⟩
  carriedReply := by
    rintro i pktId a resp resp' ⟨hid, hdest⟩ hcarry
    have hsame : resp.received = resp := by
      rw [ResponsePacket.received_eq_self, hdest]
      exact paired_makeTupleFromLevel 0 _
    rw [h.carryReply_mig, hsame] at hcarry
    cases hcarry
    exact ⟨hid, hdest⟩
  known hreply := ⟨hreply.1, rfl⟩
  home := by
    rintro i pktId a resp n ⟨-, hdest⟩ hroute
    refine h.eq_of_inside_myTuple ?_
    rw [← hdest]
    exact arrivalAt_eq_here hroute
  start := by
    rintro i packet hreach
    obtain ⟨hdrop, htoward⟩ := h.arrivalAt_named hreach i
    exact ⟨hdrop, fun hc hdest => ⟨fun k => ⟨_, h.carry_mig _⟩, htoward hc hdest⟩⟩
  onward := by
    rintro i pktId packet req n hreach rfl
    obtain ⟨hdrop, htoward⟩ := h.arrivalAt_named hreach n
    exact ⟨hdrop, fun hc hdest => ⟨⟨_, h.carry_mig _⟩, htoward hc hdest⟩⟩
  homeward := by
    rintro i pktId a resp n ⟨-, hdest⟩
    have hroute : mesh.mig.routeReply n resp = arrivalAt (mesh.view n) (myTuple (mesh.view i)) := by
      rw [← hdest]
      rfl
    rw [hroute]
    obtain ⟨hdrop, htoward⟩ := h.arrivalAt_named (named_myTuple i) n
    exact ⟨hdrop, fun hc hdest => ⟨⟨_, h.carryReply_mig _⟩, htoward hc hdest⟩⟩

/-! ## All of them at once -/

variable (N) in
/-- The three exchanges of a network: their calls, pending tables and packets. -/
structure Net where
  search : Courier.State N Int32 SearchCall SearchMigrationPathRequest SearchMigrationPathResponse
    (Option SearchStepResult) SearchStepResult
  explore : Courier.State N Int32 ExploreCall ExploreGNodeRequest ExploreGNodeResponse TupleGNode
    TupleGNode
  mig : Courier.State N Int32 RequestPacket RequestPacket ResponsePacket (Option CoordCall) Unit

/-- Nothing has been asked yet. -/
def Net.empty : Net N := ⟨.empty, .empty, .empty⟩

/-- A step of one of them. -/
inductive Step [DecidableEq N] (mesh : Mesh N) : Net N → Net N → Prop where
  | search {net : Net N} {s} (hstep : mesh.search.Step net.search s) :
      Step mesh net { net with search := s }
  | explore {net : Net N} {s} (hstep : mesh.explore.Step net.explore s) :
      Step mesh net { net with explore := s }
  | mig {net : Net N} {s} (hstep : mesh.mig.Step net.mig s) : Step mesh net { net with mig := s }

variable [DecidableEq N] {net net' : Net N}

/-- A run of the network is a run of each exchange. -/
lemma exchanges_of_run (hrun : Relation.ReflTransGen mesh.Step net net') :
    Relation.ReflTransGen mesh.search.Step net.search net'.search ∧
      Relation.ReflTransGen mesh.explore.Step net.explore net'.explore ∧
      Relation.ReflTransGen mesh.mig.Step net.mig net'.mig := by
  induction hrun with
  | refl => exact ⟨.refl, .refl, .refl⟩
  | tail _ hstep ih =>
      obtain ⟨hsearch, hexplore, hmig⟩ := ih
      cases hstep with
      | search hstep => exact ⟨hsearch.tail hstep, hexplore, hmig⟩
      | explore hstep => exact ⟨hsearch, hexplore.tail hstep, hmig⟩
      | mig hstep => exact ⟨hsearch, hexplore, hmig.tail hstep⟩

/-- **Routed requests are executed and answered as local ones are**: each is executed once, by a
node inside the g-node it is for, and what a call returns is what was computed there. -/
theorem routed_exact [Finite N] (h : mesh.Fixed topology rank)
    (hrun : Relation.ReflTransGen mesh.Step .empty net) :
    Exact mesh.search (fun x => mesh.ReachesHop x.pathHops) net.search ∧
      Exact mesh.explore (fun x => mesh.ReachesHop x.pathHops) net.explore ∧
      Exact mesh.mig (fun packet => mesh.Named packet.dest) net.mig := by
  obtain ⟨hsearch, hexplore, hmig⟩ := exchanges_of_run hrun
  exact ⟨Courier.exact_of_run h.lawful_search hsearch,
    Courier.exact_of_run h.lawful_explore hexplore, Courier.exact_of_run h.lawful_mig hmig⟩

/-! ### Three nodes in a line -/

lemma lineTopology_ne_nil : ([4] : List UInt32) ≠ [] := by simp

lemma lineTopology_pos : ∀ g ∈ ([4] : List UInt32), 0 < g.toNat := by simp

/-- The only level, with room for four. -/
def lineTopology : Topology := ⟨[4], lineTopology_ne_nil, lineTopology_pos⟩

/-- The neighbour towards a position. -/
def nextInLine (n : Fin 3) (pos : UInt32) : Option (Fin 3) :=
  if pos.toNat < n then some (n - 1)
  else if n < 2 then some (n + 1)
  else none

/-- How far it is to a position. -/
def lineRank (hc : HCoord) (n : Fin 3) : ℕ := (n - hc.pos.toNat) + (hc.pos.toNat - n)

lemma nextInLine_closer (n t : Fin 3) (level : ℕ) : UInt32.ofNat n ≠ UInt32.ofNat t →
    ∃ j, nextInLine n (UInt32.ofNat t) = some j ∧
      lineRank ⟨level, UInt32.ofNat t⟩ j < lineRank ⟨level, UInt32.ofNat t⟩ n := by
  simp only [lineRank]
  revert n t
  decide

def line : Mesh (Fin 3) where
  view n := {
    topology := lineTopology
    networkId := 7
    myPos := fun _ => UInt32.ofNat n
    myEldership := fun _ => 0
    subnetlevel := 0
    epsilon := fun _ => 1
    eldership := fun _ _ => 0
    adjacentToMyGnode := fun _ _ => []
    isBootstrapped := true }
  gatewayStub n hc o := o = nextInLine n hc.pos
  reserve _ _ reserve := reserve = fun _ => some ⟨3, 0⟩
  searchRequest := protoPackets.searchRequest
  searchResponse := protoPackets.searchResponse
  exploreRequest := protoPackets.exploreRequest
  exploreResponse := protoPackets.exploreResponse
  migRequest := protoPackets.migRequest
  migResponse := protoPackets.migResponse

lemma fixed_line : line.Fixed lineTopology lineRank where
  sameTopology _ := rfl
  distinct i j h := by
    have hpos : UInt32.ofNat i = UInt32.ofNat j := h 0 le_rfl Nat.one_pos
    clear h
    revert i j
    decide
  gateways n hc := ⟨_, rfl⟩
  closer := by
    rintro n ⟨level, pos⟩ o rfl ⟨hne, t, -, hpos⟩
    obtain rfl : UInt32.ofNat t = pos := hpos
    obtain ⟨j, hj, hrank⟩ := nextInLine_closer n t level hne
    refine ⟨j, hj, fun k hk hlt => ?_, hrank⟩
    have hone : (line.view n).levels = 1 := rfl
    dsimp only at hk
    omega
  levels := by decide
  reserves _ _ := ⟨_, rfl⟩
  granted := by
    rintro n id reserve lvl r rfl ⟨⟩
    decide
  searchRequest := protoPackets_decode.searchRequest
  searchResponse := protoPackets_decode.searchResponse
  exploreRequest := protoPackets_decode.exploreRequest
  exploreResponse := protoPackets_decode.exploreResponse
  migRequest := protoPackets_decode.migRequest
  migResponse := protoPackets_decode.migResponse

/-- The first node of the line asks for the tuple of the last. -/
def lineCall : ExploreCall := ⟨[⟨⟨[2], []⟩, none⟩], 0⟩

/-- The request of that call, as it is on its way. -/
def lineRequest : ExploreGNodeRequest := (line.explore.request 0 5 lineCall).received

/-- It is sent to the node in the middle, and arrives. -/
lemma explored_line : ∃ s, Relation.ReflTransGen line.explore.Step .empty s ∧
    ∃ e ∈ s.log, e.call = 0 := by
  have hfresh : (Courier.State.empty : Courier.State (Fin 3) Int32 ExploreCall ExploreGNodeRequest
      ExploreGNodeResponse TupleGNode TupleGNode).Fresh 0 5 := fun c call hcall => nomatch hcall
  have hsend := Courier.Step.send (m := line.explore) (i := 0) (x := lineCall) (k := 5) (j := 1)
    (h := ⟨0, 2⟩) (q := lineRequest) rfl hfresh rfl (fixed_line.carry_explore _)
  have hinv := hsend.inv fixed_line.lawful_explore Courier.inv_empty
  have hreach : line.ReachesHop lineCall.pathHops := ⟨_, rfl, 2, rfl⟩
  have hcall : [(⟨0, lineCall, some 5⟩ : Courier.Call (Fin 3) Int32 ExploreCall)][0]? =
      some ⟨0, lineCall, some 5⟩ := rfl
  obtain ⟨s, hrun, hlog⟩ := hinv.arrives fixed_line.lawful_explore (List.mem_singleton_self _)
    hcall hreach
  exact ⟨s, .head hsend hrun, hlog⟩

theorem routed_exact_line : ∃ net, Relation.ReflTransGen line.Step .empty net ∧
    (∃ e ∈ net.explore.log, e.call = 0) ∧
      Exact line.search (fun x => line.ReachesHop x.pathHops) net.search ∧
      Exact line.explore (fun x => line.ReachesHop x.pathHops) net.explore ∧
      Exact line.mig (fun packet => line.Named packet.dest) net.mig := by
  obtain ⟨s, hrun, hlog⟩ := explored_line
  have hnet : Relation.ReflTransGen line.Step .empty { Net.empty with explore := s } := by
    clear hlog
    induction hrun with
    | refl => exact .refl
    | tail _ hstep ih => exact .tail ih (.explore hstep)
  exact ⟨_, hnet, hlog, routed_exact fixed_line hnet⟩

end Mesh

end Netsukuku.Hooking
