import Mathlib
import Netsukuku.Core.KeyedMap

/-!
# Requests carried from node to node

A call made at one node is to be executed at another.  Its request is handed over from node to
node, each of which decides afresh where it goes; the node it is for executes it and sends a reply
back in the same way.  The caller knows the reply by a key, which it keeps in a table until the
call ends.  Packets are delayed and overtake each other, but are not lost on the way.

* `Courier` — what the nodes decide: whether a packet is theirs, towards where it goes on, what an
  execution yields.
* `Courier.Step` — one step of a network of such nodes, with any number of calls at once.
* `Courier.Lawful` — the packets stay about their call, and every hand-over brings them closer.
* `Courier.exact_of_run` — then every call is executed once, where it should be, and returns what
  that execution yielded.
-/

namespace Netsukuku

/-- What a node makes of a packet. -/
inductive Arrival (H : Type) where
  | drop
  | here
  | toward (h : H)

/-- What the nodes decide about the packets of one kind. -/
structure Courier (N H K X Q P E A : Type) where
  /-- The nodes a packet may be handed to, or none, as a gateway towards `h`. -/
  gateway : N → H → Option N → Prop
  /-- Where a call is to be executed, as its own node sees it. -/
  dest : N → X → Arrival H
  request : N → K → X → Q
  route : N → Q → Arrival H
  /-- A request as it comes off the wire. -/
  carry : Q → Option Q
  /-- What executing a call at a node may yield. -/
  runsCall : N → X → E → Prop
  runs : N → Q → E → Prop
  answer : E → Option A
  reply : Q → A → P
  routeReply : N → P → Arrival H
  carryReply : P → Option P
  key : P → K
  value : P → A

namespace Courier

/-- A call, with the key of its request if one was sent. -/
structure Call (N K X : Type) where
  origin : N
  args : X
  key : Option K

inductive Status (A : Type) where
  | waiting
  /-- The reply is there, the call has not taken it yet. -/
  | answered (a : A)
  | returned (a : A)
  | failed

/-- The call is over. -/
def Status.Ended {A : Type} : Status A → Prop
  | .returned _ | .failed => True
  | _ => False

/-- A packet on its way: its call, the node it has reached, and all it has been to, latest
first. -/
structure Flight (N Z : Type) where
  call : ℕ
  packet : Z
  node : N
  path : List N

/-- An execution of a call. -/
structure Execution (N E : Type) where
  call : ℕ
  node : N
  effect : E

/-- The calls so far, the tables of the nodes, the packets on their way and the executions. -/
structure State (N K X Q P E A : Type) where
  calls : List (Call N K X)
  status : ℕ → Status A
  pending : N → KeyedMap K ℕ
  requests : List (Flight N Q)
  replies : List (Flight N P)
  log : List (Execution N E)

variable {N H K X Q P E A : Type}

namespace State

def empty : State N K X Q P E A := ⟨[], fun _ => .waiting, fun _ => .empty, [], [], []⟩

/-- A packet of the call is on its way. -/
def Flying (s : State N K X Q P E A) (c : ℕ) : Prop :=
  (∃ f ∈ s.requests, f.call = c) ∨ ∃ f ∈ s.replies, f.call = c

/-- The call is under way, or a packet of it. -/
def Live (s : State N K X Q P E A) (c : ℕ) : Prop := ¬ (s.status c).Ended ∨ s.Flying c

/-- The key is that of no request of the node in flight. -/
def Fresh (s : State N K X Q P E A) (i : N) (k : K) : Prop :=
  ∀ c call, s.calls[c]? = some call → call.origin = i → call.key = some k → ¬ s.Live c

/-- A call that ends at once. -/
def record (s : State N K X Q P E A) (i : N) (x : X) (status : Status A) : State N K X Q P E A :=
  { s with
    calls := s.calls ++ [⟨i, x, none⟩]
    status := Function.update s.status s.calls.length status }

/-- How often the call has been executed, or will be. -/
def count (s : State N K X Q P E A) (c : ℕ) : ℕ :=
  s.requests.countP (fun f => decide (f.call = c)) + s.log.countP fun e => decide (e.call = c)

/-- A reply reaches the node it is for. -/
def deliver [DecidableEq N] [DecidableEq K] (s : State N K X Q P E A) (i : N) (k : K) (a : A) :
    State N K X Q P E A :=
  match (s.pending i).get? k with
  | none => s
  | some c =>
      { s with
        pending := Function.update s.pending i ((s.pending i).erase k)
        status := Function.update s.status c (.answered a) }

end State

/-- What a call that was executed at its own node comes to. -/
def Status.ofAnswer : Option A → Status A
  | some a => .returned a
  | none => .failed

/-- One step of the network. -/
inductive Step [DecidableEq N] [DecidableEq K] (m : Courier N H K X Q P E A) :
    State N K X Q P E A → State N K X Q P E A → Prop where
  /-- A call that goes nowhere, or finds no gateway: its entry is taken back at once. -/
  | refuse {s : State N K X Q P E A} {i : N} {x : X}
      (hdest : m.dest i x = .drop ∨ ∃ h, m.dest i x = .toward h ∧
        (m.gateway i h none ∨ ∃ k, m.carry (m.request i k x) = none)) :
      Step m s (s.record i x .failed)
  /-- A call for a g-node of its own is executed there and then. -/
  | here {s : State N K X Q P E A} {i : N} {x : X} {e : E} (hdest : m.dest i x = .here)
      (hruns : m.runsCall i x e) :
      Step m s { s.record i x (.ofAnswer (m.answer e)) with
        log := s.log ++ [⟨s.calls.length, i, e⟩] }
  | send {s : State N K X Q P E A} {i j : N} {x : X} {h : H} {k : K} {q : Q}
      (hdest : m.dest i x = .toward h) (hfresh : s.Fresh i k) (hgateway : m.gateway i h (some j))
      (hcarry : m.carry (m.request i k x) = some q) :
      Step m s { s with
        calls := s.calls ++ [⟨i, x, some k⟩]
        status := Function.update s.status s.calls.length .waiting
        pending := Function.update s.pending i ((s.pending i).insert k s.calls.length)
        requests := s.requests ++ [⟨s.calls.length, q, j, [j, i]⟩] }
  | run {s : State N K X Q P E A} {l₁ l₂ : List (Flight N Q)} {f : Flight N Q} {e : E}
      (hrequests : s.requests = l₁ ++ f :: l₂) (hroute : m.route f.node f.packet = .here)
      (hruns : m.runs f.node f.packet e) :
      Step m s { s with
        requests := l₁ ++ l₂
        replies := s.replies ++ (m.answer e).toList.map fun a =>
          ⟨f.call, m.reply f.packet a, f.node, [f.node]⟩
        log := s.log ++ [⟨f.call, f.node, e⟩] }
  | handOver {s : State N K X Q P E A} {l₁ l₂ : List (Flight N Q)} {f : Flight N Q} {h : H} {j : N}
      {q : Q} (hrequests : s.requests = l₁ ++ f :: l₂)
      (hroute : m.route f.node f.packet = .toward h) (hgateway : m.gateway f.node h (some j))
      (hcarry : m.carry f.packet = some q) :
      Step m s { s with requests := l₁ ++ ⟨f.call, q, j, j :: f.path⟩ :: l₂ }
  /-- A request that goes nowhere, or finds no gateway, is dropped. -/
  | drop {s : State N K X Q P E A} {l₁ l₂ : List (Flight N Q)} {f : Flight N Q}
      (hrequests : s.requests = l₁ ++ f :: l₂)
      (hroute : m.route f.node f.packet = .drop ∨ ∃ h, m.route f.node f.packet = .toward h ∧
        (m.gateway f.node h none ∨ m.carry f.packet = none)) :
      Step m s { s with requests := l₁ ++ l₂ }
  | deliver {s : State N K X Q P E A} {l₁ l₂ : List (Flight N P)} {f : Flight N P}
      (hreplies : s.replies = l₁ ++ f :: l₂) (hroute : m.routeReply f.node f.packet = .here) :
      Step m s { s.deliver f.node (m.key f.packet) (m.value f.packet) with replies := l₁ ++ l₂ }
  | handOverReply {s : State N K X Q P E A} {l₁ l₂ : List (Flight N P)} {f : Flight N P} {h : H}
      {j : N} {p : P} (hreplies : s.replies = l₁ ++ f :: l₂)
      (hroute : m.routeReply f.node f.packet = .toward h) (hgateway : m.gateway f.node h (some j))
      (hcarry : m.carryReply f.packet = some p) :
      Step m s { s with replies := l₁ ++ ⟨f.call, p, j, j :: f.path⟩ :: l₂ }
  | dropReply {s : State N K X Q P E A} {l₁ l₂ : List (Flight N P)} {f : Flight N P}
      (hreplies : s.replies = l₁ ++ f :: l₂)
      (hroute : m.routeReply f.node f.packet = .drop ∨ ∃ h,
        m.routeReply f.node f.packet = .toward h ∧
          (m.gateway f.node h none ∨ m.carryReply f.packet = none)) :
      Step m s { s with replies := l₁ ++ l₂ }
  | taken {s : State N K X Q P E A} {c : ℕ} {a : A} (hcall : c < s.calls.length)
      (hstatus : s.status c = .answered a) :
      Step m s { s with status := Function.update s.status c (.returned a) }
  /-- A call that times out, or whose request is not acknowledged, takes its entry back. -/
  | fail {s : State N K X Q P E A} {c : ℕ} {call : Call N K X} {k : K}
      (hcall : s.calls[c]? = some call) (hkey : call.key = some k)
      (hstatus : ¬ (s.status c).Ended) :
      Step m s { s with
        status := Function.update s.status c .failed
        pending := Function.update s.pending call.origin ((s.pending call.origin).erase k) }

/-! ## What the decisions have to keep -/

/-- The packets stay about their call, and come closer to where it is to be executed, and home. -/
structure Lawful (m : Courier N H K X Q P E A) (Reach : X → Prop) (About : N → K → X → Q → Prop)
    (AboutReply : N → K → A → P → Prop) (closer : X → N → N → Prop)
    (closerHome : N → N → N → Prop) : Prop where
  order : ∀ x, IsStrictOrder N (closer x)
  orderHome : ∀ i, IsStrictOrder N (closerHome i)
  gateways : ∀ n h, ∃ o, m.gateway n h o
  request : ∀ {i x h k q}, m.dest i x = .toward h → m.carry (m.request i k x) = some q →
    About i k x q
  carried : ∀ {i k x q q'}, About i k x q → m.carry q = some q' → About i k x q'
  runs : ∀ {i k x q n e}, About i k x q → m.route n q = .here → m.runs n q e → m.runsCall n x e
  executes : ∀ {i k x q n}, About i k x q → m.route n q = .here → ∃ e, m.runs n q e
  reply : ∀ {i k x q n e a}, About i k x q → m.route n q = .here → m.runs n q e →
    m.answer e = some a → AboutReply i k a (m.reply q a)
  carriedReply : ∀ {i k a p p'}, AboutReply i k a p → m.carryReply p = some p' →
    AboutReply i k a p'
  known : ∀ {i k a p}, AboutReply i k a p → m.key p = k ∧ m.value p = a
  home : ∀ {i k a p n}, AboutReply i k a p → m.routeReply n p = .here → n = i
  start : ∀ {i x}, Reach x → m.dest i x ≠ .drop ∧ ∀ h, m.dest i x = .toward h →
    (∀ k, ∃ q, m.carry (m.request i k x) = some q) ∧
      ∀ o, m.gateway i h o → ∃ j, o = some j ∧ closer x j i
  onward : ∀ {i k x q n}, Reach x → About i k x q → m.route n q ≠ .drop ∧
    ∀ h, m.route n q = .toward h → (∃ q', m.carry q = some q') ∧
      ∀ o, m.gateway n h o → ∃ j, o = some j ∧ closer x j n
  homeward : ∀ {i k a p n}, AboutReply i k a p → m.routeReply n p ≠ .drop ∧
    ∀ h, m.routeReply n p = .toward h → (∃ p', m.carryReply p = some p') ∧
      ∀ o, m.gateway n h o → ∃ j, o = some j ∧ closerHome i j n

/-- A packet has come closer with every hand-over. -/
structure Flight.Descends {Z : Type} (R : N → N → Prop) (f : Flight N Z) : Prop where
  head : f.path.head? = some f.node
  sorted : f.path.Pairwise R

/-- What holds along every run. -/
structure Inv [DecidableEq K] (m : Courier N H K X Q P E A) (Reach : X → Prop)
    (About : N → K → X → Q → Prop) (AboutReply : N → K → A → P → Prop) (closer : X → N → N → Prop) (closerHome : N → N → N → Prop)
    (s : State N K X Q P E A) : Prop where
  requests : ∀ f ∈ s.requests, ∃ call k, s.calls[f.call]? = some call ∧ call.key = some k ∧
    About call.origin k call.args f.packet ∧ (Reach call.args → f.Descends (closer call.args))
  replies : ∀ f ∈ s.replies, ∃ call k a, s.calls[f.call]? = some call ∧ call.key = some k ∧
    AboutReply call.origin k a f.packet ∧ f.Descends (closerHome call.origin) ∧
      ∃ e ∈ s.log, e.call = f.call ∧ m.answer e.effect = some a
  log : ∀ e ∈ s.log, ∃ call, s.calls[e.call]? = some call ∧
    m.runsCall e.node call.args e.effect
  once : ∀ c call, s.calls[c]? = some call → s.count c ≤ 1 ∧ (Reach call.args → s.count c = 1)
  pending : ∀ i k c, (s.pending i).get? k = some c ↔ ∃ call, s.calls[c]? = some call ∧
    call.origin = i ∧ call.key = some k ∧ s.status c = .waiting
  distinct : ∀ c c' call call' k, s.calls[c]? = some call → s.calls[c']? = some call' →
    call.origin = call'.origin → call.key = some k → call'.key = some k → s.Live c → s.Live c' →
      c = c'
  answered : ∀ c a, c < s.calls.length → s.status c = .answered a ∨ s.status c = .returned a →
    ∃ e ∈ s.log, e.call = c ∧ m.answer e.effect = some a

section Invariant

variable {m : Courier N H K X Q P E A} {Reach : X → Prop} {About : N → K → X → Q → Prop}
  {AboutReply : N → K → A → P → Prop} {closer : X → N → N → Prop} {closerHome : N → N → N → Prop}
  {s s' : State N K X Q P E A}

lemma Flight.Descends.single {Z : Type} {R : N → N → Prop} (c : ℕ) (z : Z) (n : N) :
    (⟨c, z, n, [n]⟩ : Flight N Z).Descends R := ⟨rfl, List.pairwise_singleton R n⟩

/-- A hand-over to a node closer than where the packet is. -/
lemma Flight.Descends.push {Z : Type} {R : N → N → Prop} (hR : IsStrictOrder N R) {f : Flight N Z}
    (h : f.Descends R) {j : N} (hj : R j f.node) (z : Z) :
    (⟨f.call, z, j, j :: f.path⟩ : Flight N Z).Descends R where
  head := rfl
  sorted := by
    obtain ⟨hhead, hsorted⟩ := h
    refine List.pairwise_cons.mpr ⟨fun n hn => ?_, hsorted⟩
    cases hpath : f.path with
    | nil =>
        rw [hpath] at hn
        cases hn
    | cons n₀ path =>
        rw [hpath] at hn hhead hsorted
        cases hhead
        rcases List.mem_cons.mp hn with rfl | hn
        · exact hj
        · exact hR.toIsTrans.trans _ _ _ hj ((List.pairwise_cons.mp hsorted).1 n hn)

/-- So it has been nowhere twice. -/
lemma Flight.Descends.length_le [Finite N] {Z : Type} {R : N → N → Prop} (hR : IsStrictOrder N R)
    {f : Flight N Z} (h : f.Descends R) : f.path.length ≤ Nat.card N := by
  have hnodup : f.path.Nodup := h.sorted.imp fun {a b} hab => by
    rintro rfl
    exact hR.toIrrefl.irrefl a hab
  have := Fintype.ofFinite N
  rw [Nat.card_eq_fintype_card]
  exact hnodup.length_le_card

/-- A call is one that was made before, or the new one. -/
lemma getElem?_push {calls : List (Call N K X)} {new call : Call N K X} {c : ℕ}
    (h : (calls ++ [new])[c]? = some call) :
    calls[c]? = some call ∨ c = calls.length ∧ call = new := by
  rw [List.getElem?_append] at h
  split_ifs at h with hlt
  · exact .inl h
  · obtain ⟨hlt', rfl⟩ := List.getElem?_eq_some_iff.mp h
    rw [List.length_singleton] at hlt'
    exact .inr ⟨by omega, by simp⟩

lemma getElem?_append_of_some {calls : List (Call N K X)} {call : Call N K X} {c : ℕ}
    (h : calls[c]? = some call) (more : List (Call N K X)) : (calls ++ more)[c]? = some call := by
  rw [List.getElem?_append_left (List.getElem?_eq_some_iff.mp h).1, h]

lemma ne_length_of_some {calls : List (Call N K X)} {call : Call N K X} {c : ℕ}
    (h : calls[c]? = some call) : c ≠ calls.length := (List.getElem?_eq_some_iff.mp h).1.ne

lemma State.Live.mono {c : ℕ} (h : s'.Live c)
    (hstatus : (s.status c).Ended → (s'.status c).Ended)
    (hflying : s'.Flying c → s.Flying c) : s.Live c := by
  rcases h with hstill | hfly
  · exact .inl fun hended => hstill (hstatus hended)
  · exact .inr (hflying hfly)

/-- A packet that is left where it was. -/
lemma mem_of_rest {Z : Type} {l l₁ l₂ : List Z} {f z : Z} (hl : l = l₁ ++ f :: l₂)
    (hz : z ∈ l₁ ++ l₂) : z ∈ l := by
  rw [hl]
  rcases List.mem_append.mp hz with hz | hz
  · exact List.mem_append_left _ hz
  · exact List.mem_append_right _ (List.mem_cons_of_mem f hz)

lemma mem_of_split {Z : Type} {l l₁ l₂ : List Z} {f : Z} (hl : l = l₁ ++ f :: l₂) : f ∈ l := by
  rw [hl]
  exact List.mem_append_right _ List.mem_cons_self

/-- The packet in the middle, or one that is left where it was. -/
lemma mem_replaced {Z : Type} {l₁ l₂ : List Z} {f z : Z} (hz : z ∈ l₁ ++ f :: l₂) :
    z = f ∨ z ∈ l₁ ++ l₂ := by
  rcases List.mem_append.mp hz with hz | hz
  · exact .inr (List.mem_append_left _ hz)
  · exact (List.mem_cons.mp hz).imp_right (List.mem_append_right _)

variable [DecidableEq K]

lemma inv_empty : Inv m Reach About AboutReply closer closerHome (.empty : State N K X Q P E A) where
  requests f hf := absurd hf List.not_mem_nil
  replies f hf := absurd hf List.not_mem_nil
  log e he := absurd he List.not_mem_nil
  once c call hcall := by simp [State.empty] at hcall
  pending i k c := by simp [State.empty]
  distinct c c' call call' k hcall := by simp [State.empty] at hcall
  answered c a hc := absurd hc (Nat.not_lt_zero c)

/-- An entry of a table belongs to a call that waits, and so to one that is live. -/
lemma Inv.live_of_pending (h : Inv m Reach About AboutReply closer closerHome s) {i : N} {k : K}
    {c : ℕ} (hget : (s.pending i).get? k = some c) : s.Live c := by
  obtain ⟨call, -, -, -, hstatus⟩ := (h.pending i k c).mp hget
  refine .inl ?_
  rw [hstatus]
  exact id

/-- The packets on their way are about known calls. -/
lemma Inv.lt_of_flying (h : Inv m Reach About AboutReply closer closerHome s) {c : ℕ}
    (hflying : s.Flying c) : c < s.calls.length := by
  rcases hflying with ⟨f, hf, rfl⟩ | ⟨f, hf, rfl⟩
  · obtain ⟨call, k, hcall, -⟩ := h.requests f hf
    exact (List.getElem?_eq_some_iff.mp hcall).1
  · obtain ⟨call, k, a, hcall, -⟩ := h.replies f hf
    exact (List.getElem?_eq_some_iff.mp hcall).1

/-- A call that has not been made has not been executed. -/
lemma Inv.count_new (h : Inv m Reach About AboutReply closer closerHome s) :
    s.count s.calls.length = 0 := by
  rw [State.count, Nat.add_eq_zero_iff, List.countP_eq_zero, List.countP_eq_zero]
  refine ⟨fun f hf => ?_, fun e he => ?_⟩
  · rw [decide_eq_true_eq]
    exact (h.lt_of_flying (.inl ⟨f, hf, rfl⟩)).ne
  · obtain ⟨call, hcall, -⟩ := h.log e he
    rw [decide_eq_true_eq]
    exact (List.getElem?_eq_some_iff.mp hcall).1.ne

/-- A call that ends at once, executed or not. -/
lemma Inv.record (h : Inv m Reach About AboutReply closer closerHome s) {i : N} {x : X}
    {effect : Option E} {status : Status A} (hended : status.Ended)
    (hruns : ∀ e, effect = some e → m.runsCall i x e) (hreach : Reach x → effect.isSome = true)
    (hreturned : ∀ a, status = .returned a → ∃ e, effect = some e ∧ m.answer e = some a) :
    Inv m Reach About AboutReply closer closerHome
      { s.record i x status with
        log := s.log ++ effect.toList.map fun e => ⟨s.calls.length, i, e⟩ } := by
  have hlive : ∀ c, ∀ call : Call N K X, s.calls[c]? = some call →
      State.Live { s.record i x status with
        log := s.log ++ effect.toList.map fun e => ⟨s.calls.length, i, e⟩ } c → s.Live c := by
    intro c call hcall hl
    refine hl.mono (fun hold => ?_) id
    simp only [State.record]
    rw [Function.update_of_ne (ne_length_of_some hcall)]
    exact hold
  refine ⟨fun f hf => ?_, fun f hf => ?_, fun e he => ?_, fun c call hcall => ?_, fun j k c => ?_,
    fun c c' call call' k hcall hcall' horigin hk hk' hl hl' => ?_, fun c a hc hstatus => ?_⟩
  · obtain ⟨call, k, hcall, hrest⟩ := h.requests f hf
    exact ⟨call, k, getElem?_append_of_some hcall _, hrest⟩
  · obtain ⟨call, k, a, hcall, hk, hreply, hdesc, e, he, hrest⟩ := h.replies f hf
    exact ⟨call, k, a, getElem?_append_of_some hcall _, hk, hreply, hdesc, e,
      List.mem_append_left _ he, hrest⟩
  · rcases List.mem_append.mp he with he | he
    · obtain ⟨call, hcall, hrun⟩ := h.log e he
      exact ⟨call, getElem?_append_of_some hcall _, hrun⟩
    · obtain ⟨effect', heffect, rfl⟩ := List.mem_map.mp he
      exact ⟨⟨i, x, none⟩, by simp [State.record], hruns effect' (Option.mem_toList.mp heffect)⟩
  · rcases getElem?_push hcall with hold | ⟨rfl, rfl⟩
    · have hzero : (effect.toList.map fun e => (⟨s.calls.length, i, e⟩ : Execution N E)).countP
          (fun e => decide (e.call = c)) = 0 := by
        rw [List.countP_eq_zero]
        intro e he
        obtain ⟨effect', -, rfl⟩ := List.mem_map.mp he
        rw [decide_eq_true_eq]
        exact (ne_length_of_some hold).symm
      simp only [State.count, State.record, List.countP_append, hzero, Nat.add_zero]
      exact h.once c call hold
    · have hnew := h.count_new
      simp only [State.count, State.record, List.countP_append] at hnew ⊢
      cases effect with
      | none =>
          simp only [Option.toList_none, List.map_nil, List.countP_nil]
          exact ⟨by omega, fun hx => by cases hreach hx⟩
      | some e =>
          simp only [Option.toList_some, List.map_cons, List.map_nil, List.countP_singleton,
            decide_true, if_true]
          omega
  · refine (h.pending j k c).trans ⟨?_, ?_⟩
    · rintro ⟨call, hcall, horigin, hk, hstatus⟩
      refine ⟨call, getElem?_append_of_some hcall _, horigin, hk, ?_⟩
      simp only [State.record]
      rw [Function.update_of_ne (ne_length_of_some hcall)]
      exact hstatus
    · rintro ⟨call, hcall, horigin, hk, hstatus⟩
      rcases getElem?_push hcall with hold | ⟨rfl, rfl⟩
      · simp only [State.record] at hstatus
        rw [Function.update_of_ne (ne_length_of_some hold)] at hstatus
        exact ⟨call, hold, horigin, hk, hstatus⟩
      · cases hk
  · rcases getElem?_push hcall with hold | ⟨rfl, rfl⟩
    · rcases getElem?_push hcall' with hold' | ⟨rfl, rfl⟩
      · exact h.distinct c c' call call' k hold hold' horigin hk hk' (hlive c call hold hl)
          (hlive c' call' hold' hl')
      · cases hk'
    · cases hk
  · by_cases hlt : c < s.calls.length
    · simp only [State.record] at hstatus
      rw [Function.update_of_ne hlt.ne] at hstatus
      obtain ⟨e, he, hrest⟩ := h.answered c a hlt hstatus
      exact ⟨e, List.mem_append_left _ he, hrest⟩
    · obtain rfl : c = s.calls.length := by
        simp only [State.record, List.length_append, List.length_singleton] at hc
        omega
      simp only [State.record, Function.update_self] at hstatus
      rcases hstatus with rfl | rfl
      · exact hended.elim
      · obtain ⟨e, rfl, hanswer⟩ := hreturned a rfl
        exact ⟨_, List.mem_append_right _ (List.mem_singleton_self _), rfl, hanswer⟩

/-- The requests on their way change, but not what they are about. -/
lemma Inv.with_requests (h : Inv m Reach About AboutReply closer closerHome s)
    {requests : List (Flight N Q)}
    (hrequests : ∀ f ∈ requests, s.Flying f.call ∧ ∃ call k, s.calls[f.call]? = some call ∧
      call.key = some k ∧ About call.origin k call.args f.packet ∧
        (Reach call.args → f.Descends (closer call.args)))
    (hcount : ∀ c call, s.calls[c]? = some call →
      (({ s with requests } : State N K X Q P E A).count c ≤ s.count c ∧
        (Reach call.args → ({ s with requests } : State N K X Q P E A).count c = s.count c))) :
    Inv m Reach About AboutReply closer closerHome { s with requests } where
  requests f hf := (hrequests f hf).2
  replies := h.replies
  log := h.log
  once c call hcall := by
    obtain ⟨hle, hsame⟩ := hcount c call hcall
    obtain ⟨hone, hreach⟩ := h.once c call hcall
    exact ⟨hle.trans hone, fun hx => (hsame hx).trans (hreach hx)⟩
  pending := h.pending
  distinct c c' call call' k hcall hcall' horigin hk hk' hl hl' := by
    have hlive : ∀ c, ({ s with requests } : State N K X Q P E A).Live c → s.Live c :=
      fun c hl => hl.mono id fun hfly => by
        rcases hfly with ⟨f, hf, rfl⟩ | hreply
        · exact (hrequests f hf).1
        · exact .inr hreply
    exact h.distinct c c' call call' k hcall hcall' horigin hk hk' (hlive c hl) (hlive c' hl')
  answered := h.answered

/-- So may the replies. -/
lemma Inv.with_replies (h : Inv m Reach About AboutReply closer closerHome s)
    {replies : List (Flight N P)}
    (hreplies : ∀ f ∈ replies, s.Flying f.call ∧ ∃ call k a, s.calls[f.call]? = some call ∧
      call.key = some k ∧ AboutReply call.origin k a f.packet ∧
        f.Descends (closerHome call.origin) ∧
          ∃ e ∈ s.log, e.call = f.call ∧ m.answer e.effect = some a) :
    Inv m Reach About AboutReply closer closerHome { s with replies } where
  requests := h.requests
  replies f hf := (hreplies f hf).2
  log := h.log
  once := h.once
  pending := h.pending
  distinct c c' call call' k hcall hcall' horigin hk hk' hl hl' := by
    have hlive : ∀ c, ({ s with replies } : State N K X Q P E A).Live c → s.Live c :=
      fun c hl => hl.mono id fun hfly => by
        rcases hfly with hrequest | ⟨f, hf, rfl⟩
        · exact .inl hrequest
        · exact (hreplies f hf).1
    exact h.distinct c c' call call' k hcall hcall' horigin hk hk' (hlive c hl) (hlive c' hl')
  answered := h.answered

lemma Inv.handOver (lawful : Lawful m Reach About AboutReply closer closerHome)
    (h : Inv m Reach About AboutReply closer closerHome s) {l₁ l₂ : List (Flight N Q)}
    {f : Flight N Q} {dir : H} {j : N} {q : Q} (hrequests : s.requests = l₁ ++ f :: l₂)
    (hroute : m.route f.node f.packet = .toward dir) (hgateway : m.gateway f.node dir (some j))
    (hcarry : m.carry f.packet = some q) :
    Inv m Reach About AboutReply closer closerHome
      { s with requests := l₁ ++ ⟨f.call, q, j, j :: f.path⟩ :: l₂ } := by
  refine h.with_requests (fun z hz => ?_) fun c call hcall => ?_
  · rcases mem_replaced hz with rfl | hz
    · obtain ⟨call, k, hcall, hk, habout, hdesc⟩ := h.requests f (mem_of_split hrequests)
      refine ⟨.inl ⟨f, mem_of_split hrequests, rfl⟩, call, k, hcall, hk,
        lawful.carried habout hcarry, fun hx => ?_⟩
      obtain ⟨j', hj', hcloser⟩ := ((lawful.onward hx habout).2 dir hroute).2 _ hgateway
      cases hj'
      exact (hdesc hx).push (lawful.order _) hcloser q
    · exact ⟨.inl ⟨z, mem_of_rest hrequests hz, rfl⟩, h.requests z (mem_of_rest hrequests hz)⟩
  · have hsame : ({ s with requests := l₁ ++ ⟨f.call, q, j, j :: f.path⟩ :: l₂ } :
        State N K X Q P E A).count c = s.count c := by
      simp only [State.count, hrequests, List.countP_append, List.countP_cons]
    exact ⟨hsame.le, fun _ => hsame⟩

/-- Only what cannot be reached is dropped. -/
lemma Inv.drop (lawful : Lawful m Reach About AboutReply closer closerHome)
    (h : Inv m Reach About AboutReply closer closerHome s) {l₁ l₂ : List (Flight N Q)}
    {f : Flight N Q} (hrequests : s.requests = l₁ ++ f :: l₂)
    (hroute : m.route f.node f.packet = .drop ∨ ∃ dir, m.route f.node f.packet = .toward dir ∧
      (m.gateway f.node dir none ∨ m.carry f.packet = none)) :
    Inv m Reach About AboutReply closer closerHome { s with requests := l₁ ++ l₂ } := by
  obtain ⟨call₀, k₀, hcall₀, hk₀, habout, hdesc⟩ := h.requests f (mem_of_split hrequests)
  have hunreached : ¬ Reach call₀.args := by
    intro hx
    obtain ⟨hdrop, htoward⟩ := lawful.onward hx habout
    rcases hroute with hroute | ⟨dir, hroute, hgateway | hcarry⟩
    · exact hdrop hroute
    · obtain ⟨j, hj, -⟩ := (htoward dir hroute).2 _ hgateway
      cases hj
    · obtain ⟨q, hq⟩ := (htoward dir hroute).1
      rw [hcarry] at hq
      cases hq
  refine h.with_requests (fun z hz => ⟨.inl ⟨z, mem_of_rest hrequests hz, rfl⟩,
    h.requests z (mem_of_rest hrequests hz)⟩) fun c call hcall => ?_
  simp only [State.count, hrequests, List.countP_append, List.countP_cons]
  refine ⟨by omega, fun hx => ?_⟩
  have hne : f.call ≠ c := by
    rintro rfl
    rw [hcall₀] at hcall
    cases hcall
    exact hunreached hx
  simp [hne]

/-- **An execution** takes the request, is logged, and sends the reply. -/
lemma Inv.run (lawful : Lawful m Reach About AboutReply closer closerHome)
    (h : Inv m Reach About AboutReply closer closerHome s) {l₁ l₂ : List (Flight N Q)}
    {f : Flight N Q} {e : E} (hrequests : s.requests = l₁ ++ f :: l₂)
    (hroute : m.route f.node f.packet = .here) (hruns : m.runs f.node f.packet e) :
    Inv m Reach About AboutReply closer closerHome
      { s with
        requests := l₁ ++ l₂
        replies := s.replies ++ (m.answer e).toList.map fun a =>
          ⟨f.call, m.reply f.packet a, f.node, [f.node]⟩
        log := s.log ++ [⟨f.call, f.node, e⟩] } := by
  have hf := mem_of_split hrequests
  obtain ⟨call₀, k₀, hcall₀, hk₀, habout, -⟩ := h.requests f hf
  refine ⟨fun z hz => h.requests z (mem_of_rest hrequests hz), fun z hz => ?_, fun e' he' => ?_,
    fun c call hcall => ?_, h.pending,
    fun c c' call call' k hcall hcall' horigin hk hk' hl hl' => ?_, fun c a hc hstatus => ?_⟩
  · rcases List.mem_append.mp hz with hz | hz
    · obtain ⟨call, k, a, hcall, hk, hreply, hdesc, e', he', hrest⟩ := h.replies z hz
      exact ⟨call, k, a, hcall, hk, hreply, hdesc, e', List.mem_append_left _ he', hrest⟩
    · obtain ⟨a, ha, rfl⟩ := List.mem_map.mp hz
      rw [Option.mem_toList] at ha
      exact ⟨call₀, k₀, a, hcall₀, hk₀, lawful.reply habout hroute hruns ha,
        Flight.Descends.single _ _ _, _, List.mem_append_right _ (List.mem_singleton_self _), rfl,
        ha⟩
  · rcases List.mem_append.mp he' with he' | he'
    · exact h.log e' he'
    · rw [List.mem_singleton.mp he']
      exact ⟨call₀, hcall₀, lawful.runs habout hroute hruns⟩
  · have hsame := h.once c call hcall
    simp only [State.count, hrequests, List.countP_append, List.countP_cons,
      List.countP_nil] at hsame ⊢
    obtain ⟨hle, hreach⟩ := hsame
    refine ⟨by omega, fun hx => ?_⟩
    have hone := hreach hx
    omega
  · have hlive : ∀ c, State.Live { s with
        requests := l₁ ++ l₂
        replies := s.replies ++ (m.answer e).toList.map fun a =>
          ⟨f.call, m.reply f.packet a, f.node, [f.node]⟩
        log := s.log ++ [⟨f.call, f.node, e⟩] } c → s.Live c := fun c hl => hl.mono id fun hfly => by
      rcases hfly with ⟨z, hz, rfl⟩ | ⟨z, hz, rfl⟩
      · exact .inl ⟨z, mem_of_rest hrequests hz, rfl⟩
      · rcases List.mem_append.mp hz with hz | hz
        · exact .inr ⟨z, hz, rfl⟩
        · obtain ⟨a, -, rfl⟩ := List.mem_map.mp hz
          exact .inl ⟨f, hf, rfl⟩
    exact h.distinct c c' call call' k hcall hcall' horigin hk hk' (hlive c hl) (hlive c' hl')
  · obtain ⟨e', he', hrest⟩ := h.answered c a hc hstatus
    exact ⟨e', List.mem_append_left _ he', hrest⟩

lemma Inv.handOverReply (lawful : Lawful m Reach About AboutReply closer closerHome)
    (h : Inv m Reach About AboutReply closer closerHome s) {l₁ l₂ : List (Flight N P)}
    {f : Flight N P} {dir : H} {j : N} {p : P} (hreplies : s.replies = l₁ ++ f :: l₂)
    (hroute : m.routeReply f.node f.packet = .toward dir)
    (hgateway : m.gateway f.node dir (some j)) (hcarry : m.carryReply f.packet = some p) :
    Inv m Reach About AboutReply closer closerHome
      { s with replies := l₁ ++ ⟨f.call, p, j, j :: f.path⟩ :: l₂ } := by
  refine h.with_replies fun z hz => ?_
  rcases mem_replaced hz with rfl | hz
  · obtain ⟨call, k, a, hcall, hk, hreply, hdesc, hexecuted⟩ := h.replies f (mem_of_split hreplies)
    obtain ⟨j', hj', hcloser⟩ := ((lawful.homeward hreply).2 dir hroute).2 _ hgateway
    cases hj'
    exact ⟨.inr ⟨f, mem_of_split hreplies, rfl⟩, call, k, a, hcall, hk,
      lawful.carriedReply hreply hcarry, hdesc.push (lawful.orderHome _) hcloser p, hexecuted⟩
  · exact ⟨.inr ⟨z, mem_of_rest hreplies hz, rfl⟩, h.replies z (mem_of_rest hreplies hz)⟩

/-- A call takes its answer. -/
lemma Inv.taken (h : Inv m Reach About AboutReply closer closerHome s) {c : ℕ} {a : A}
    (hc : c < s.calls.length) (hstatus : s.status c = .answered a) :
    Inv m Reach About AboutReply closer closerHome
      { s with status := Function.update s.status c (.returned a) } := by
  refine ⟨h.requests, h.replies, h.log, h.once, fun i k c' => ?_,
    fun c₁ c₂ call₁ call₂ k hcall₁ hcall₂ horigin hk₁ hk₂ hl₁ hl₂ => ?_, fun c' a' hc' hst => ?_⟩
  · refine (h.pending i k c').trans (exists_congr fun call' => and_congr_right fun hcall' =>
      and_congr_right fun horigin => and_congr_right fun hk' => ?_)
    dsimp only
    by_cases hsame : c' = c
    · subst hsame
      rw [Function.update_self, hstatus]
      constructor <;> rintro ⟨⟩
    · rw [Function.update_of_ne hsame]
  · have hlive : ∀ c', State.Live { s with
        status := Function.update s.status c (.returned a) } c' → s.Live c' := fun c' hl =>
      hl.mono (fun hended => by
        dsimp only
        by_cases hsame : c' = c
        · subst hsame
          rw [Function.update_self]
          trivial
        · rw [Function.update_of_ne hsame]
          exact hended) id
    exact h.distinct c₁ c₂ call₁ call₂ k hcall₁ hcall₂ horigin hk₁ hk₂ (hlive c₁ hl₁) (hlive c₂ hl₂)
  · dsimp only at hst
    by_cases hsame : c' = c
    · subst hsame
      rw [Function.update_self] at hst
      rcases hst with hst | hst
      · cases hst
      · cases hst
        exact h.answered c' a hc (.inl hstatus)
    · rw [Function.update_of_ne hsame] at hst
      exact h.answered c' a' hc' hst

variable [DecidableEq N]

/-- A request is sent under a fresh key. -/
lemma Inv.send (h : Inv m Reach About AboutReply closer closerHome s) {i j : N} {x : X} {k : K}
    {q : Q} (hfresh : s.Fresh i k) (habout : About i k x q)
    (hcloser : Reach x → closer x j i) :
    Inv m Reach About AboutReply closer closerHome
      { s with
        calls := s.calls ++ [⟨i, x, some k⟩]
        status := Function.update s.status s.calls.length .waiting
        pending := Function.update s.pending i ((s.pending i).insert k s.calls.length)
        requests := s.requests ++ [⟨s.calls.length, q, j, [j, i]⟩] } := by
  have hlive : ∀ c, ∀ call : Call N K X, s.calls[c]? = some call →
      State.Live { s with
        calls := s.calls ++ [⟨i, x, some k⟩]
        status := Function.update s.status s.calls.length .waiting
        pending := Function.update s.pending i ((s.pending i).insert k s.calls.length)
        requests := s.requests ++ [⟨s.calls.length, q, j, [j, i]⟩] } c → s.Live c := by
    intro c call hcall hl
    refine hl.mono (fun hold => ?_) ?_
    · dsimp only
      rw [Function.update_of_ne (ne_length_of_some hcall)]
      exact hold
    · rintro (⟨f, hf, rfl⟩ | hreply)
      · rcases List.mem_append.mp hf with hf | hf
        · exact .inl ⟨f, hf, rfl⟩
        · rw [List.mem_singleton.mp hf] at hcall
          exact absurd rfl (ne_length_of_some hcall)
      · exact .inr hreply
  refine ⟨fun f hf => ?_, fun f hf => ?_, fun e he => ?_, fun c call hcall => ?_, fun i' k' c => ?_,
    fun c c' call call' k' hcall hcall' horigin hk hk' hl hl' => ?_, fun c a hc hstatus => ?_⟩
  · rcases List.mem_append.mp hf with hf | hf
    · obtain ⟨call, k', hcall, hrest⟩ := h.requests f hf
      exact ⟨call, k', getElem?_append_of_some hcall _, hrest⟩
    · rw [List.mem_singleton.mp hf]
      refine ⟨⟨i, x, some k⟩, k, by simp, rfl, habout, fun hx => ⟨rfl, ?_⟩⟩
      exact List.pairwise_pair.mpr (hcloser hx)
  · obtain ⟨call, k', a, hcall, hrest⟩ := h.replies f hf
    exact ⟨call, k', a, getElem?_append_of_some hcall _, hrest⟩
  · obtain ⟨call, hcall, hrun⟩ := h.log e he
    exact ⟨call, getElem?_append_of_some hcall _, hrun⟩
  · rcases getElem?_push hcall with hold | ⟨rfl, rfl⟩
    · have hne := (ne_length_of_some hold).symm
      simp only [State.count, List.countP_append, List.countP_singleton, decide_eq_true_eq, hne,
        if_false, Nat.add_zero]
      exact h.once c call hold
    · have hnew := h.count_new
      simp only [State.count] at hnew
      simp only [State.count, List.countP_append, List.countP_singleton, decide_true, if_true]
      omega
  · by_cases hsame : i' = i ∧ k' = k
    · obtain ⟨rfl, rfl⟩ := hsame
      dsimp only
      rw [Function.update_self, KeyedMap.get?_insert_self]
      constructor
      · rintro ⟨⟩
        exact ⟨⟨i', x, some k'⟩, by simp, rfl, rfl, Function.update_self _ _ _⟩
      · rintro ⟨call, hcall, horigin, hk, hstatus⟩
        rcases getElem?_push hcall with hold | ⟨rfl, -⟩
        · refine absurd (.inl ?_) (hfresh c call hold horigin hk)
          rw [Function.update_of_ne (ne_length_of_some hold)] at hstatus
          rw [hstatus]
          exact id
        · rfl
    · have hget : (Function.update s.pending i ((s.pending i).insert k s.calls.length) i').get? k' =
          (s.pending i').get? k' := by
        by_cases hi : i' = i
        · subst hi
          rw [Function.update_self]
          exact KeyedMap.get?_insert_of_ne _ _ fun hk => hsame ⟨rfl, hk⟩
        · rw [Function.update_of_ne hi]
      rw [hget]
      refine (h.pending i' k' c).trans ⟨?_, ?_⟩
      · rintro ⟨call, hcall, horigin, hk, hstatus⟩
        refine ⟨call, getElem?_append_of_some hcall _, horigin, hk, ?_⟩
        dsimp only
        rw [Function.update_of_ne (ne_length_of_some hcall)]
        exact hstatus
      · rintro ⟨call, hcall, horigin, hk, hstatus⟩
        rcases getElem?_push hcall with hold | ⟨rfl, rfl⟩
        · dsimp only at hstatus
          rw [Function.update_of_ne (ne_length_of_some hold)] at hstatus
          exact ⟨call, hold, horigin, hk, hstatus⟩
        · exact absurd ⟨horigin.symm, (Option.some.inj hk).symm⟩ hsame
  · rcases getElem?_push hcall with hold | ⟨rfl, rfl⟩
    · rcases getElem?_push hcall' with hold' | ⟨rfl, rfl⟩
      · exact h.distinct c c' call call' k' hold hold' horigin hk hk' (hlive c call hold hl)
          (hlive c' call' hold' hl')
      · cases hk'
        exact absurd (hlive c call hold hl) (hfresh c call hold horigin hk)
    · rcases getElem?_push hcall' with hold' | ⟨rfl, -⟩
      · cases hk
        exact absurd (hlive c' call' hold' hl') (hfresh c' call' hold' horigin.symm hk')
      · rfl
  · by_cases hlt : c < s.calls.length
    · dsimp only at hstatus
      rw [Function.update_of_ne hlt.ne] at hstatus
      exact h.answered c a hlt hstatus
    · obtain rfl : c = s.calls.length := by
        dsimp only at hc
        rw [List.length_append, List.length_singleton] at hc
        omega
      dsimp only at hstatus
      rw [Function.update_self] at hstatus
      rcases hstatus with hstatus | hstatus <;> cases hstatus

/-- A call that was under way is settled, and its entry is taken out of the table. -/
lemma Inv.settle (h : Inv m Reach About AboutReply closer closerHome s) {c : ℕ}
    {call : Call N K X} {k : K} {status : Status A} (hcall : s.calls[c]? = some call)
    (hk : call.key = some k) (hopen : ¬ (s.status c).Ended) (hstatus : status ≠ .waiting)
    (hanswered : ∀ a, status = .answered a ∨ status = .returned a →
      ∃ e ∈ s.log, e.call = c ∧ m.answer e.effect = some a) :
    Inv m Reach About AboutReply closer closerHome
      { s with
        status := Function.update s.status c status
        pending := Function.update s.pending call.origin ((s.pending call.origin).erase k) } := by
  refine ⟨h.requests, h.replies, h.log, h.once, fun i k' c' => ?_,
    fun c₁ c₂ call₁ call₂ k' hcall₁ hcall₂ horigin hk₁ hk₂ hl₁ hl₂ => ?_, fun c' a hc' hst => ?_⟩
  · by_cases hsame : i = call.origin ∧ k' = k
    · obtain ⟨rfl, rfl⟩ := hsame
      dsimp only
      rw [Function.update_self, KeyedMap.get?_erase_self]
      constructor
      · rintro ⟨⟩
      · rintro ⟨call', hcall', horigin, hk', hwait⟩
        -- another call that waits under this key would be live beside this one
        by_cases hc : c' = c
        · subst hc
          rw [Function.update_self] at hwait
          exact absurd hwait hstatus
        · rw [Function.update_of_ne hc] at hwait
          refine absurd (h.distinct c' c call' call k' hcall' hcall horigin hk' hk (.inl ?_)
            (.inl hopen)) hc
          rw [hwait]
          exact id
    · have hget : (Function.update s.pending call.origin ((s.pending call.origin).erase k) i).get?
          k' = (s.pending i).get? k' := by
        by_cases hi : i = call.origin
        · subst hi
          rw [Function.update_self]
          exact KeyedMap.get?_erase_of_ne _ fun hk' => hsame ⟨rfl, hk'⟩
        · rw [Function.update_of_ne hi]
      dsimp only
      rw [hget]
      refine (h.pending i k' c').trans (exists_congr fun call' => and_congr_right fun hcall' =>
        and_congr_right fun horigin => and_congr_right fun hk' => ?_)
      have hc : c' ≠ c := by
        rintro rfl
        rw [hcall] at hcall'
        cases hcall'
        exact hsame ⟨horigin.symm, Option.some.inj (hk'.symm.trans hk)⟩
      rw [Function.update_of_ne hc]
  · have hlive : ∀ c', State.Live { s with
        status := Function.update s.status c status
        pending := Function.update s.pending call.origin ((s.pending call.origin).erase k) } c' →
          s.Live c' := fun c' hl => hl.mono (fun hended => by
      dsimp only
      by_cases hc : c' = c
      · subst hc
        exact absurd hended hopen
      · rw [Function.update_of_ne hc]
        exact hended) id
    exact h.distinct c₁ c₂ call₁ call₂ k' hcall₁ hcall₂ horigin hk₁ hk₂ (hlive c₁ hl₁)
      (hlive c₂ hl₂)
  · dsimp only at hst
    by_cases hc : c' = c
    · subst hc
      rw [Function.update_self] at hst
      exact hanswered a hst
    · rw [Function.update_of_ne hc] at hst
      exact h.answered c' a hc' hst

/-- **A reply that comes home** answers the call it is about, or nobody. -/
lemma Inv.deliver (lawful : Lawful m Reach About AboutReply closer closerHome)
    (h : Inv m Reach About AboutReply closer closerHome s) {l₁ l₂ : List (Flight N P)}
    {f : Flight N P} (hreplies : s.replies = l₁ ++ f :: l₂)
    (hroute : m.routeReply f.node f.packet = .here) :
    Inv m Reach About AboutReply closer closerHome
      { s.deliver f.node (m.key f.packet) (m.value f.packet) with replies := l₁ ++ l₂ } := by
  have hf := mem_of_split hreplies
  obtain ⟨call, k, a, hcall, hk, hreply, -, hexecuted⟩ := h.replies f hf
  obtain ⟨hkey, hvalue⟩ := lawful.known hreply
  have hnode := lawful.home hreply hroute
  have hrest : Inv m Reach About AboutReply closer closerHome { s with replies := l₁ ++ l₂ } :=
    h.with_replies fun z hz => ⟨.inr ⟨z, mem_of_rest hreplies hz, rfl⟩,
      h.replies z (mem_of_rest hreplies hz)⟩
  rw [hnode, hkey, hvalue, State.deliver]
  cases hget : (s.pending call.origin).get? k with
  | none => exact hrest
  | some c =>
      obtain ⟨call', hcall', horigin, hk', hwait⟩ := (h.pending _ _ _).mp hget
      obtain rfl : c = f.call :=
        h.distinct c f.call call' call k hcall' hcall horigin hk' hk (h.live_of_pending hget)
          (.inr (.inr ⟨f, hf, rfl⟩))
      refine hrest.settle hcall hk ?_ (nofun : Status.answered a ≠ .waiting) ?_
      · rw [hwait]
        exact id
      · rintro a' (ha' | ha')
        · cases ha'
          exact hexecuted
        · cases ha'

/-- **One step keeps the invariant.** -/
theorem Step.inv (lawful : Lawful m Reach About AboutReply closer closerHome) (hstep : m.Step s s')
    (h : Inv m Reach About AboutReply closer closerHome s) :
    Inv m Reach About AboutReply closer closerHome s' := by
  cases hstep with
  | @refuse i x hdest =>
      have hunreached : ¬ Reach x := by
        intro hx
        obtain ⟨hdrop, htoward⟩ := lawful.start (i := i) hx
        rcases hdest with hdest | ⟨dir, hdest, hgateway | ⟨k, hcarry⟩⟩
        · exact hdrop hdest
        · obtain ⟨j, hj, -⟩ := (htoward dir hdest).2 _ hgateway
          cases hj
        · obtain ⟨q, hq⟩ := (htoward dir hdest).1 k
          rw [hcarry] at hq
          cases hq
      have hrecord : Inv m Reach About AboutReply closer closerHome
          { s.record i x .failed with
            log := s.log ++ (none : Option E).toList.map fun e => ⟨s.calls.length, i, e⟩ } :=
        h.record trivial nofun (fun hx => absurd hx hunreached) nofun
      rw [Option.toList_none, List.map_nil, List.append_nil] at hrecord
      exact hrecord
  | @here i x e hdest hruns =>
      have hended : (Status.ofAnswer (m.answer e)).Ended := by cases m.answer e <;> trivial
      have hrecord : Inv m Reach About AboutReply closer closerHome
          { s.record i x (.ofAnswer (m.answer e)) with
            log := s.log ++ (some e).toList.map fun e => ⟨s.calls.length, i, e⟩ } := by
        refine h.record hended ?_ (fun _ => rfl) ?_
        · rintro e' ⟨⟩
          exact hruns
        · intro a ha
          refine ⟨e, rfl, ?_⟩
          cases hanswer : m.answer e with
          | none =>
              rw [hanswer] at ha
              cases ha
          | some a' =>
              rw [hanswer] at ha
              cases ha
              rfl
      exact hrecord
  | @send i j x dir k q hdest hfresh hgateway hcarry =>
      refine h.send hfresh (lawful.request hdest hcarry) fun hx => ?_
      obtain ⟨j', hj', hcloser⟩ := ((lawful.start hx).2 dir hdest).2 _ hgateway
      cases hj'
      exact hcloser
  | run hrequests hroute hruns => exact h.run lawful hrequests hroute hruns
  | handOver hrequests hroute hgateway hcarry =>
      exact h.handOver lawful hrequests hroute hgateway hcarry
  | drop hrequests hroute => exact h.drop lawful hrequests hroute
  | deliver hreplies hroute => exact h.deliver lawful hreplies hroute
  | handOverReply hreplies hroute hgateway hcarry =>
      exact h.handOverReply lawful hreplies hroute hgateway hcarry
  | dropReply hreplies hroute =>
      exact h.with_replies fun z hz => ⟨.inr ⟨z, mem_of_rest hreplies hz, rfl⟩,
        h.replies z (mem_of_rest hreplies hz)⟩
  | taken hc hstatus => exact h.taken hc hstatus
  | fail hcall hk hopen =>
      refine h.settle hcall hk hopen nofun ?_
      rintro a (ha | ha) <;> cases ha

lemma inv_of_run (lawful : Lawful m Reach About AboutReply closer closerHome)
    (hrun : Relation.ReflTransGen m.Step s s')
    (h : Inv m Reach About AboutReply closer closerHome s) :
    Inv m Reach About AboutReply closer closerHome s' := by
  induction hrun with
  | refl => exact h
  | tail _ hstep ih => exact hstep.inv lawful ih

/-! ## What follows for the calls -/

/-- What the calls of a state come to. -/
structure Exact (m : Courier N H K X Q P E A) (Reach : X → Prop) (s : State N K X Q P E A) :
    Prop where
  once : ∀ c call, s.calls[c]? = some call → s.count c ≤ 1 ∧ (Reach call.args → s.count c = 1)
  executed : ∀ e ∈ s.log, ∃ call, s.calls[e.call]? = some call ∧
    m.runsCall e.node call.args e.effect
  handOvers : ∀ f ∈ s.requests, ∀ call, s.calls[f.call]? = some call → Reach call.args →
    f.path.length ≤ Nat.card N
  handOversHome : ∀ f ∈ s.replies, f.path.length ≤ Nat.card N
  /-- The request of a call can still be brought to where it is executed. -/
  settles : ∀ c call, s.calls[c]? = some call → Reach call.args →
    ∃ s', Relation.ReflTransGen m.Step s s' ∧ ∃ e ∈ s'.log, e.call = c
  returns : ∀ c a, c < s.calls.length → s.status c = .returned a →
    ∃ e ∈ s.log, e.call = c ∧ m.answer e.effect = some a
  ended : ∀ c, (s.status c).Ended → ∀ i k, (s.pending i).get? k ≠ some c

/-- **A request that is on its way arrives**, as every node it comes to brings it closer. -/
lemma Inv.arrives [Finite N] (lawful : Lawful m Reach About AboutReply closer closerHome)
    (h : Inv m Reach About AboutReply closer closerHome s) {f : Flight N Q} (hf : f ∈ s.requests)
    {call : Call N K X} (hcall : s.calls[f.call]? = some call) (hx : Reach call.args) :
    ∃ s', Relation.ReflTransGen m.Step s s' ∧ ∃ e ∈ s'.log, e.call = f.call := by
  have horder := lawful.order call.args
  have hwf : WellFounded (closer call.args) :=
    @Finite.wellFounded_of_trans_of_irrefl N _ (closer call.args) horder.toIsTrans horder.toIrrefl
  obtain ⟨n, hn⟩ : ∃ n, f.node = n := ⟨_, rfl⟩
  induction n using hwf.induction generalizing s f with
  | _ n ih =>
      obtain ⟨call', k, hcall', hk, habout, -⟩ := h.requests f hf
      rw [hcall] at hcall'
      cases hcall'
      obtain ⟨l₁, l₂, hrequests⟩ := List.append_of_mem hf
      obtain ⟨hdrop, htoward⟩ := lawful.onward (n := f.node) hx habout
      cases hroute : m.route f.node f.packet with
      | drop => exact absurd hroute hdrop
      | here =>
          obtain ⟨e, hruns⟩ := lawful.executes habout hroute
          exact ⟨_, .single (.run hrequests hroute hruns), ⟨f.call, f.node, e⟩,
            List.mem_append_right _ (List.mem_singleton_self _), rfl⟩
      | toward dir =>
          obtain ⟨⟨q, hcarry⟩, hall⟩ := htoward dir hroute
          obtain ⟨o, hgateway⟩ := lawful.gateways f.node dir
          obtain ⟨j, rfl, hcloser⟩ := hall o hgateway
          subst hn
          obtain ⟨s', hrun, hlog⟩ := ih j hcloser
            (h.handOver lawful hrequests hroute hgateway hcarry)
            (f := ⟨f.call, q, j, j :: f.path⟩) (List.mem_append_right _ List.mem_cons_self) hcall
            rfl
          exact ⟨s', .head (.handOver hrequests hroute hgateway hcarry) hrun, hlog⟩

lemma Inv.exact [Finite N] (lawful : Lawful m Reach About AboutReply closer closerHome)
    (h : Inv m Reach About AboutReply closer closerHome s) : Exact m Reach s where
  once := h.once
  executed := h.log
  handOvers f hf call hcall hx := by
    obtain ⟨call', k, hcall', -, -, hdesc⟩ := h.requests f hf
    rw [hcall] at hcall'
    cases hcall'
    exact (hdesc hx).length_le (lawful.order _)
  handOversHome f hf := by
    obtain ⟨call, k, a, -, -, -, hdesc, -⟩ := h.replies f hf
    exact hdesc.length_le (lawful.orderHome _)
  settles c call hcall hx := by
    have hone := (h.once c call hcall).2 hx
    rw [State.count] at hone
    by_cases hflying : ∃ f ∈ s.requests, f.call = c
    · obtain ⟨f, hf, rfl⟩ := hflying
      exact h.arrives lawful hf hcall hx
    · have hnone : s.requests.countP (fun f => decide (f.call = c)) = 0 := by
        rw [List.countP_eq_zero]
        intro f hf hc
        exact hflying ⟨f, hf, of_decide_eq_true hc⟩
      have hpos : 0 < s.log.countP fun e => decide (e.call = c) := by omega
      obtain ⟨e, he, hc⟩ := List.countP_pos_iff.mp hpos
      exact ⟨s, .refl, e, he, of_decide_eq_true hc⟩
  returns c a hc hstatus := h.answered c a hc (.inr hstatus)
  ended c hended i k hget := by
    obtain ⟨call, -, -, -, hstatus⟩ := (h.pending i k c).mp hget
    rw [hstatus] at hended
    exact hended

/-- **Along every run** each call is executed once where it should be, and returns what that
execution yielded. -/
theorem exact_of_run [Finite N] (lawful : Lawful m Reach About AboutReply closer closerHome)
    (hrun : Relation.ReflTransGen m.Step .empty s) : Exact m Reach s :=
  (inv_of_run lawful hrun inv_empty).exact lawful

end Invariant

end Courier

end Netsukuku
