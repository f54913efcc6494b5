import Mathlib

/-!
# Texts that can be read back

A record is written as the texts of its parts one after the other.  It can be told apart from
every other record, whatever follows it, when each part can: a part of fixed length, a part behind
its own length, a run of parts behind their number.

* `ReadableOn` — the first of two texts fixes what was written and what follows it.
* `ReadableOn.seq` — a part, then a rest whose form depends on that part.
* `ReadableOn.flatMap` — a run of parts of known number.
* `leBytes` — numbers of fixed width, least significant byte first.
-/

namespace Netsukuku

section Readable

variable {α β γ : Type} {S : Set α} {T : Set γ} {enc : α → List β}

/-- Of the values in `S`, what was written at the front of a text can be told from the text, and
so can what follows it. -/
def ReadableOn (S : Set α) (enc : α → List β) : Prop :=
  ∀ a ∈ S, ∀ b ∈ S, ∀ x y, enc a ++ x = enc b ++ y → a = b ∧ x = y

lemma ReadableOn.injOn (h : ReadableOn S enc) : Set.InjOn enc S :=
  fun a ha b hb heq => (h a ha b hb [] [] (by rw [heq])).1

lemma ReadableOn.mono {S' : Set α} (h : ReadableOn S enc) (hsub : S' ⊆ S) : ReadableOn S' enc :=
  fun a ha b hb => h a (hsub ha) b (hsub hb)

/-- Texts of one length. -/
lemma readableOn_of_length {w : ℕ} (hlen : ∀ a ∈ S, (enc a).length = w)
    (hinj : Set.InjOn enc S) : ReadableOn S enc := by
  intro a ha b hb x y heq
  obtain ⟨hfront, hback⟩ := List.append_inj heq ((hlen a ha).trans (hlen b hb).symm)
  exact ⟨hinj ha hb hfront, hback⟩

/-- A value written through a part that fixes it. -/
lemma ReadableOn.comp {enc : γ → List β} (h : ReadableOn T enc) {f : α → γ}
    (hmaps : Set.MapsTo f S T) (hinj : Set.InjOn f S) : ReadableOn S fun a => enc (f a) := by
  intro a ha b hb x y heq
  obtain ⟨hfront, hback⟩ := h (f a) (hmaps ha) (f b) (hmaps hb) x y heq
  exact ⟨hinj ha hb hfront, hback⟩

/-- A part `key` first; the rest is read knowing that part. -/
theorem ReadableOn.seq {enc : γ → List β} {rest : α → List β}
    (hkey : ReadableOn T enc) (key : α → γ) (hmaps : Set.MapsTo key S T)
    (hrest : ∀ k, ReadableOn {a ∈ S | key a = k} rest) :
    ReadableOn S fun a => enc (key a) ++ rest a := by
  intro a ha b hb x y heq
  rw [List.append_assoc, List.append_assoc] at heq
  obtain ⟨hfront, hback⟩ := hkey (key a) (hmaps ha) (key b) (hmaps hb) _ _ heq
  exact hrest (key b) a ⟨ha, hfront⟩ b ⟨hb, rfl⟩ x y hback

/-- A run of parts, their number known. -/
theorem ReadableOn.flatMap (h : ReadableOn S enc) (n : ℕ) :
    ReadableOn {l : List α | l.length = n ∧ ∀ a ∈ l, a ∈ S} fun l => l.flatMap enc := by
  induction n with
  | zero =>
      rintro l ⟨hl, -⟩ l' ⟨hl', -⟩ x y heq
      obtain rfl := List.length_eq_zero_iff.mp hl
      obtain rfl := List.length_eq_zero_iff.mp hl'
      exact ⟨rfl, heq⟩
  | succ n ih =>
      rintro l ⟨hl, hmem⟩ l' ⟨hl', hmem'⟩ x y heq
      obtain ⟨a, l, rfl⟩ := List.exists_cons_of_length_eq_add_one hl
      obtain ⟨b, l', rfl⟩ := List.exists_cons_of_length_eq_add_one hl'
      rw [List.forall_mem_cons] at hmem hmem'
      simp only [List.flatMap_cons, List.append_assoc] at heq
      obtain ⟨rfl, htail⟩ := h a hmem.1 b hmem'.1 _ _ heq
      obtain ⟨rfl, hrest⟩ := ih l ⟨Nat.succ_injective hl, hmem.2⟩ l'
        ⟨Nat.succ_injective hl', hmem'.2⟩ x y htail
      exact ⟨rfl, hrest⟩

/-- A text of known length. -/
lemma readableOn_text (n : ℕ) : ReadableOn {l : List β | l.length = n} id :=
  readableOn_of_length (fun _ h => h) (Set.injOn_id _)

end Readable

/-! ## Numbers of fixed width -/

/-- `n` as `w` bytes, least significant first. -/
def leBytes (w n : ℕ) : List UInt8 := (List.range w).map fun i => UInt8.ofNat (n / 256 ^ i)

@[simp] lemma length_leBytes (w n : ℕ) : (leBytes w n).length = w := by simp [leBytes]

lemma leBytes_succ (w n : ℕ) : leBytes (w + 1) n = UInt8.ofNat n :: leBytes w (n / 256) := by
  simp [leBytes, List.range_succ_eq_map, Nat.div_div_eq_div_mul, pow_succ']

lemma leBytes_injOn (w : ℕ) : Set.InjOn (leBytes w) {n | n < 256 ^ w} := by
  induction w with
  | zero =>
      intro n hn m hm _
      have hn : n < 256 ^ 0 := hn
      have hm : m < 256 ^ 0 := hm
      omega
  | succ w ih =>
      intro n hn m hm heq
      rw [leBytes_succ, leBytes_succ, List.cons.injEq] at heq
      have hlow : n % 256 = m % 256 := by simpa using congrArg UInt8.toNat heq.1
      have hhigh : n / 256 = m / 256 :=
        ih (Nat.div_lt_of_lt_mul (by rwa [← pow_succ']))
          (Nat.div_lt_of_lt_mul (by rwa [← pow_succ'])) heq.2
      rw [← Nat.div_add_mod n 256, ← Nat.div_add_mod m 256, hlow, hhigh]

theorem readableOn_leBytes (w : ℕ) : ReadableOn {n | n < 256 ^ w} (leBytes w) :=
  readableOn_of_length (fun n _ => length_leBytes w n) (leBytes_injOn w)

/-- A list of 32-bit numbers, its length known. -/
lemma readableOn_words (n : ℕ) :
    ReadableOn {l : List UInt32 | l.length = n} fun l => l.flatMap fun p => leBytes 4 p.toNat := by
  have hword : ReadableOn (Set.univ : Set UInt32) fun p => leBytes 4 p.toNat :=
    (readableOn_leBytes 4).comp (fun p _ => p.toNat_lt)
      (fun _ _ _ _ h => UInt32.toNat_inj.mp h)
  exact (hword.flatMap n).mono fun l hl => ⟨hl, fun _ _ => Set.mem_univ _⟩

/-! ## Names -/

lemma toList_loop (bs : ByteArray) (i : ℕ) (r : List UInt8) :
    ByteArray.toList.loop bs i r = r.reverse ++ bs.data.toList.drop i := by
  fun_induction ByteArray.toList.loop bs i r with
  | case1 i r hlt ih =>
      have hlt' : i < bs.data.toList.length := hlt
      have hget : bs.get! i = bs.data.toList[i] := getElem!_pos bs.data i hlt
      rw [ih, List.reverse_cons, List.append_assoc, List.singleton_append, hget,
        List.drop_eq_getElem_cons hlt']
  | case2 i r hge =>
      have hge' : bs.data.toList.length ≤ i := not_lt.mp hge
      rw [List.drop_eq_nil_of_le hge', List.append_nil]

lemma toList_toUTF8 (s : String) : s.toUTF8.toList = s.toByteArray.data.toList :=
  toList_loop s.toUTF8 0 []

/-- The bytes of a name are as many as its length says. -/
lemma length_toUTF8 (s : String) : s.toUTF8.toList.length = s.utf8ByteSize := by
  rw [toList_toUTF8]
  rfl

lemma toUTF8_injective : Function.Injective fun s : String => s.toUTF8.toList := by
  intro s t heq
  simp only [toList_toUTF8] at heq
  exact String.toByteArray_inj.mp (ByteArray.ext (Array.toList_inj.mp heq))

/-- A name behind its length. -/
lemma readableOn_name :
    ReadableOn {s : String | s.utf8ByteSize < 2 ^ 32}
      fun s => leBytes 4 s.utf8ByteSize ++ s.toUTF8.toList := by
  refine (readableOn_leBytes 4).seq String.utf8ByteSize (fun s hs => hs) fun n => ?_
  exact (readableOn_text n).comp (fun s hs => (length_toUTF8 s).trans hs.2)
    toUTF8_injective.injOn

end Netsukuku
