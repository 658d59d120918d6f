import MagxNet.Buf.Heap
import MagxNet.Lib.Links
import MagxNet.Lib.Tiling

set_option autoImplicit false

namespace MagxNet.Buf

open Links Tiling

-- The free list a buffer of this length belongs on.
def InClass (len i : Nat) : Prop := bufSize i ≤ len ∧ (0 < i → len < bufSize (i - 1))

theorem buf_size_antitone (i j : Nat) (order : i ≤ j) : bufSize j ≤ bufSize i := by
  rw [bufSize, bufSize, Nat.shiftRight_eq_div_pow, Nat.shiftRight_eq_div_pow]
  exact Nat.div_le_div_left (Nat.pow_le_pow_right (by decide) order) (by positivity)

theorem in_class_unique (len i j : Nat) (first : InClass len i) (second : InClass len j) : i = j := by
  rcases Nat.lt_trichotomy i j with less | same | more
  · have := buf_size_antitone i (j - 1) (by omega)
    have := second.2 (by omega)
    have := first.1
    omega
  · exact same
  · have := buf_size_antitone j (i - 1) (by omega)
    have := first.2 (by omega)
    have := second.1
    omega

-- A buffer counts as free unless the operation under way has it in its hands.
def Free (h : Heap) (hole : List Nat) (a : Nat) : Prop := h.links (.mem a) = 0 ∧ a ∉ hole

def Member (h : Heap) (bufs : Nat → List Nat) (a : Nat) : Prop := ∃ b ∈ h.blocks, a ∈ bufs b

def Coalesced (h : Heap) (hole pieces : List Nat) : Prop :=
  pieces.IsChain fun x y => ¬ (Free h hole x ∧ Free h hole y)

-- bufs lists the buffers of each block from its start, free the members of each free list; hole are
-- the buffers an operation has taken off the lists and not put back yet.
structure HeapInv (h : Heap) (bufs free : Nat → List Nat) (hole : List Nat) : Prop where
  apart : h.blocks.Pairwise fun b c => b + BUF_BLOCK_SIZE ≤ c ∨ c + BUF_BLOCK_SIZE ≤ b
  tiled : ∀ b ∈ h.blocks, Tiled (fun a => h.buflen (.mem a)) (bufSize BUF_NSPLIT) b (b + BUF_BLOCK_SIZE) (bufs b)
  chain : ∀ b ∈ h.blocks, Chain h.n h.p .null ((bufs b).map .mem)
  coalesced : ∀ b ∈ h.blocks, Coalesced h hole (bufs b)
  rings : ∀ i ≤ BUF_NSPLIT, Ring h.nfree h.pfree (.pool i) ((free i).map .mem)
  listed : ∀ i ≤ BUF_NSPLIT, ∀ a, a ∈ free i ↔ Member h bufs a ∧ Free h hole a ∧ InClass (h.buflen (.mem a)) i
  counted : h.memUsed = BUF_BLOCK_SIZE * h.blocks.length

section Invariant

variable (h : Heap) (bufs free : Nat → List Nat) (hole : List Nat)

theorem least_positive : 0 < bufSize BUF_NSPLIT := by decide

theorem mem_injective : Function.Injective Ptr.mem := fun _ _ same => Ptr.mem.inj same

theorem update_mem {β : Type} (f : Ptr → β) (a : Nat) (value : β) :
    (fun x => Function.update f (.mem a) value (.mem x)) = Function.update (fun x => f (.mem x)) a value := by
  funext x
  by_cases same : x = a
  · rw [same, Function.update_self, Function.update_self]
  · rw [Function.update_of_ne same, Function.update_of_ne (fun equal => same (mem_injective equal))]

theorem member_bounds (inv : HeapInv h bufs free hole) (b a : Nat) (block : b ∈ h.blocks) (member : a ∈ bufs b) :
    b ≤ a ∧ a + h.buflen (.mem a) ≤ b + BUF_BLOCK_SIZE ∧ bufSize BUF_NSPLIT ≤ h.buflen (.mem a) :=
  tiled_bounds _ _ _ _ _ (inv.tiled b block) a member

theorem block_unique (inv : HeapInv h bufs free hole) (b c a : Nat) (first : b ∈ h.blocks) (second : c ∈ h.blocks)
    (inFirst : a ∈ bufs b) (inSecond : a ∈ bufs c) : b = c := by
  by_contra different
  have : Std.Symm fun b c : Nat => b + BUF_BLOCK_SIZE ≤ c ∨ c + BUF_BLOCK_SIZE ≤ b := ⟨fun _ _ => Or.symm⟩
  have disjoint := inv.apart.forall first second different
  have left := member_bounds h bufs free hole inv b a first inFirst
  have right := member_bounds h bufs free hole inv c a second inSecond
  have positive := least_positive
  omega

theorem free_nodup (inv : HeapInv h bufs free hole) (i : Nat) (bound : i ≤ BUF_NSPLIT) : (free i).Nodup :=
  ((List.nodup_cons.mp (inv.rings i bound).distinct).2).of_map _

theorem free_apart (inv : HeapInv h bufs free hole) (i j a : Nat) (first : i ≤ BUF_NSPLIT) (second : j ≤ BUF_NSPLIT)
    (inFirst : a ∈ free i) (inSecond : a ∈ free j) : i = j :=
  in_class_unique _ _ _ ((inv.listed i first a).mp inFirst).2.2 ((inv.listed j second a).mp inSecond).2.2

-- A node of one ring belongs to no other ring.
theorem ring_nodes_apart (inv : HeapInv h bufs free hole) (i j : Nat) (first : i ≤ BUF_NSPLIT) (second : j ≤ BUF_NSPLIT)
    (different : j ≠ i) (x : Ptr) (inFirst : x ∈ .pool i :: (free i).map .mem) : x ∉ .pool j :: (free j).map .mem := by
  intro inSecond
  rcases List.mem_cons.mp inFirst with rfl | here
  · rcases List.mem_cons.mp inSecond with same | there
    · exact different (Ptr.pool.inj same).symm
    · obtain ⟨a, _, same⟩ := List.mem_map.mp there
      cases same
  · obtain ⟨a, member, rfl⟩ := List.mem_map.mp here
    rcases List.mem_cons.mp inSecond with same | there
    · cases same
    · obtain ⟨a', member', same⟩ := List.mem_map.mp there
      obtain rfl := mem_injective same
      exact different (free_apart h bufs free hole inv i j _ first second member member').symm

theorem free_unlink_eq (b : Ptr) (real : h.nfree b ≠ b) :
    freeUnlink h b = { h with
      nfree := Function.update h.nfree (h.pfree b) (h.nfree b)
      pfree := Function.update h.pfree (h.nfree b) (h.pfree b) } := by
  simp only [freeUnlink, Function.update_of_ne real.symm]

theorem free_link_eq (i : Nat) (b : Ptr) (real : h.nfree (.pool i) ≠ b) :
    freeLink h i b = { h with
      nfree := Function.update (Function.update h.nfree b (h.nfree (.pool i))) (.pool i) b
      pfree := Function.update (Function.update h.pfree b (.pool i)) (h.nfree (.pool i)) b } := by
  simp only [freeLink, Function.update_self, Function.update_of_ne real.symm]

theorem coalesced_weaken (h' : Heap) (hole' pieces : List Nat) (coalesced : Coalesced h hole pieces)
    (less : ∀ a ∈ pieces, Free h' hole' a → Free h hole a) : Coalesced h' hole' pieces :=
  coalesced.imp_of_mem_imp fun x y inX inY open_ both => open_ ⟨less x inX both.1, less y inY both.2⟩

theorem inv_unlink (inv : HeapInv h bufs free hole) (i a : Nat) (bound : i ≤ BUF_NSPLIT) (member : a ∈ free i) :
    HeapInv (freeUnlink h (.mem a)) bufs (Function.update free i ((free i).erase a)) (a :: hole) := by
  have distinct := free_nodup h bufs free hole inv i bound
  obtain ⟨l, r, split⟩ := List.append_of_mem member
  have notLeft : a ∉ l := by
    rw [split] at distinct
    exact fun inside => (List.nodup_append.mp distinct).2.2 a inside a (List.mem_cons_self ..) rfl
  have erased : (free i).erase a = l ++ r := by
    rw [split, List.erase_append_right _ notLeft, List.erase_cons_head]
  have ring := inv.rings i bound
  have whole : (free i).map Ptr.mem = l.map .mem ++ .mem a :: r.map .mem := by rw [split, List.map_append, List.map_cons]
  rw [whole] at ring
  obtain ⟨front, p, q, back, before, after, behind, ahead⟩ := ring_around _ _ _ _ _ _ ring
  have inRing : ∀ x, x = h.nfree (.mem a) ∨ x = h.pfree (.mem a) → x ∈ .pool i :: (free i).map .mem ∧ x ≠ .mem a := by
    have apart := ring.distinct
    rw [List.nodup_cons, List.nodup_append, List.nodup_cons] at apart
    rw [whole]
    rintro x (rfl | rfl)
    · have place : q ∈ r.map .mem ++ [.pool i] := by
        rw [after]
        exact List.mem_cons_self ..
      rw [ahead]
      rcases List.mem_append.mp place with inside | last
      · exact ⟨by simp only [List.mem_cons, List.mem_append]; tauto, fun same => apart.2.2.1.1 (same ▸ inside)⟩
      · rw [List.mem_singleton.mp last]
        exact ⟨List.mem_cons_self .., fun same => by cases same⟩
    · have place : p ∈ .pool i :: l.map .mem := by
        rw [before]
        exact List.mem_append_right _ (List.mem_cons_self ..)
      rw [behind]
      rcases List.mem_cons.mp place with first | inside
      · rw [first]
        exact ⟨List.mem_cons_self .., fun same => by cases same⟩
      · refine ⟨by simp only [List.mem_cons, List.mem_append]; tauto, fun same => ?_⟩
        exact apart.2.2.2 p inside _ (List.mem_cons_self ..) same
  rw [free_unlink_eq h (.mem a) (inRing _ (Or.inl rfl)).2]
  refine ⟨inv.apart, inv.tiled, inv.chain, fun b block => ?_, fun j jBound => ?_, fun j jBound x => ?_, inv.counted⟩
  · refine coalesced_weaken h hole _ (a :: hole) _ (inv.coalesced b block) fun x _ isFree => ?_
    exact ⟨isFree.1, fun inside => isFree.2 (List.mem_cons_of_mem _ inside)⟩
  · by_cases same : j = i
    · subst same
      rw [Function.update_self, erased, List.map_append]
      exact ring_unlink h.nfree h.pfree (.pool j) (.mem a) _ _ ring
    · rw [Function.update_of_ne same]
      have untouched : ∀ x, x = h.nfree (.mem a) ∨ x = h.pfree (.mem a) → x ∉ .pool j :: (free j).map .mem := fun x place =>
        ring_nodes_apart h bufs free hole inv i j bound jBound same x (inRing x place).1
      refine ring_congr _ _ _ _ _ _ (inv.rings j jBound) (fun x inside => ?_) fun x inside => ?_
      · exact Function.update_of_ne (fun equal => untouched x (Or.inr equal) inside) ..
      · exact Function.update_of_ne (fun equal => untouched x (Or.inl equal) inside) ..
  · have isFree : Free h (a :: hole) x ↔ x ≠ a ∧ Free h hole x := by
      simp only [Free, List.mem_cons, not_or]
      tauto
    by_cases same : j = i
    · subst same
      rw [Function.update_self, distinct.mem_erase_iff, inv.listed j jBound x]
      change _ ↔ Member h bufs x ∧ Free h (a :: hole) x ∧ _
      rw [isFree]
      tauto
    · rw [Function.update_of_ne same, inv.listed j jBound x]
      change _ ↔ Member h bufs x ∧ Free h (a :: hole) x ∧ _
      rw [isFree]
      constructor
      · intro facts
        refine ⟨facts.1, ⟨?_, facts.2.1⟩, facts.2.2⟩
        rintro rfl
        exact same (free_apart h bufs free hole inv j i x jBound bound ((inv.listed j jBound x).mpr facts) member)
      · tauto

-- The buffer in hand goes onto its free list.
theorem inv_link (a i : Nat) (inv : HeapInv h bufs free (a :: hole)) (fresh : a ∉ hole) (bound : i ≤ BUF_NSPLIT)
    (member : Member h bufs a) (zero : h.links (.mem a) = 0) (fits : InClass (h.buflen (.mem a)) i)
    (coalesced : ∀ b ∈ h.blocks, Coalesced h hole (bufs b)) :
    HeapInv (freeLink h i (.mem a)) bufs (Function.update free i (a :: free i)) hole := by
  have unlisted : ∀ j ≤ BUF_NSPLIT, a ∉ free j := fun j jBound inside =>
    ((inv.listed j jBound a).mp inside).2.1.2 (List.mem_cons_self ..)
  have outside : ∀ j ≤ BUF_NSPLIT, Ptr.mem a ∉ .pool j :: (free j).map .mem := by
    intro j jBound inside
    rcases List.mem_cons.mp inside with same | deeper
    · cases same
    · obtain ⟨x, member', same⟩ := List.mem_map.mp deeper
      exact unlisted j jBound (mem_injective same ▸ member')
  have ring := inv.rings i bound
  have first : h.nfree (.pool i) ∈ .pool i :: (free i).map .mem := by
    rw [ring_next _ _ _ _ ring]
    cases (free i).map Ptr.mem with
    | nil => exact List.mem_cons_self ..
    | cons x rest => exact List.mem_cons_of_mem _ (List.mem_cons_self ..)
  rw [free_link_eq h i (.mem a) fun same => outside i bound (same ▸ first)]
  refine ⟨inv.apart, inv.tiled, inv.chain, coalesced, fun j jBound => ?_, fun j jBound x => ?_, inv.counted⟩
  · by_cases same : j = i
    · subst same
      rw [Function.update_self, List.map_cons]
      exact ring_push h.nfree h.pfree (.pool j) (.mem a) _ ring (outside j bound)
    · rw [Function.update_of_ne same]
      have notHead : ∀ x ∈ Ptr.pool j :: (free j).map .mem, x ≠ .mem a ∧ x ≠ .pool i ∧ x ≠ h.nfree (.pool i) := by
        intro x inside
        refine ⟨fun equal => outside j jBound (equal ▸ inside), fun equal => ?_, fun equal => ?_⟩
        · exact ring_nodes_apart h bufs free _ inv i j bound jBound same x (equal ▸ List.mem_cons_self ..) inside
        · exact ring_nodes_apart h bufs free _ inv i j bound jBound same x (equal ▸ first) inside
      refine ring_congr _ _ _ _ _ _ (inv.rings j jBound) (fun x inside => ?_) fun x inside => ?_
      · obtain ⟨notNew, notPool, _⟩ := notHead x inside
        exact (Function.update_of_ne notPool ..).trans (Function.update_of_ne notNew ..)
      · obtain ⟨notNew, _, notFirst⟩ := notHead x inside
        exact (Function.update_of_ne notFirst ..).trans (Function.update_of_ne notNew ..)
  · change _ ↔ Member h bufs x ∧ Free h hole x ∧ InClass (h.buflen (.mem x)) j
    have isFree : Free h (a :: hole) x ↔ x ≠ a ∧ Free h hole x := by
      simp only [Free, List.mem_cons, not_or]
      tauto
    by_cases same : j = i
    · subst same
      rw [Function.update_self, List.mem_cons, inv.listed j jBound x, isFree]
      constructor
      · rintro (rfl | facts)
        · exact ⟨member, ⟨zero, fresh⟩, fits⟩
        · exact ⟨facts.1, facts.2.1.2, facts.2.2⟩
      · intro facts
        by_cases here : x = a
        · exact Or.inl here
        · exact Or.inr ⟨facts.1, ⟨here, facts.2.1⟩, facts.2.2⟩
    · rw [Function.update_of_ne same, inv.listed j jBound x, isFree]
      constructor
      · exact fun facts => ⟨facts.1, facts.2.1.2, facts.2.2⟩
      · intro facts
        refine ⟨facts.1, ⟨?_, facts.2.1⟩, facts.2.2⟩
        rintro rfl
        exact same (in_class_unique _ _ _ facts.2.2 fits)

-- Only one block changes, and only in buffers of its own.
theorem inv_block (h' : Heap) (hole' : List Nat) (b0 : Nat) (pieces : List Nat) (inv : HeapInv h bufs free hole)
    (block : b0 ∈ h.blocks) (sameBlocks : h'.blocks = h.blocks) (sameUsed : h'.memUsed = h.memUsed)
    (sameNext : h'.nfree = h.nfree) (samePrev : h'.pfree = h.pfree)
    (frame : ∀ x, (∀ a ∈ bufs b0, x ≠ Ptr.mem a) → (∀ a ∈ pieces, x ≠ Ptr.mem a) →
      h'.buflen x = h.buflen x ∧ h'.links x = h.links x ∧ h'.n x = h.n x ∧ h'.p x = h.p x)
    (tiled : Tiled (fun a => h'.buflen (.mem a)) (bufSize BUF_NSPLIT) b0 (b0 + BUF_BLOCK_SIZE) pieces)
    (chain : Chain h'.n h'.p .null (pieces.map .mem)) (coalesced : Coalesced h' hole' pieces)
    (sameHole : ∀ b ∈ h.blocks, b ≠ b0 → ∀ a ∈ bufs b, a ∈ hole → a ∈ hole')
    (moreHole : ∀ b ∈ h.blocks, b ≠ b0 → ∀ a ∈ bufs b, a ∈ hole' → a ∈ hole)
    (listed : ∀ a, (a ∈ pieces ∧ Free h' hole' a) ↔ (a ∈ bufs b0 ∧ Free h hole a))
    (sameClass : ∀ a ∈ bufs b0, Free h hole a → h'.buflen (.mem a) = h.buflen (.mem a)) :
    HeapInv h' (Function.update bufs b0 pieces) free hole' := by
  have inPieces : ∀ a ∈ pieces, b0 ≤ a ∧ a < b0 + BUF_BLOCK_SIZE := by
    intro a member
    have bounds := tiled_bounds _ _ _ _ _ tiled a member
    have positive := least_positive
    omega
  have others : ∀ b ∈ h.blocks, b ≠ b0 → ∀ a ∈ bufs b, (∀ x ∈ bufs b0, Ptr.mem a ≠ .mem x) ∧ (∀ x ∈ pieces, Ptr.mem a ≠ .mem x) := by
    intro b isBlock different a member
    refine ⟨fun x inside same => ?_, fun x inside same => ?_⟩
    · obtain rfl := mem_injective same
      exact different (block_unique h bufs free hole inv b b0 a isBlock block member inside)
    · obtain rfl := mem_injective same
      have : Std.Symm fun b c : Nat => b + BUF_BLOCK_SIZE ≤ c ∨ c + BUF_BLOCK_SIZE ≤ b := ⟨fun _ _ => Or.symm⟩
      have disjoint := inv.apart.forall isBlock block different
      have bounds := member_bounds h bufs free hole inv b a isBlock member
      have place := inPieces a inside
      have positive := least_positive
      omega
  have same : ∀ b ∈ h.blocks, b ≠ b0 → ∀ a ∈ bufs b, h'.buflen (.mem a) = h.buflen (.mem a) ∧
      h'.links (.mem a) = h.links (.mem a) ∧ h'.n (.mem a) = h.n (.mem a) ∧ h'.p (.mem a) = h.p (.mem a) :=
    fun b isBlock different a member => frame _ (others b isBlock different a member).1 (others b isBlock different a member).2
  refine ⟨sameBlocks ▸ inv.apart, fun b isBlock => ?_, fun b isBlock => ?_, fun b isBlock => ?_, fun i bound => ?_,
    fun i bound a => ?_, by rw [sameUsed, sameBlocks]; exact inv.counted⟩
  · rw [sameBlocks] at isBlock
    by_cases here : b = b0
    · rw [here, Function.update_self]
      exact tiled
    · rw [Function.update_of_ne here]
      exact tiled_congr _ _ _ _ _ _ (inv.tiled b isBlock) fun a member => (same b isBlock here a member).1
  · rw [sameBlocks] at isBlock
    by_cases here : b = b0
    · rw [here, Function.update_self]
      exact chain
    · rw [Function.update_of_ne here]
      refine chain_congr _ _ _ _ _ _ (inv.chain b isBlock) (fun x member => ?_) fun x member => ?_
      · obtain ⟨a, inside, rfl⟩ := List.mem_map.mp member
        exact (same b isBlock here a inside).2.2.1
      · obtain ⟨a, inside, rfl⟩ := List.mem_map.mp member
        exact (same b isBlock here a inside).2.2.2
  · rw [sameBlocks] at isBlock
    by_cases here : b = b0
    · rw [here, Function.update_self]
      exact coalesced
    · rw [Function.update_of_ne here]
      refine coalesced_weaken h hole _ hole' _ (inv.coalesced b isBlock) fun a member isFree => ?_
      exact ⟨(same b isBlock here a member).2.1 ▸ isFree.1, fun inside => isFree.2 (sameHole b isBlock here a member inside)⟩
  · rw [sameNext, samePrev]
    exact inv.rings i bound
  · rw [inv.listed i bound a]
    constructor
    · rintro ⟨⟨b, isBlock, member⟩, isFree, fits⟩
      by_cases here : b = b0
      · subst here
        obtain ⟨inNew, stillFree⟩ := (listed a).mpr ⟨member, isFree⟩
        refine ⟨⟨b, sameBlocks ▸ isBlock, by rwa [Function.update_self]⟩, stillFree, ?_⟩
        rw [sameClass a member isFree]
        exact fits
      · obtain ⟨sameLen, sameLinks, _, _⟩ := same b isBlock here a member
        refine ⟨⟨b, sameBlocks ▸ isBlock, by rwa [Function.update_of_ne here]⟩, ⟨sameLinks ▸ isFree.1, ?_⟩, sameLen ▸ fits⟩
        exact fun inside => isFree.2 (moreHole b isBlock here a member inside)
    · rintro ⟨⟨b, isBlock, member⟩, isFree, fits⟩
      rw [sameBlocks] at isBlock
      by_cases here : b = b0
      · subst here
        rw [Function.update_self] at member
        obtain ⟨inOld, wasFree⟩ := (listed a).mp ⟨member, isFree⟩
        refine ⟨⟨b, isBlock, inOld⟩, wasFree, ?_⟩
        rw [← sameClass a inOld wasFree]
        exact fits
      · rw [Function.update_of_ne here] at member
        obtain ⟨sameLen, sameLinks, _, _⟩ := same b isBlock here a member
        refine ⟨⟨b, isBlock, member⟩, ⟨sameLinks ▸ isFree.1, ?_⟩, sameLen ▸ fits⟩
        exact fun inside => isFree.2 (sameHole b isBlock here a member inside)

end Invariant

end MagxNet.Buf
