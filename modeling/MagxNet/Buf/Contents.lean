import MagxNet.Buf.Reach

set_option autoImplicit false

namespace MagxNet.Buf

open Bytes (Byte)

-- Nothing changes for the holder of the buffer at c.
structure Keeps (h h' : Heap) (c : Nat) : Prop where
  buflen : h'.buflen (.mem c) = h.buflen (.mem c)
  start : h'.dstart (.mem c) = h.dstart (.mem c)
  stop : h'.dend (.mem c) = h.dend (.mem c)

theorem keeps_refl (h : Heap) (c : Nat) : Keeps h h c := ⟨rfl, rfl, rfl⟩

theorem keeps_trans (h h' h'' : Heap) (c : Nat) (first : Keeps h h' c) (second : Keeps h' h'' c) : Keeps h h'' c :=
  ⟨second.buflen.trans first.buflen, second.start.trans first.start, second.stop.trans first.stop⟩

theorem kept_keeps (h h' : Heap) (bufs bufs' : Nat → List Nat) (live : List Nat) (a c : Nat) (held : Held h bufs live)
    (kept : Kept h h' bufs bufs' a) (inside : c ∈ live) (other : c ≠ a) : Keeps h h' c := by
  obtain ⟨_, _, len, start, stop⟩ := kept c other (held.member c inside) (held.counted c inside).ne'
  exact ⟨len, start, stop⟩

-- What the caller of buf_alloc gets.
structure Gets (h' : Heap) (live : List Nat) (a size : Nat) (reserve : BitVec 32) : Prop where
  fresh : a ∉ live
  large : size ≤ h'.buflen (.mem a)
  bound : a + h'.buflen (.mem a) < 2 ^ 32
  start : h'.dstart (.mem a) = add32 (a + SIZEOF_BUF) reserve.toNat
  stop : h'.dend (.mem a) = h'.dstart (.mem a)

theorem alloc_keeps (kmalloc : Kmalloc) (ok : KmallocOk kmalloc) (fuel : Nat) (m : State) (size reserve : BitVec 32) (atomic : Bool)
    (b : Ptr) (h' : Heap) (good : Good m) (run : bufAlloc kmalloc fuel m.heap size reserve atomic = .ret (b, h')) :
    (∀ c ∈ m.live, Keeps m.heap h' c) ∧
      ((b = .null ∧ Good ⟨h', m.live⟩) ∨
        ∃ a, b = .mem a ∧ Good ⟨h', a :: m.live⟩ ∧ Gets h' m.live a (allocSize size) (roundReserve reserve)) := by
  obtain ⟨bufs, free, inv, placed, held⟩ := good
  obtain ⟨place, result⟩ := alloc_spec kmalloc size reserve atomic ok fuel m.heap h' b bufs free inv run
  rcases result with ⟨rfl, bufs', free', inv', kept⟩ | ⟨a, bufs', free', rfl, granted⟩
  · refine ⟨fun c inside => ?_, Or.inl ⟨rfl, bufs', free', inv', place placed, held_same m.heap h' bufs bufs' m.live held kept⟩⟩
    exact kept_keeps m.heap h' bufs bufs' m.live (c + 1) c held (kept (c + 1)) inside (Nat.ne_of_lt (Nat.lt_succ_self c))
  · have fresh := granted_fresh m.heap h' bufs bufs' free' m.live a _ _ held granted
    obtain ⟨_, bound⟩ := granted_bounds m.heap h' bufs bufs' free' a _ _ granted (place placed)
    refine ⟨fun c inside => ?_, Or.inr ⟨a, rfl, ?_, fresh, granted.large, bound, granted.start, granted.stop⟩⟩
    · exact kept_keeps m.heap h' bufs bufs' m.live a c held granted.kept inside fun same => fresh (same ▸ inside)
    · exact ⟨bufs', free', granted.inv, place placed, granted_held m.heap h' bufs bufs' free' m.live a _ _ held granted⟩

-- The holder of a reference drops it; the buffer stays in use while there are others.
theorem deref_kept (h : Heap) (bufs free : Nat → List Nat) (a : Nat) (inv : HeapInv h bufs free []) (member : Member h bufs a)
    (counted : 0 < h.links (.mem a)) :
    ∃ bufs' free', HeapInv (bufDeref h (.mem a)) bufs' free' [] ∧ Kept h (bufDeref h (.mem a)) bufs bufs' a ∧
      (1 < h.links (.mem a) → Member (bufDeref h (.mem a)) bufs' a) := by
  have hole := inv_links h bufs free [a] a (h.links (.mem a) - 1) (inv_hole_live h bufs free [] a inv counted.ne')
    (List.mem_singleton_self a)
  have same := counted_kept h bufs a (h.links (.mem a) - 1)
  rw [bufDeref]
  dsimp only
  split
  · rename_i more
    exact ⟨bufs, free, inv_hole_busy _ bufs free [] a hole more.ne', same, fun _ => member⟩
  · rename_i last
    rw [Function.update_self] at last
    obtain ⟨bufs', free', inv', kept, _⟩ := free_spec _ bufs free a hole member
    exact ⟨bufs', free', inv', kept_trans h _ _ bufs bufs bufs' a a same kept (Or.inl rfl), fun more => absurd more (by omega)⟩

theorem deref_keeps (m : State) (a : Nat) (good : Good m) (inside : a ∈ m.live) :
    Good ⟨bufDeref m.heap (.mem a), release m a⟩ ∧
      ∀ c ∈ m.live, c ≠ a → Keeps m.heap (bufDeref m.heap (.mem a)) c ∧ c ∈ release m a := by
  obtain ⟨bufs, free, inv, placed, held⟩ := good
  refine ⟨deref_good m.heap bufs free m.live a inv placed held inside, fun c live other => ⟨?_, ?_⟩⟩
  · obtain ⟨bufs', _, _, kept, _⟩ := deref_kept m.heap bufs free a inv (held.member a inside) (held.counted a inside)
    exact kept_keeps m.heap _ bufs bufs' m.live a c held kept live other
  · rw [release]
    split
    · exact live
    · exact (List.mem_erase_of_ne other).mpr live

-- The holder moves dend inside the buffer.
theorem set_dend_good (m : State) (a stop : Nat) (good : Good m) (inside : a ∈ m.live)
    (start : a + SIZEOF_BUF ≤ m.heap.dstart (.mem a)) (order : m.heap.dstart (.mem a) ≤ stop) (last : stop ≤ a + m.heap.buflen (.mem a)) :
    Good ⟨{ m.heap with dend := Function.update m.heap.dend (.mem a) stop }, m.live⟩ := by
  obtain ⟨bufs, free, inv, placed, held⟩ := good
  have filled := fill_good m.heap bufs free m.live a (m.heap.dstart (.mem a)) stop (m.heap.info (.mem a)) inv placed held inside start order last
  rwa [Function.update_eq_self, Function.update_eq_self] at filled

open Tiling

-- The bytes behind the headers. What a header holds are fields of the heap.
abbrev Memory := Nat → Byte

def memcpy (mem : Memory) (dst src n : Nat) : Memory := fun addr =>
  if dst ≤ addr ∧ addr < dst + n then mem (src + (addr - dst)) else mem addr

-- bufClone and bufReserve with the bytes that they copy.
def bufCloneBytes (kmalloc : Kmalloc) (fuel : Nat) (h : Heap) (mem : Memory) (buf : Ptr) (atomic : Bool) :
    Outcome (Ptr × Heap × Memory) :=
  let len := BitVec.ofInt 32 (h.dstart buf - (buf.addr + SIZEOF_BUF))
  (bufAlloc kmalloc fuel h (BitVec.ofInt 32 (h.buflen buf - SIZEOF_BUF)) len atomic).bind fun (nbuf, h) =>
    if nbuf = .null then .ret (.null, h, mem)
    else
      let used := long (h.dend buf - h.dstart buf)
      (copyInto h nbuf used).bind fun _ =>
        let mem := memcpy mem (h.dstart nbuf) (h.dstart buf) used.toNat
        .ret (nbuf, { h with
          dend := Function.update h.dend nbuf (add32 (h.dend nbuf) (BitVec.ofInt 32 used).toNat)
          info := Function.update h.info nbuf (h.info buf) }, mem)

def bufReserveBytes (kmalloc : Kmalloc) (fuel : Nat) (h : Heap) (mem : Memory) (buf : Ptr) (reserve : BitVec 32) (atEnd : Bool) :
    Outcome (Ptr × Heap × Memory) :=
  let reserve := roundReserve reserve
  let nspace := reserveSpace h buf reserve atEnd
  let ospace : Int := h.buflen buf - SIZEOF_BUF
  if nspace ≤ ospace then .ret (buf, h, mem)
  else
    let used := long (h.dend buf - h.dstart buf)
    (bufAlloc kmalloc fuel h (BitVec.ofInt 32 nspace) (reserveLead h buf reserve atEnd) false).bind fun (nbuf, h) =>
      if nbuf = .null then .ret (.null, h, mem)
      else
        (copyInto h nbuf used).bind fun _ =>
          let mem := memcpy mem (h.dstart nbuf) (h.dstart buf) used.toNat
          let h := { h with
            dend := Function.update h.dend nbuf (add32 (h.dstart nbuf) (BitVec.ofInt 32 used).toNat)
            info := Function.update h.info nbuf (h.info buf) }
          .ret (nbuf, bufDeref h buf, mem)

def forget (result : Ptr × Heap × Memory) : Outcome (Ptr × Heap) := .ret (result.1, result.2.1)

theorem clone_forget (kmalloc : Kmalloc) (fuel : Nat) (h : Heap) (mem : Memory) (buf : Ptr) (atomic : Bool) :
    (bufCloneBytes kmalloc fuel h mem buf atomic).bind forget = bufClone kmalloc fuel h buf atomic := by
  unfold bufCloneBytes bufClone
  dsimp only
  cases bufAlloc kmalloc fuel h (BitVec.ofInt 32 (h.buflen buf - SIZEOF_BUF))
    (BitVec.ofInt 32 (h.dstart buf - (buf.addr + SIZEOF_BUF))) atomic with
  | fault => rfl
  | running => rfl
  | ret result =>
      rw [Outcome.ret_bind, Outcome.ret_bind]
      split
      · rfl
      · cases copyInto result.2 result.1 (long (result.2.dend buf - result.2.dstart buf)) <;> rfl

theorem reserve_forget (kmalloc : Kmalloc) (fuel : Nat) (h : Heap) (mem : Memory) (buf : Ptr) (reserve : BitVec 32) (atEnd : Bool) :
    (bufReserveBytes kmalloc fuel h mem buf reserve atEnd).bind forget = bufReserve kmalloc fuel h buf reserve atEnd := by
  unfold bufReserveBytes bufReserve
  dsimp only
  split
  · rfl
  · cases bufAlloc kmalloc fuel h (BitVec.ofInt 32 (reserveSpace h buf (roundReserve reserve) atEnd))
      (reserveLead h buf (roundReserve reserve) atEnd) false with
    | fault => rfl
    | running => rfl
    | ret result =>
        rw [Outcome.ret_bind, Outcome.ret_bind]
        split
        · rfl
        · cases copyInto result.2 result.1 (long (h.dend buf - h.dstart buf)) <;> rfl

-- What SANITY_CHECK asks of a buffer in the debugging build.
def sanityCheck (h : Heap) (a : Nat) : Bool :=
  decide (h.dstart (.mem a) ≤ h.dend (.mem a)) && decide (a + SIZEOF_BUF ≤ h.dstart (.mem a))
    && decide (h.dstart (.mem a) ≤ a + h.buflen (.mem a)) && decide (a + SIZEOF_BUF ≤ h.dend (.mem a))
    && decide (h.dend (.mem a) ≤ a + h.buflen (.mem a)) && decide (h.buflen (.mem a) ≤ BUF_BLOCK_SIZE)

theorem sanity_bounds (h : Heap) (a : Nat) (proper : sanityCheck h a = true) :
    a + SIZEOF_BUF ≤ h.dstart (.mem a) ∧ h.dstart (.mem a) ≤ h.dend (.mem a) ∧ h.dend (.mem a) ≤ a + h.buflen (.mem a) ∧
      h.buflen (.mem a) ≤ BUF_BLOCK_SIZE := by
  simp only [sanityCheck, Bool.and_eq_true, decide_eq_true_eq] at proper
  exact ⟨proper.1.1.1.1.2, proper.1.1.1.1.1, proper.1.2, proper.2⟩

-- Nothing in buf.c but the copies writes into info.
theorem absorb_info (h : Heap) (a b : Ptr) : (absorb h a b).info = h.info := by
  unfold absorb
  dsimp only
  split <;> rfl

theorem add_block_info (kmalloc : Kmalloc) (h : Heap) : (bufAddBlock kmalloc h).2.info = h.info := by
  unfold bufAddBlock
  split <;> rfl

theorem carve_info (h : Heap) (newbuf nxtbuf : Ptr) (size : Nat) : (carve h newbuf nxtbuf size).info = h.info := by
  unfold carve
  dsimp only
  split <;> rfl

theorem take_info (h : Heap) (i size : Nat) (reserve : BitVec 32) : (bufTake h i size reserve).2.info = h.info := by
  have carved := carve_info (freeUnlink h (h.nfree (.pool i))) (h.nfree (.pool i))
    (.mem ((h.nfree (.pool i)).addr + size)) size
  rw [bufTake]
  dsimp only
  generalize carve (freeUnlink h (h.nfree (.pool i))) (h.nfree (.pool i)) (.mem ((h.nfree (.pool i)).addr + size)) size = cut
    at carved ⊢
  generalize searchUp (cut.buflen (.mem ((h.nfree (.pool i)).addr + size))) 17 i = j
  generalize sub32 ((freeUnlink h (h.nfree (.pool i))).buflen (h.nfree (.pool i))) size = room
  by_cases enough : bufSize BUF_NSPLIT ≤ room
  · rw [if_pos enough]
    by_cases far : BUF_NSPLIT < j
    · rw [if_pos far]
      exact carved
    · rw [if_neg far]
      exact carved
  · rw [if_neg enough]
    rfl

theorem try_alloc_info (kmalloc : Kmalloc) (idx size : Nat) (reserve : BitVec 32) (atomic : Bool) (fuel : Nat) (h h' : Heap)
    (b : Ptr) (run : bufTryAlloc kmalloc idx size reserve atomic fuel h = .ret (b, h')) : h'.info = h.info := by
  induction fuel generalizing h with
  | zero => cases run
  | succ fuel ih =>
      unfold bufTryAlloc at run
      split at run
      · rename_i i _
        have taken := take_info h i size reserve
        rw [Outcome.ret.inj run] at taken
        exact taken
      · split at run
        · cases run
          rfl
        · have added := add_block_info kmalloc h
          split at run
          · rename_i t grown
            rw [grown] at added
            cases run
            exact added
          · rename_i t grown
            rw [grown] at added
            exact (ih t run).trans added

theorem alloc_info (kmalloc : Kmalloc) (fuel : Nat) (h h' : Heap) (size reserve : BitVec 32) (atomic : Bool) (b : Ptr)
    (run : bufAlloc kmalloc fuel h size reserve atomic = .ret (b, h')) : h'.info = h.info := by
  unfold bufAlloc at run
  split at run
  · cases run
    rfl
  · exact try_alloc_info kmalloc _ _ _ atomic fuel h h' b run

theorem join_left_fields (h : Heap) (buf : Ptr) :
    (joinLeft h buf).2.info = h.info ∧ (joinLeft h buf).2.links = h.links := by
  unfold joinLeft
  dsimp only
  split
  · refine ⟨absorb_info _ _ _, ?_⟩
    unfold absorb
    dsimp only
    split <;> rfl
  · exact ⟨rfl, rfl⟩

theorem join_right_fields (h : Heap) (buf : Ptr) : (joinRight h buf).info = h.info ∧ (joinRight h buf).links = h.links := by
  unfold joinRight
  dsimp only
  split
  · refine ⟨absorb_info _ _ _, ?_⟩
    unfold absorb
    dsimp only
    split <;> rfl
  · exact ⟨rfl, rfl⟩

theorem free_fields (h : Heap) (buf p : Ptr) :
    (bufFree h buf).info = h.info ∧ ((bufFree h buf).links p = h.links p ∨ (bufFree h buf).links p = 0) := by
  have left := join_left_fields h buf
  have right := join_right_fields (joinLeft h buf).2 (joinLeft h buf).1
  unfold bufFree
  dsimp only
  split
  · exact ⟨right.1.trans left.1, Or.inl (by rw [right.2, left.2])⟩
  · refine ⟨right.1.trans left.1, ?_⟩
    show Function.update _ _ _ p = _ ∨ _
    by_cases here : p = (joinLeft h buf).1
    · right
      show Function.update _ _ _ p = _
      rw [here, Function.update_self]
    · left
      rw [Function.update_of_ne here, right.2, left.2]

theorem deref_fields (h : Heap) (buf : Ptr) (counted : 0 < h.links buf) :
    (bufDeref h buf).info = h.info ∧ (bufDeref h buf).links buf = h.links buf - 1 := by
  unfold bufDeref
  dsimp only
  split
  · exact ⟨rfl, Function.update_self ..⟩
  · rename_i last
    rw [Function.update_self] at last
    obtain ⟨info, links⟩ := free_fields { h with links := Function.update h.links buf (h.links buf - 1) } buf buf
    refine ⟨info, ?_⟩
    rcases links with kept | zero
    · rw [kept]
      exact Function.update_self ..
    · omega

theorem deref_links_other (h : Heap) (buf p : Ptr) (other : p ≠ buf) :
    (bufDeref h buf).links p = h.links p ∨ (bufDeref h buf).links p = 0 := by
  unfold bufDeref
  dsimp only
  split
  · exact Or.inl (Function.update_of_ne other _ _)
  · have freed := (free_fields { h with links := Function.update h.links buf (h.links buf - 1) } buf p).2
    dsimp only at freed
    rwa [Function.update_of_ne other] at freed

theorem deref_links_apart (h : Heap) (bufs free : Nat → List Nat) (a c : Nat) (inv : HeapInv h bufs free [])
    (member : Member h bufs a) (counted : 0 < h.links (.mem a)) (other : c ≠ a)
    (rest : h.links (.mem c) = 0 ∨ Member h bufs c) : (bufDeref h (.mem a)).links (.mem c) = h.links (.mem c) := by
  by_cases zero : h.links (.mem c) = 0
  · rcases deref_links_other h (.mem a) (.mem c) (fun same => other (mem_injective same)) with same | gone
    · exact same
    · rw [gone, zero]
  · obtain ⟨_, _, _, kept, _⟩ := deref_kept h bufs free a inv member counted
    exact (kept c other (rest.resolve_left zero) zero).2.1

-- Two buffers of the network memory do not overlap.
theorem members_apart (h : Heap) (bufs free : Nat → List Nat) (hole : List Nat) (a c : Nat) (inv : HeapInv h bufs free hole)
    (first : Member h bufs a) (second : Member h bufs c) (different : a ≠ c) :
    a + h.buflen (.mem a) ≤ c ∨ c + h.buflen (.mem c) ≤ a := by
  obtain ⟨b, block, inside⟩ := first
  obtain ⟨b', block', inside'⟩ := second
  have own := member_bounds h bufs free hole inv b a block inside
  have other := member_bounds h bufs free hole inv b' c block' inside'
  by_cases same : b = b'
  · subst same
    by_contra overlap
    obtain ⟨one, two⟩ := not_or.mp overlap
    rcases Nat.lt_or_gt_of_ne different with less | more
    · exact tiled_inside _ _ _ _ _ (inv.tiled b block) a inside c less (Nat.lt_of_not_ge one) inside'
    · exact tiled_inside _ _ _ _ _ (inv.tiled b block) c inside' a more (Nat.lt_of_not_ge two) inside
  · have : Std.Symm fun b c : Nat => b + BUF_BLOCK_SIZE ≤ c ∨ c + BUF_BLOCK_SIZE ≤ b := ⟨fun _ _ => Or.symm⟩
    have disjoint := inv.apart.forall block block' same
    omega

theorem memcpy_here (mem : Memory) (dst src n i : Nat) (inside : i < n) : memcpy mem dst src n (dst + i) = mem (src + i) := by
  unfold memcpy
  rw [if_pos ⟨Nat.le_add_right dst i, Nat.add_lt_add_left inside dst⟩, Nat.add_sub_cancel_left]

theorem memcpy_outside (mem : Memory) (dst src n addr : Nat) (outside : addr < dst ∨ dst + n ≤ addr) :
    memcpy mem dst src n addr = mem addr := by
  unfold memcpy
  rw [if_neg (by omega)]

end MagxNet.Buf
