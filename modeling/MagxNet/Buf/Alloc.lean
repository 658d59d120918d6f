import MagxNet.Buf.Blocks

set_option autoImplicit false

namespace MagxNet.Buf

open Links Tiling

section Alloc

variable (kmalloc : Kmalloc)

def Placed (h : Heap) : Prop := ∀ b ∈ h.blocks, b + BUF_BLOCK_SIZE < 2 ^ 32

-- What buf_alloc comes to, whether it finds memory or not.
structure Allocated (h h' : Heap) (bufs : Nat → List Nat) (b : Ptr) (size : Nat) (reserve : BitVec 32) : Prop where
  placed : Placed h → Placed h'
  result : (b = .null ∧ ∃ bufs' free', HeapInv h' bufs' free' [] ∧ ∀ a, Kept h h' bufs bufs' a) ∨
    ∃ a bufs' free', b = .mem a ∧ Granted h h' bufs bufs' free' a size reserve

theorem refused (h h' : Heap) (bufs free : Nat → List Nat) (size : Nat) (reserve : BitVec 32) (inv : HeapInv h' bufs free [])
    (kept : ∀ a, Kept h h' bufs bufs a) (sameBlocks : h'.blocks = h.blocks) : Allocated h h' bufs .null size reserve :=
  ⟨fun placed => by rwa [Placed, sameBlocks], Or.inl ⟨rfl, bufs, free, inv, kept⟩⟩

theorem allocated_trans (h h1 h' : Heap) (bufs bufs1 : Nat → List Nat) (b : Ptr) (size : Nat) (reserve : BitVec 32)
    (first : ∀ a, Kept h h1 bufs bufs1 a) (placed : Placed h → Placed h1) (second : Allocated h1 h' bufs1 b size reserve) :
    Allocated h h' bufs b size reserve := by
  refine ⟨second.placed ∘ placed, ?_⟩
  rcases second.result with ⟨isNull, bufs', free', inv, kept⟩ | ⟨a, bufs', free', isMem, granted⟩
  · exact Or.inl ⟨isNull, bufs', free', inv, fun a => kept_trans h h1 h' bufs bufs1 bufs' a a (first a) (kept a) (Or.inl rfl)⟩
  · refine Or.inr ⟨a, bufs', free', isMem, granted.inv, granted.member, fun member => ?_, granted.one, granted.large,
      granted.start, granted.stop, kept_trans h h1 h' bufs bufs1 bufs' a a (first a) granted.kept (Or.inl rfl)⟩
    by_contra live
    obtain ⟨member', links, _⟩ := first (a + 1) a (Nat.ne_of_lt (Nat.lt_succ_self a)) member live
    exact live (links ▸ granted.fresh member')

theorem try_alloc_spec (idx size : Nat) (reserve : BitVec 32) (atomic : Bool) (ok : KmallocOk kmalloc) (bound : idx ≤ BUF_NSPLIT)
    (least : bufSize BUF_NSPLIT ≤ size) (fits : size ≤ bufSize idx) (b : Ptr) (h' : Heap) :
    ∀ (fuel : Nat) (h : Heap) (bufs free : Nat → List Nat), HeapInv h bufs free [] →
      bufTryAlloc kmalloc idx size reserve atomic fuel h = .ret (b, h') → Allocated h h' bufs b size reserve := by
  intro fuel
  induction fuel with
  | zero => exact fun h bufs free inv run => by cases run
  | succ fuel next =>
      intro h bufs free inv run
      rw [bufTryAlloc] at run
      have search := search_free_spec h (idx + 1)
      cases found : searchFree h (idx + 1) with
      | some i =>
          rw [found] at run search
          obtain ⟨less, filled⟩ := search
          have more := buf_size_antitone i idx (Nat.le_of_lt_succ less)
          obtain ⟨a, h1, bufs', free', taken, granted, blocks⟩ := take_spec h bufs free i size reserve inv (by omega) filled least
            (fits.trans more)
          dsimp only at run
          rw [taken] at run
          cases run
          exact ⟨fun placed => by rwa [Placed, blocks], Or.inr ⟨a, bufs', free', rfl, granted⟩⟩
      | none =>
          rw [found] at run
          dsimp only at run
          by_cases quick : atomic = true
          · rw [if_pos quick] at run
            cases run
            refine refused h _ bufs free size reserve ?_ (fun a => kept_refl h bufs a) rfl
            exact inv_frame h _ bufs free [] inv rfl rfl rfl rfl rfl rfl rfl rfl
          · rw [if_neg quick] at run
            rcases add_block_spec kmalloc h bufs free ok inv with same | ⟨addr, h1, bufs1, free1, added, inv1, kept, blocks, place, _⟩
            · rw [same] at run
              cases run
              refine refused h _ bufs free size reserve ?_ (fun a => kept_refl h bufs a) rfl
              exact inv_frame h _ bufs free [] inv rfl rfl rfl rfl rfl rfl rfl rfl
            · rw [added] at run
              refine allocated_trans h h1 h' bufs bufs1 b size reserve kept (fun placed => ?_) (next h1 bufs1 free1 inv1 run)
              rw [Placed, blocks]
              exact List.forall_mem_cons.mpr ⟨place, placed⟩

-- After a block has been added the search finds it.
theorem try_alloc_returns (idx size : Nat) (reserve : BitVec 32) (atomic : Bool) (ok : KmallocOk kmalloc) (fuel : Nat) (h : Heap)
    (bufs free : Nat → List Nat) (inv : HeapInv h bufs free []) :
    ∃ result, bufTryAlloc kmalloc idx size reserve atomic (fuel + 2) h = .ret result := by
  rw [bufTryAlloc]
  cases searchFree h (idx + 1) with
  | some i => exact ⟨_, rfl⟩
  | none =>
      dsimp only
      by_cases quick : atomic = true
      · rw [if_pos quick]
        exact ⟨_, rfl⟩
      · rw [if_neg quick]
        rcases add_block_spec kmalloc h bufs free ok inv with same | ⟨addr, h1, bufs1, free1, added, inv1, _, _, _, filled⟩
        · rw [same]
          exact ⟨_, rfl⟩
        · rw [added]
          dsimp only
          rw [bufTryAlloc]
          have search := search_free_spec h1 (idx + 1)
          cases found : searchFree h1 (idx + 1) with
          | some i => exact ⟨_, rfl⟩
          | none =>
              rw [found] at search
              have empty := search 0 (Nat.succ_pos idx)
              rw [filled] at empty
              cases empty

theorem alloc_spec (size reserve : BitVec 32) (atomic : Bool) (ok : KmallocOk kmalloc) (fuel : Nat) (h h' : Heap) (b : Ptr)
    (bufs free : Nat → List Nat) (inv : HeapInv h bufs free []) (run : bufAlloc kmalloc fuel h size reserve atomic = .ret (b, h')) :
    Allocated h h' bufs b (allocSize size) (roundReserve reserve) := by
  rw [bufAlloc] at run
  cases found : sizeIndex (allocSize size) (BUF_NSPLIT + 1) with
  | none =>
      rw [found] at run
      cases run
      refine refused h _ bufs free _ _ ?_ (fun a => kept_refl h bufs a) rfl
      exact inv_frame h _ bufs free [] inv rfl rfl rfl rfl rfl rfl rfl rfl
  | some idx =>
      rw [found] at run
      obtain ⟨less, fits⟩ := size_index_spec _ _ _ found
      exact try_alloc_spec kmalloc idx (allocSize size) (roundReserve reserve) atomic ok (Nat.le_of_lt_succ less)
        (alloc_size_lower size) fits b h' fuel h bufs free inv run

theorem alloc_returns (size reserve : BitVec 32) (atomic : Bool) (ok : KmallocOk kmalloc) (fuel : Nat) (h : Heap)
    (bufs free : Nat → List Nat) (inv : HeapInv h bufs free []) :
    ∃ result, bufAlloc kmalloc (fuel + 2) h size reserve atomic = .ret result := by
  rw [bufAlloc]
  cases sizeIndex (allocSize size) (BUF_NSPLIT + 1) with
  | none => exact ⟨_, rfl⟩
  | some idx => exact try_alloc_returns kmalloc idx _ _ atomic ok fuel h bufs free inv

-- A buffer that is handed out lies inside its block.
theorem granted_bounds (h h' : Heap) (bufs bufs' free' : Nat → List Nat) (a size : Nat) (reserve : BitVec 32)
    (granted : Granted h h' bufs bufs' free' a size reserve) (placed : Placed h') :
    h'.buflen (.mem a) ≤ BUF_BLOCK_SIZE ∧ a + h'.buflen (.mem a) < 2 ^ 32 := by
  obtain ⟨b0, block, inside⟩ := granted.member
  have bounds := member_bounds h' bufs' free' [] granted.inv b0 a block inside
  have place := placed b0 block
  omega

end Alloc

-- What the holder of a buffer keeps to: the data is empty, or lies inside the buffer.
def Sane (h : Heap) (a : Nat) : Prop :=
  h.dend (.mem a) = h.dstart (.mem a) ∨
    (a + SIZEOF_BUF ≤ h.dstart (.mem a) ∧ h.dstart (.mem a) ≤ h.dend (.mem a) ∧ h.dend (.mem a) ≤ a + h.buflen (.mem a))

-- live are the buffers handed out and not yet released.
structure Held (h : Heap) (bufs : Nat → List Nat) (live : List Nat) : Prop where
  distinct : live.Nodup
  member : ∀ a ∈ live, Member h bufs a
  counted : ∀ a ∈ live, 0 < h.links (.mem a)
  sane : ∀ a ∈ live, Sane h a

section Holders

variable (h h' : Heap) (bufs bufs' free free' : Nat → List Nat)

theorem held_step (live live' : List Nat) (a : Nat) (held : Held h bufs live) (kept : Kept h h' bufs bufs' a)
    (fewer : ∀ c ∈ live', c ∈ live) (distinct : live'.Nodup)
    (own : a ∈ live' → Member h' bufs' a ∧ 0 < h'.links (.mem a) ∧ Sane h' a) : Held h' bufs' live' := by
  have each : ∀ c ∈ live', Member h' bufs' c ∧ 0 < h'.links (.mem c) ∧ Sane h' c := by
    intro c inside
    by_cases here : c = a
    · rw [here] at inside ⊢
      exact own inside
    · have old := fewer c inside
      obtain ⟨member, links, len, start, stop⟩ := kept c here (held.member c old) (held.counted c old).ne'
      refine ⟨member, links ▸ held.counted c old, ?_⟩
      rw [Sane, start, stop, len]
      exact held.sane c old
  exact ⟨distinct, fun c inside => (each c inside).1, fun c inside => (each c inside).2.1, fun c inside => (each c inside).2.2⟩

theorem held_same (live : List Nat) (held : Held h bufs live) (kept : ∀ a, Kept h h' bufs bufs' a) : Held h' bufs' live := by
  obtain ⟨a, outside⟩ := Infinite.exists_notMem_finset live.toFinset
  exact held_step h h' bufs bufs' live live a held (kept a) (fun _ inside => inside) held.distinct fun inside =>
    absurd (List.mem_toFinset.mpr inside) outside

theorem held_erase (live : List Nat) (a : Nat) (held : Held h bufs live) (kept : Kept h h' bufs bufs' a) :
    Held h' bufs' (live.erase a) := by
  refine held_step h h' bufs bufs' live _ a held kept (fun _ inside => List.mem_of_mem_erase inside) (held.distinct.erase a) ?_
  exact fun inside => absurd rfl (held.distinct.mem_erase_iff.mp inside).1

theorem held_cons (live : List Nat) (a : Nat) (held : Held h bufs live) (fresh : a ∉ live) (member : Member h bufs a)
    (counted : 0 < h.links (.mem a)) (sane : Sane h a) : Held h bufs (a :: live) :=
  ⟨List.nodup_cons.mpr ⟨fresh, held.distinct⟩, List.forall_mem_cons.mpr ⟨member, held.member⟩,
    List.forall_mem_cons.mpr ⟨counted, held.counted⟩, List.forall_mem_cons.mpr ⟨sane, held.sane⟩⟩

theorem granted_fresh (live : List Nat) (a size : Nat) (reserve : BitVec 32) (held : Held h bufs live)
    (granted : Granted h h' bufs bufs' free' a size reserve) : a ∉ live := by
  intro inside
  have zero := granted.fresh (held.member a inside)
  have := held.counted a inside
  omega

theorem granted_held (live : List Nat) (a size : Nat) (reserve : BitVec 32) (held : Held h bufs live)
    (granted : Granted h h' bufs bufs' free' a size reserve) : Held h' bufs' (a :: live) := by
  have fresh := granted_fresh h h' bufs bufs' free' live a size reserve held granted
  refine held_cons h' bufs' live a ?_ fresh granted.member (by rw [granted.one]; decide) (Or.inl granted.stop)
  exact held_step h h' bufs bufs' live live a held granted.kept (fun _ inside => inside) held.distinct fun inside => absurd inside fresh

theorem long_eq (z : Int) (lower : -2 ^ 31 ≤ z) (upper : z < 2 ^ 31) : long z = z := by
  rw [long, BitVec.toInt_ofInt, Int.bmod]
  omega

-- A result above zero has not wrapped.
theorem long_positive (z : Int) (lower : -2 ^ 31 ≤ z) (upper : z < 2 ^ 32) (positive : 0 < long z) : long z = z ∧ z < 2 ^ 31 := by
  rw [long, BitVec.toInt_ofInt, Int.bmod] at positive ⊢
  omega

theorem round_reserve_nat (reserve : BitVec 32) : (roundReserve reserve).toNat = (reserve.toNat + 1) % 2 ^ 32 / 2 * 2 := by
  rw [roundReserve, mask_even, BitVec.toNat_add]
  rfl

theorem alloc_size_large (size : BitVec 32) (small : size.toNat < 2 ^ 31) : size.toNat + 47 ≤ allocSize size := by
  have rounded := round_size_nat size
  have least : (roundSize size).toNat ≤ allocSize size := Nat.le_max_left ..
  omega

-- The data fits behind the reserved space, so that the copy stays inside the new buffer.
theorem copy_spec (a : Nat) (reserve : BitVec 32) (used : Int) (start : h.dstart (.mem a) = add32 (a + SIZEOF_BUF) reserve.toNat)
    (place : a + h.buflen (.mem a) < 2 ^ 32)
    (room : used = 0 ∨ (0 < used ∧ SIZEOF_BUF + reserve.toNat + used ≤ h.buflen (.mem a))) :
    copyInto h (.mem a) used = .ret () ∧
      (add32 (h.dstart (.mem a)) (BitVec.ofInt 32 used).toNat = h.dstart (.mem a) ∨
        (a + SIZEOF_BUF ≤ h.dstart (.mem a) ∧ h.dstart (.mem a) ≤ add32 (h.dstart (.mem a)) (BitVec.ofInt 32 used).toNat ∧
          add32 (h.dstart (.mem a)) (BitVec.ofInt 32 used).toNat ≤ a + h.buflen (.mem a))) := by
  rw [copyInto, start]
  rcases room with none | ⟨positive, room⟩
  · refine ⟨if_pos (Or.inl none), Or.inl ?_⟩
    rw [none, add32, add32]
    simp
  · have first : add32 (a + SIZEOF_BUF) reserve.toNat = a + SIZEOF_BUF + reserve.toNat := by
      rw [add32]
      omega
    have length : (BitVec.ofInt 32 used).toNat = used.toNat := by
      rw [BitVec.toNat_ofInt]
      omega
    have last : add32 (a + SIZEOF_BUF + reserve.toNat) used.toNat = a + SIZEOF_BUF + reserve.toNat + used.toNat := by
      rw [add32]
      omega
    rw [first, length, last]
    refine ⟨if_pos (Or.inr ⟨positive, ?_⟩), Or.inr ⟨by omega, by omega, by omega⟩⟩
    change ((a + SIZEOF_BUF + reserve.toNat : Nat) : Int) + used ≤ a + h.buflen (.mem a)
    omega

end Holders

end MagxNet.Buf
