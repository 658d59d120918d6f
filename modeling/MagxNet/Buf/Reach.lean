import MagxNet.Buf.Alloc

set_option autoImplicit false

namespace MagxNet.Buf

open Links Tiling

-- The network memory and the buffers that are out.
structure State where
  heap : Heap
  live : List Nat

inductive Op where
  | alloc (size reserve : BitVec 32) (atomic : Bool)
  | free (a : Nat)
  | deref (a : Nat)
  | ref (a : Nat)
  | clone (a : Nat) (atomic : Bool)
  | reserve (a : Nat) (space : BitVec 32) (atEnd : Bool)
  | fill (a start stop : Nat) (info : Int)
  | addBlock
  | addmem
  | gc

-- buf_deref releases the buffer with the last reference only.
def release (s : State) (a : Nat) : List Nat := if 1 < s.heap.links (.mem a) then s.live else s.live.erase a

def handedOut (live : List Nat) : Ptr × Heap → State
  | (.mem a, h) => ⟨h, a :: live⟩
  | (_, h) => ⟨h, live⟩

-- A buffer is used, and released, only while it is out. links is a short.
def Op.Allowed (s : State) : Op → Prop
  | .free a | .deref a | .clone a _ | .reserve a _ _ => a ∈ s.live
  | .ref a => a ∈ s.live ∧ s.heap.links (.mem a) < 32767
  | .fill a start stop _ => a ∈ s.live ∧ a + SIZEOF_BUF ≤ start ∧ start ≤ stop ∧ stop ≤ a + s.heap.buflen (.mem a)
  | _ => True

def Op.run (kmalloc : Kmalloc) (fuel : Nat) (s : State) : Op → Outcome State
  | .alloc size lead atomic => (bufAlloc kmalloc fuel s.heap size lead atomic).bind fun result => .ret (handedOut s.live result)
  | .free a => .ret ⟨bufFree s.heap (.mem a), s.live.erase a⟩
  | .deref a => .ret ⟨bufDeref s.heap (.mem a), release s a⟩
  | .ref a => .ret { s with heap.links := Function.update s.heap.links (.mem a) (s.heap.links (.mem a) + 1) }
  | .clone a atomic => (bufClone kmalloc fuel s.heap (.mem a) atomic).bind fun result => .ret (handedOut s.live result)
  | .reserve a space atEnd => (bufReserve kmalloc fuel s.heap (.mem a) space atEnd).bind fun result =>
      if result.1 = .null ∨ result.1 = .mem a then .ret ⟨result.2, s.live⟩ else .ret (handedOut (release s a) result)
  | .fill a start stop info => .ret { s with
      heap.dstart := Function.update s.heap.dstart (.mem a) start, heap.dend := Function.update s.heap.dend (.mem a) stop
      heap.info := Function.update s.heap.info (.mem a) info }
  | .addBlock => .ret ⟨(bufAddBlock kmalloc s.heap).2, s.live⟩
  | .addmem => .ret ⟨Buf.addmem kmalloc s.heap, s.live⟩
  | .gc => (Buf.gc fuel s.heap).bind fun h => .ret ⟨h, s.live⟩

inductive Reachable : State → Prop where
  | init (kmalloc : Kmalloc) (h h' : Heap) (ok : KmallocOk kmalloc) (blank : h.blocks = []) (unused : h.memUsed = 0)
      (run : bufInit kmalloc h = (false, h')) : Reachable ⟨h', []⟩
  | step (kmalloc : Kmalloc) (fuel : Nat) (s s' : State) (op : Op) (reach : Reachable s) (ok : KmallocOk kmalloc)
      (allowed : op.Allowed s) (run : op.run kmalloc fuel s = .ret s') : Reachable s'

def Good (s : State) : Prop := ∃ bufs free, HeapInv s.heap bufs free [] ∧ Placed s.heap ∧ Held s.heap bufs s.live

section Steps

variable (kmalloc : Kmalloc) (h : Heap) (bufs free : Nat → List Nat) (live : List Nat) (a : Nat)

theorem live_hole (inv : HeapInv h bufs free []) (held : Held h bufs live) (inside : a ∈ live) : HeapInv h bufs free [a] :=
  inv_hole_live h bufs free [] a inv (held.counted a inside).ne'

theorem counted_hole (inv : HeapInv h bufs free []) (held : Held h bufs live) (inside : a ∈ live) (count : Int) :
    HeapInv { h with links := Function.update h.links (.mem a) count } bufs free [a] :=
  inv_links h bufs free [a] a count (live_hole h bufs free live a inv held inside) (List.mem_singleton_self a)

theorem counted_kept (count : Int) :
    Kept h { h with links := Function.update h.links (.mem a) count } bufs bufs a := fun _ other member _ =>
  ⟨member, Function.update_of_ne (fun same => other (mem_injective same)) .., rfl, rfl, rfl⟩

theorem counted_good (inv : HeapInv h bufs free []) (placed : Placed h) (held : Held h bufs live) (inside : a ∈ live) (count : Int)
    (positive : 0 < count) : Good ⟨{ h with links := Function.update h.links (.mem a) count }, live⟩ := by
  refine ⟨bufs, free, ?_, placed, ?_⟩
  · refine inv_hole_busy _ bufs free [] a (counted_hole h bufs free live a inv held inside count) ?_
    simpa using positive.ne'
  · refine held_step h _ bufs bufs live live a held (counted_kept h bufs a count) (fun _ member => member) held.distinct fun _ => ?_
    exact ⟨held.member a inside, by simpa using positive, held.sane a inside⟩

theorem free_good (inv : HeapInv h bufs free []) (placed : Placed h) (held : Held h bufs live) (inside : a ∈ live) :
    Good ⟨bufFree h (.mem a), live.erase a⟩ := by
  obtain ⟨bufs', free', inv', kept, blocks⟩ := free_spec h bufs free a (live_hole h bufs free live a inv held inside)
    (held.member a inside)
  exact ⟨bufs', free', inv', by rwa [Placed, blocks], held_erase h _ bufs bufs' live a held kept⟩

theorem deref_good (inv : HeapInv h bufs free []) (placed : Placed h) (held : Held h bufs live) (inside : a ∈ live) :
    Good ⟨bufDeref h (.mem a), release ⟨h, live⟩ a⟩ := by
  rw [bufDeref, release]
  dsimp only
  by_cases more : 1 < h.links (.mem a)
  · rw [if_pos more, if_pos (by simpa using more)]
    exact counted_good h bufs free live a inv placed held inside _ (by omega)
  · rw [if_neg more, if_neg (by simpa using more)]
    have counted := counted_hole h bufs free live a inv held inside (h.links (.mem a) - 1)
    obtain ⟨bufs', free', inv', kept, blocks⟩ := free_spec _ bufs free a counted (held.member a inside)
    have both := kept_trans h _ _ bufs bufs bufs' a a (counted_kept h bufs a _) kept (Or.inl rfl)
    exact ⟨bufs', free', inv', by rwa [Placed, blocks], held_erase h _ bufs bufs' live a held both⟩

theorem alloc_good (size reserve : BitVec 32) (atomic : Bool) (ok : KmallocOk kmalloc) (fuel : Nat) (b : Ptr) (h' : Heap)
    (inv : HeapInv h bufs free []) (placed : Placed h) (held : Held h bufs live)
    (run : bufAlloc kmalloc fuel h size reserve atomic = .ret (b, h')) : Good (handedOut live (b, h')) := by
  obtain ⟨place, result⟩ := alloc_spec kmalloc size reserve atomic ok fuel h h' b bufs free inv run
  rcases result with ⟨rfl, bufs', free', inv', kept⟩ | ⟨x, bufs', free', rfl, granted⟩
  · exact ⟨bufs', free', inv', place placed, held_same h h' bufs bufs' live held kept⟩
  · exact ⟨bufs', free', granted.inv, place placed, granted_held h h' bufs bufs' free' live x _ _ held granted⟩

-- The clone asks for two bytes more than the data can take up with its lead rounded.
theorem clone_room (sane : Sane h a) (small : h.buflen (.mem a) ≤ BUF_BLOCK_SIZE) (least : SIZEOF_BUF ≤ h.buflen (.mem a)) :
    long (h.dend (.mem a) - h.dstart (.mem a)) = 0 ∨ (0 < long (h.dend (.mem a) - h.dstart (.mem a)) ∧
      SIZEOF_BUF + (roundReserve (BitVec.ofInt 32 (h.dstart (.mem a) - (a + SIZEOF_BUF)))).toNat +
        long (h.dend (.mem a) - h.dstart (.mem a)) ≤ allocSize (BitVec.ofInt 32 (h.buflen (.mem a) - SIZEOF_BUF))) := by
  have limit : BUF_BLOCK_SIZE = 32768 := rfl
  have header : SIZEOF_BUF = 46 := rfl
  rcases sane with empty | ⟨first, order, last⟩
  · left
    rw [empty, sub_self]
    rfl
  · rw [long_eq _ (by omega) (by omega)]
    have lead : (roundReserve (BitVec.ofInt 32 (h.dstart (.mem a) - (a + SIZEOF_BUF)))).toNat ≤ h.dstart (.mem a) - (a + SIZEOF_BUF) + 1 := by
      rw [round_reserve_nat, BitVec.toNat_ofInt]
      omega
    have asked : (BitVec.ofInt 32 (h.buflen (.mem a) - SIZEOF_BUF)).toNat = h.buflen (.mem a) - SIZEOF_BUF := by
      rw [BitVec.toNat_ofInt]
      omega
    have enough := alloc_size_large (BitVec.ofInt 32 (h.buflen (.mem a) - SIZEOF_BUF)) (by omega)
    omega

theorem reserve_room (space : BitVec 32) (atEnd : Bool)
    (short : ¬ reserveSpace h (.mem a) (roundReserve space) atEnd ≤ h.buflen (.mem a) - SIZEOF_BUF) (sane : Sane h a)
    (small : h.buflen (.mem a) ≤ BUF_BLOCK_SIZE) (least : SIZEOF_BUF ≤ h.buflen (.mem a)) :
    long (h.dend (.mem a) - h.dstart (.mem a)) = 0 ∨ (0 < long (h.dend (.mem a) - h.dstart (.mem a)) ∧
      SIZEOF_BUF + (roundReserve (reserveLead h (.mem a) (roundReserve space) atEnd)).toNat +
        long (h.dend (.mem a) - h.dstart (.mem a)) ≤ allocSize (BitVec.ofInt 32 (reserveSpace h (.mem a) (roundReserve space) atEnd))) := by
  have limit : BUF_BLOCK_SIZE = 32768 := rfl
  have header : SIZEOF_BUF = 46 := rfl
  rcases sane with empty | ⟨first, order, last⟩
  · left
    rw [empty, sub_self]
    rfl
  · rw [long_eq (h.dend (.mem a) - h.dstart (.mem a)) (by omega) (by omega)]
    have lower := (roundReserve space).le_toInt
    have upper := (roundReserve space).toInt_lt
    generalize asked : reserveSpace h (.mem a) (roundReserve space) atEnd = nspace at short ⊢
    rw [reserveSpace, Ptr.addr] at asked
    have positive : nspace < 2 ^ 31 → (BitVec.ofInt 32 nspace).toNat = nspace.toNat := fun half => by
      rw [BitVec.toNat_ofInt]
      omega
    rw [reserveLead, Ptr.addr]
    cases atEnd with
    | true =>
        simp only [if_true] at asked ⊢
        generalize sum : (h.dend (.mem a) : Int) - (a + SIZEOF_BUF) + (roundReserve space).toInt = z at asked
        obtain ⟨same, half⟩ := long_positive z (by omega) (by omega) (by omega)
        have count := positive (by omega)
        have lead : (roundReserve (BitVec.ofInt 32 (h.dstart (.mem a) - (a + SIZEOF_BUF)))).toNat ≤
            h.dstart (.mem a) - (a + SIZEOF_BUF) + 1 := by
          rw [round_reserve_nat, BitVec.toNat_ofInt]
          omega
        have enough := alloc_size_large (BitVec.ofInt 32 nspace) (by omega)
        omega
    | false =>
        simp only [Bool.false_eq_true, if_false] at asked ⊢
        generalize sum : (a : Int) + h.buflen (.mem a) - h.dstart (.mem a) + (roundReserve space).toInt = z at asked
        obtain ⟨same, half⟩ := long_positive z (by omega) (by omega) (by omega)
        have count := positive (by omega)
        have once := round_reserve_nat space
        have twice := round_reserve_nat (roundReserve space)
        have signed := BitVec.toInt_eq_toNat_cond (roundReserve space)
        have enough := alloc_size_large (BitVec.ofInt 32 nspace) (by omega)
        split at signed <;> omega

-- The data has been copied into the new buffer x.
theorem copied (h1 : Heap) (bufs1 free1 : Nat → List Nat) (x size : Nat) (reserve : BitVec 32) (used info : Int)
    (granted : Granted h h1 bufs bufs1 free1 x size reserve) (placed : Placed h1) (held : Held h1 bufs1 (x :: live))
    (room : used = 0 ∨ (0 < used ∧ SIZEOF_BUF + reserve.toNat + used ≤ size)) :
    copyInto h1 (.mem x) used = .ret () ∧ ∀ h2, h2 = { h1 with
      dend := Function.update h1.dend (.mem x) (add32 (h1.dstart (.mem x)) (BitVec.ofInt 32 used).toNat)
      info := Function.update h1.info (.mem x) info } →
      HeapInv h2 bufs1 free1 [] ∧ Placed h2 ∧ Held h2 bufs1 (x :: live) ∧ Kept h1 h2 bufs1 bufs1 x := by
  obtain ⟨_, place⟩ := granted_bounds h h1 bufs bufs1 free1 x size reserve granted placed
  have large := granted.large
  obtain ⟨copy, sane⟩ := copy_spec h1 x reserve used granted.start place
    (room.imp_right fun facts => ⟨facts.1, by have := facts.2; omega⟩)
  refine ⟨copy, ?_⟩
  rintro h2 rfl
  have kept : Kept h1 { h1 with
      dend := Function.update h1.dend (.mem x) (add32 (h1.dstart (.mem x)) (BitVec.ofInt 32 used).toNat)
      info := Function.update h1.info (.mem x) info } bufs1 bufs1 x := fun c other member _ =>
    ⟨member, rfl, rfl, rfl, Function.update_of_ne (fun same => other (mem_injective same)) ..⟩
  refine ⟨inv_frame h1 _ bufs1 free1 [] granted.inv rfl rfl rfl rfl rfl rfl rfl rfl, placed, ?_, kept⟩
  refine held_step h1 _ bufs1 bufs1 _ _ x held kept (fun _ inside => inside) held.distinct fun _ => ?_
  refine ⟨granted.member, by rw [granted.one]; decide, ?_⟩
  rw [Sane]
  dsimp only
  rw [Function.update_self]
  exact sane

-- A live buffer is not the one handed out, and has not changed.
theorem live_kept (h1 : Heap) (bufs1 free1 : Nat → List Nat) (x size : Nat) (reserve : BitVec 32)
    (granted : Granted h h1 bufs bufs1 free1 x size reserve) (held : Held h bufs live) (inside : a ∈ live) :
    a ≠ x ∧ h1.links (.mem a) = h.links (.mem a) ∧ h1.dstart (.mem a) = h.dstart (.mem a) ∧ h1.dend (.mem a) = h.dend (.mem a) := by
  have different : a ≠ x := fun same => granted_fresh h h1 bufs bufs1 free1 live x size reserve held granted (same ▸ inside)
  obtain ⟨_, links, _, start, stop⟩ := granted.kept a different (held.member a inside) (held.counted a inside).ne'
  exact ⟨different, links, start, stop⟩

theorem live_size (inv : HeapInv h bufs free []) (held : Held h bufs live) (inside : a ∈ live) :
    h.buflen (.mem a) ≤ BUF_BLOCK_SIZE ∧ SIZEOF_BUF ≤ h.buflen (.mem a) := by
  obtain ⟨b0, block, member⟩ := held.member a inside
  have bounds := member_bounds h bufs free [] inv b0 a block member
  have least : SIZEOF_BUF ≤ bufSize BUF_NSPLIT := by decide
  omega

theorem clone_result (atomic : Bool) (ok : KmallocOk kmalloc) (fuel : Nat) (result : Ptr × Heap) (inv : HeapInv h bufs free [])
    (placed : Placed h) (held : Held h bufs live) (inside : a ∈ live)
    (run : bufAlloc kmalloc fuel h (BitVec.ofInt 32 (h.buflen (.mem a) - SIZEOF_BUF))
      (BitVec.ofInt 32 (h.dstart (.mem a) - (a + SIZEOF_BUF))) atomic = .ret result) :
    ∃ final, bufClone kmalloc fuel h (.mem a) atomic = .ret final ∧ Good (handedOut live final) := by
  obtain ⟨b, h1⟩ := result
  rw [bufClone]
  dsimp only [Ptr.addr]
  rw [run, Outcome.ret_bind]
  dsimp only
  obtain ⟨place, outcome⟩ := alloc_spec kmalloc _ _ atomic ok fuel h h1 b bufs free inv run
  rcases outcome with ⟨rfl, bufs1, free1, inv1, kept⟩ | ⟨x, bufs1, free1, rfl, granted⟩
  · rw [if_pos rfl]
    exact ⟨_, rfl, bufs1, free1, inv1, place placed, held_same h h1 bufs bufs1 live held kept⟩
  · obtain ⟨_, _, start, stop⟩ := live_kept h bufs live a h1 bufs1 free1 x _ _ granted held inside
    obtain ⟨small, least⟩ := live_size h bufs free live a inv held inside
    have room := clone_room h a (held.sane a inside) small least
    have more := granted_held h h1 bufs bufs1 free1 live x _ _ held granted
    obtain ⟨copy, after⟩ := copied h bufs live h1 bufs1 free1 x _ _ _ (h1.info (.mem a)) granted (place placed) more room
    rw [start, stop, copy, granted.stop, if_neg (fun same => by cases same)]
    obtain ⟨inv2, placed2, held2, _⟩ := after _ rfl
    exact ⟨_, rfl, bufs1, free1, inv2, placed2, held2⟩

theorem reserve_result (space : BitVec 32) (atEnd : Bool) (ok : KmallocOk kmalloc) (fuel : Nat) (result : Ptr × Heap)
    (inv : HeapInv h bufs free []) (placed : Placed h) (held : Held h bufs live) (inside : a ∈ live)
    (short : ¬ reserveSpace h (.mem a) (roundReserve space) atEnd ≤ h.buflen (.mem a) - SIZEOF_BUF)
    (run : bufAlloc kmalloc fuel h (BitVec.ofInt 32 (reserveSpace h (.mem a) (roundReserve space) atEnd))
      (reserveLead h (.mem a) (roundReserve space) atEnd) false = .ret result) :
    ∃ final, bufReserve kmalloc fuel h (.mem a) space atEnd = .ret final ∧
      Good (if final.1 = .null ∨ final.1 = .mem a then ⟨final.2, live⟩ else handedOut (release ⟨h, live⟩ a) final) := by
  obtain ⟨b, h1⟩ := result
  rw [bufReserve]
  dsimp only
  rw [if_neg short, run, Outcome.ret_bind]
  dsimp only
  obtain ⟨place, outcome⟩ := alloc_spec kmalloc _ _ false ok fuel h h1 b bufs free inv run
  rcases outcome with ⟨rfl, bufs1, free1, inv1, kept⟩ | ⟨x, bufs1, free1, rfl, granted⟩
  · rw [if_pos rfl]
    refine ⟨_, rfl, ?_⟩
    rw [if_pos (Or.inl rfl)]
    exact ⟨bufs1, free1, inv1, place placed, held_same h h1 bufs bufs1 live held kept⟩
  · obtain ⟨different, links, start, stop⟩ := live_kept h bufs live a h1 bufs1 free1 x _ _ granted held inside
    obtain ⟨small, least⟩ := live_size h bufs free live a inv held inside
    have room := reserve_room h a space atEnd short (held.sane a inside) small least
    have more := granted_held h h1 bufs bufs1 free1 live x _ _ held granted
    obtain ⟨copy, after⟩ := copied h bufs live h1 bufs1 free1 x _ _ _ (h1.info (.mem a)) granted (place placed) more room
    rw [copy, Outcome.ret_bind, if_neg (fun same => by cases same)]
    refine ⟨_, rfl, ?_⟩
    obtain ⟨inv2, placed2, held2, _⟩ := after _ rfl
    have freed := deref_good _ bufs1 free1 (x :: live) a inv2 placed2 held2 (List.mem_cons_of_mem _ inside)
    have unequal : Ptr.mem x ≠ .mem a := fun same => different (mem_injective same).symm
    rw [if_neg (by simpa using unequal)]
    have rest : x :: release ⟨h, live⟩ a = release ⟨{ h1 with
        dend := Function.update h1.dend (.mem x) (add32 (h1.dstart (.mem x))
          (BitVec.ofInt 32 (long (h.dend (.mem a) - h.dstart (.mem a)))).toNat)
        info := Function.update h1.info (.mem x) (h1.info (.mem a)) }, x :: live⟩ a := by
      rw [release, release]
      dsimp only
      rw [links, List.erase_cons_tail (by simpa using different.symm)]
      by_cases shared : 1 < h.links (.mem a)
      · rw [if_pos shared, if_pos shared]
      · rw [if_neg shared, if_neg shared]
    rw [handedOut, rest]
    exact freed

theorem fill_good (start stop : Nat) (info : Int) (inv : HeapInv h bufs free []) (placed : Placed h) (held : Held h bufs live)
    (inside : a ∈ live) (first : a + SIZEOF_BUF ≤ start) (order : start ≤ stop) (last : stop ≤ a + h.buflen (.mem a)) :
    Good ⟨{ h with
      dstart := Function.update h.dstart (.mem a) start, dend := Function.update h.dend (.mem a) stop
      info := Function.update h.info (.mem a) info }, live⟩ := by
  refine ⟨bufs, free, inv_frame h _ bufs free [] inv rfl rfl rfl rfl rfl rfl rfl rfl, placed, ?_⟩
  refine held_step h _ bufs bufs live live a held (fun c other member _ => ?_) (fun _ member => member) held.distinct fun _ => ?_
  · have unequal : Ptr.mem c ≠ .mem a := fun same => other (mem_injective same)
    exact ⟨member, rfl, rfl, Function.update_of_ne unequal .., Function.update_of_ne unequal ..⟩
  · refine ⟨held.member a inside, held.counted a inside, Or.inr ?_⟩
    dsimp only
    rw [Function.update_self, Function.update_self]
    exact ⟨first, order, last⟩

theorem add_block_good (ok : KmallocOk kmalloc) (inv : HeapInv h bufs free []) (placed : Placed h) (held : Held h bufs live) :
    Good ⟨(bufAddBlock kmalloc h).2, live⟩ := by
  rcases add_block_spec kmalloc h bufs free ok inv with same | ⟨addr, h', bufs', free', added, inv', kept, blocks, place, _⟩
  · rw [same]
    exact ⟨bufs, free, inv, placed, held⟩
  · rw [added]
    refine ⟨bufs', free', inv', ?_, held_same h h' bufs bufs' live held kept⟩
    rw [Placed, blocks]
    exact List.forall_mem_cons.mpr ⟨place, placed⟩

-- No block with a live buffer is given back.
theorem gc_keeps_live (fuel : Nat) (h' : Heap) (inv : HeapInv h bufs free []) (held : Held h bufs live)
    (run : gc fuel h = .ret h') (b : Nat) (block : b ∈ h.blocks) (inside : a ∈ bufs b) (out : a ∈ live) : b ∈ h'.blocks := by
  by_contra gone
  obtain ⟨_, _, freed, _⟩ := gc_spec bufs fuel h h' free inv run
  obtain ⟨single, zero⟩ := freed b block gone
  rw [single] at inside
  obtain rfl := List.mem_singleton.mp inside
  exact (held.counted a out).ne' zero

theorem gc_good (fuel : Nat) (h' : Heap) (inv : HeapInv h bufs free []) (placed : Placed h) (held : Held h bufs live)
    (run : gc fuel h = .ret h') : Good ⟨h', live⟩ := by
  obtain ⟨⟨free', inv'⟩, fewer, _, links, len, start, stop⟩ := gc_spec bufs fuel h h' free inv run
  refine ⟨bufs, free', inv', fun b block => placed b (fewer b block), held.distinct, fun c inside => ?_, fun c inside => ?_,
    fun c inside => ?_⟩
  · obtain ⟨b, block, member⟩ := held.member c inside
    exact ⟨b, gc_keeps_live h bufs free live c fuel h' inv held run b block member inside, member⟩
  · exact links ▸ held.counted c inside
  · dsimp only
    rw [Sane, start, stop, len]
    exact held.sane c inside

end Steps

theorem op_good (kmalloc : Kmalloc) (fuel : Nat) (s s' : State) (op : Op) (good : Good s) (ok : KmallocOk kmalloc)
    (allowed : op.Allowed s) (run : op.run kmalloc fuel s = .ret s') : Good s' := by
  obtain ⟨bufs, free, inv, placed, held⟩ := good
  cases op with
  | alloc size lead atomic =>
      obtain ⟨⟨b, h⟩, granted, rest⟩ := (Outcome.bind_eq_ret _ _ _).mp run
      cases rest
      exact alloc_good kmalloc s.heap bufs free s.live size lead atomic ok fuel b h inv placed held granted
  | free a =>
      cases run
      exact free_good s.heap bufs free s.live a inv placed held allowed
  | deref a =>
      cases run
      exact deref_good s.heap bufs free s.live a inv placed held allowed
  | ref a =>
      cases run
      exact counted_good s.heap bufs free s.live a inv placed held allowed.1 _ (by have := held.counted a allowed.1; omega)
  | clone a atomic =>
      obtain ⟨result, cloned, rest⟩ := (Outcome.bind_eq_ret _ _ _).mp run
      obtain ⟨granted, taken, _⟩ := (Outcome.bind_eq_ret _ _ _).mp cloned
      obtain ⟨final, same, good⟩ := clone_result kmalloc s.heap bufs free s.live a atomic ok fuel granted inv placed held allowed taken
      rw [cloned] at same
      cases same
      cases rest
      exact good
  | reserve a space atEnd =>
      obtain ⟨result, reserved, rest⟩ := (Outcome.bind_eq_ret _ _ _).mp run
      by_cases short : reserveSpace s.heap (.mem a) (roundReserve space) atEnd ≤ s.heap.buflen (.mem a) - SIZEOF_BUF
      · rw [bufReserve] at reserved
        dsimp only at reserved
        rw [if_pos short] at reserved
        cases reserved
        rw [if_pos (Or.inr rfl)] at rest
        cases rest
        exact ⟨bufs, free, inv, placed, held⟩
      · have whole := reserved
        rw [bufReserve] at reserved
        dsimp only at reserved
        rw [if_neg short] at reserved
        obtain ⟨granted, taken, _⟩ := (Outcome.bind_eq_ret _ _ _).mp reserved
        obtain ⟨final, same, good⟩ := reserve_result kmalloc s.heap bufs free s.live a space atEnd ok fuel granted inv placed held
          allowed short taken
        rw [whole] at same
        cases same
        split at rest
        all_goals
          rename_i which
          cases rest
        · rwa [if_pos which] at good
        · rwa [if_neg which] at good
  | fill a start stop info =>
      cases run
      exact fill_good s.heap bufs free s.live a start stop info inv placed held allowed.1 allowed.2.1 allowed.2.2.1 allowed.2.2.2
  | addBlock =>
      cases run
      exact add_block_good kmalloc s.heap bufs free s.live ok inv placed held
  | addmem =>
      cases run
      refine add_block_good kmalloc { s.heap with bufTmout := false } bufs free s.live ok ?_ placed ?_
      · exact inv_frame s.heap _ bufs free [] inv rfl rfl rfl rfl rfl rfl rfl rfl
      · exact ⟨held.distinct, held.member, held.counted, held.sane⟩
  | gc =>
      obtain ⟨h', collected, rest⟩ := (Outcome.bind_eq_ret _ _ _).mp run
      cases rest
      exact gc_good s.heap bufs free s.live fuel h' inv placed held collected

theorem reachable_good (s : State) (reach : Reachable s) : Good s := by
  induction reach with
  | init kmalloc h h' ok blank unused run =>
      obtain ⟨bufs, free, inv, placed⟩ := init_spec kmalloc h ok h' blank unused run
      exact ⟨bufs, free, inv, placed, List.nodup_nil, by simp, by simp, by simp⟩
  | step kmalloc fuel s s' op _ ok allowed run good => exact op_good kmalloc fuel s s' op good ok allowed run

-- Every call comes back: no copy leaves its buffer, and no loop runs for ever.
theorem op_returns (kmalloc : Kmalloc) (fuel : Nat) (s : State) (op : Op) (reach : Reachable s) (ok : KmallocOk kmalloc)
    (allowed : op.Allowed s) (enough : s.heap.blocks.length < fuel + 2) : ∃ s', op.run kmalloc (fuel + 2) s = .ret s' := by
  obtain ⟨bufs, free, inv, placed, held⟩ := reachable_good s reach
  cases op with
  | alloc size lead atomic =>
      obtain ⟨result, run⟩ := alloc_returns kmalloc size lead atomic ok fuel s.heap bufs free inv
      exact ⟨_, (Outcome.bind_eq_ret _ _ _).mpr ⟨result, run, rfl⟩⟩
  | clone a atomic =>
      obtain ⟨result, run⟩ := alloc_returns kmalloc _ _ atomic ok fuel s.heap bufs free inv
      obtain ⟨final, cloned, _⟩ := clone_result kmalloc s.heap bufs free s.live a atomic ok (fuel + 2) result inv placed held allowed run
      exact ⟨_, (Outcome.bind_eq_ret _ _ _).mpr ⟨final, cloned, rfl⟩⟩
  | reserve a space atEnd =>
      have done : ∃ final, bufReserve kmalloc (fuel + 2) s.heap (.mem a) space atEnd = .ret final := by
        by_cases short : reserveSpace s.heap (.mem a) (roundReserve space) atEnd ≤ s.heap.buflen (.mem a) - SIZEOF_BUF
        · rw [bufReserve]
          exact ⟨_, if_pos short⟩
        · obtain ⟨result, run⟩ := alloc_returns kmalloc _ _ false ok fuel s.heap bufs free inv
          obtain ⟨final, reserved, _⟩ := reserve_result kmalloc s.heap bufs free s.live a space atEnd ok (fuel + 2) result inv placed
            held allowed short run
          exact ⟨final, reserved⟩
      obtain ⟨final, reserved⟩ := done
      rw [Op.run, reserved, Outcome.ret_bind]
      split <;> exact ⟨_, rfl⟩
  | gc =>
      obtain ⟨h', run⟩ := gc_returns bufs (fuel + 2) s.heap free inv enough
      exact ⟨_, (Outcome.bind_eq_ret _ _ _).mpr ⟨h', run, rfl⟩⟩
  | free a => exact ⟨_, rfl⟩
  | deref a => exact ⟨_, rfl⟩
  | ref a => exact ⟨_, rfl⟩
  | fill a start stop info => exact ⟨_, rfl⟩
  | addBlock => exact ⟨_, rfl⟩
  | addmem => exact ⟨_, rfl⟩

-- bufs b are the buffers of block b in the order of their _n chain, free i those on free list i.
theorem buf_heap_invariant (s : State) (reach : Reachable s) : ∃ bufs free : Nat → List Nat,
    (s.heap.blocks.Pairwise fun b c => b + BUF_BLOCK_SIZE ≤ c ∨ c + BUF_BLOCK_SIZE ≤ b) ∧
    (∀ b ∈ s.heap.blocks, Chain s.heap.n s.heap.p .null ((bufs b).map .mem) ∧ (bufs b).head? = some b ∧
      ((bufs b).IsChain fun x y => x + s.heap.buflen (.mem x) = y) ∧
      ((bufs b).map fun a => s.heap.buflen (.mem a)).sum = BUF_BLOCK_SIZE ∧
      (bufs b).IsChain fun x y => ¬ (s.heap.links (.mem x) = 0 ∧ s.heap.links (.mem y) = 0)) ∧
    (∀ i ≤ BUF_NSPLIT, Ring s.heap.nfree s.heap.pfree (.pool i) ((free i).map .mem)) ∧
    (∀ i ≤ BUF_NSPLIT, ∀ a ∈ free i, (∃ b ∈ s.heap.blocks, a ∈ bufs b) ∧ s.heap.links (.mem a) = 0 ∧
      bufSize i ≤ s.heap.buflen (.mem a) ∧ (0 < i → s.heap.buflen (.mem a) < bufSize (i - 1))) ∧
    (∀ b ∈ s.heap.blocks, ∀ a ∈ bufs b, (∃! i, i ≤ BUF_NSPLIT ∧ a ∈ free i) ↔ s.heap.links (.mem a) = 0) ∧
    s.heap.memUsed = BUF_BLOCK_SIZE * s.heap.blocks.length ∧
    (∀ a ∈ s.live, ∃ b ∈ s.heap.blocks, a ∈ bufs b) ∧
    ∀ fuel h', gc fuel s.heap = .ret h' → ∀ b ∈ s.heap.blocks, b ∉ h'.blocks → ∀ a ∈ s.live, ¬ (b ≤ a ∧ a < b + BUF_BLOCK_SIZE) := by
  obtain ⟨bufs, free, inv, placed, held⟩ := reachable_good s reach
  refine ⟨bufs, free, inv.apart, fun b block => ?_, inv.rings, fun i bound a inside => ?_, fun b block a inside => ?_, inv.counted,
    held.member, fun fuel h' run b block gone a out within => gone ?_⟩
  · have tiled := inv.tiled b block
    have sum := tiled_sum _ _ _ _ _ tiled
    refine ⟨inv.chain b block, tiled_first _ _ _ _ _ (Nat.lt_add_of_pos_right (by decide)) tiled, tiled_touching _ _ _ _ _ tiled,
      by omega, ?_⟩
    exact (inv.coalesced b block).imp fun x y open_ both => open_ ⟨⟨both.1, List.not_mem_nil⟩, both.2, List.not_mem_nil⟩
  · obtain ⟨member, isFree, fits⟩ := (inv.listed i bound a).mp inside
    exact ⟨member, isFree.1, fits.1, fits.2⟩
  · constructor
    · rintro ⟨i, ⟨bound, listed⟩, _⟩
      exact ((inv.listed i bound a).mp listed).2.1.1
    · intro zero
      obtain ⟨i, bound, fits⟩ := class_exists _ (member_bounds _ bufs free [] inv b a block inside).2.2
      have listed := (inv.listed i bound a).mpr ⟨⟨b, block, inside⟩, ⟨zero, List.not_mem_nil⟩, fits⟩
      exact ⟨i, ⟨bound, listed⟩, fun j other => free_apart _ bufs free [] inv j i a other.1 bound other.2 listed⟩
  · obtain ⟨c, isBlock, inside⟩ := held.member a out
    have bounds := member_bounds _ bufs free [] inv c a isBlock inside
    have positive := least_positive
    have same : c = b := by
      by_contra different
      have : Std.Symm fun b c : Nat => b + BUF_BLOCK_SIZE ≤ c ∨ c + BUF_BLOCK_SIZE ≤ b := ⟨fun _ _ => Or.symm⟩
      have disjoint := inv.apart.forall isBlock block different
      omega
    exact same ▸ gc_keeps_live _ bufs free s.live a fuel h' inv held run c isBlock inside out

def blankHeap : Heap where
  buflen _ := 0
  links _ := 0
  dstart _ := 0
  dend _ := 0
  info _ := 0
  n _ := .null
  p _ := .null
  nfree _ := .null
  pfree _ := .null
  memUsed := 0
  failedAllocs := 0
  bufTmout := false
  blocks := []

def oneBlock : Kmalloc := fun blocks => if blocks = [] then some 65536 else none

theorem one_block_ok : KmallocOk oneBlock := by
  intro blocks addr found
  rw [oneBlock] at found
  split at found
  · rename_i empty
    cases found
    rw [empty]
    exact ⟨by decide, fun b block => absurd block List.not_mem_nil⟩
  · cases found

theorem one_block_init : bufInit oneBlock blankHeap = (false, (bufInit oneBlock blankHeap).2) := rfl

-- One buffer is out.
theorem buf_heap_invariant_alloc : ∃ s : State, s.live = [65536] ∧ s.heap.memUsed = BUF_BLOCK_SIZE * s.heap.blocks.length := by
  have start := Reachable.init oneBlock blankHeap _ one_block_ok rfl rfl one_block_init
  obtain ⟨s', run⟩ : ∃ s', (Op.alloc 100 0 false).run oneBlock 2 ⟨(bufInit oneBlock blankHeap).2, []⟩ = .ret s' ∧ s'.live = [65536] :=
    ⟨_, rfl, rfl⟩
  obtain ⟨_, _, _, _, _, _, _, counted, _⟩ := buf_heap_invariant s'
    (.step oneBlock 2 _ s' (.alloc 100 0 false) start one_block_ok trivial run.1)
  exact ⟨s', run.2, counted⟩

end MagxNet.Buf
